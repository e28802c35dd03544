import Getd.Lib.PrefixCode
import Mathlib.Algebra.Group.Nat.Defs

/-!
# Numbers on the wire

`utils/wire.c`: 16-bit and 64-bit integers as bytes, the most significant first.
-/

namespace Nanomsg

def nnPuts (val : UInt16) : List UInt8 :=
  [((val >>> 8) &&& 0xff).toUInt8, (val &&& 0xff).toUInt8]

def nnGets (buf : List UInt8) : UInt16 :=
  (buf.getD 0 0).toUInt16 <<< 8 ||| (buf.getD 1 0).toUInt16

def nnPutll (val : UInt64) : List UInt8 :=
  [((val >>> 56) &&& 0xff).toUInt8, ((val >>> 48) &&& 0xff).toUInt8,
    ((val >>> 40) &&& 0xff).toUInt8, ((val >>> 32) &&& 0xff).toUInt8,
    ((val >>> 24) &&& 0xff).toUInt8, ((val >>> 16) &&& 0xff).toUInt8,
    ((val >>> 8) &&& 0xff).toUInt8, (val &&& 0xff).toUInt8]

def nnGetll (buf : List UInt8) : UInt64 :=
  (buf.getD 0 0).toUInt64 <<< 56 ||| (buf.getD 1 0).toUInt64 <<< 48 |||
    (buf.getD 2 0).toUInt64 <<< 40 ||| (buf.getD 3 0).toUInt64 <<< 32 |||
    (buf.getD 4 0).toUInt64 <<< 24 ||| (buf.getD 5 0).toUInt64 <<< 16 |||
    (buf.getD 6 0).toUInt64 <<< 8 ||| (buf.getD 7 0).toUInt64 <<< 0

@[simp] theorem nnPutll_length (val : UInt64) : (nnPutll val).length = 8 := rfl

/-- One more byte below the `n` above it. -/
theorem shiftLeft_or_byte (n k : Nat) {b : Nat} (hb : b < 256) :
    n <<< (k + 8) ||| b <<< k = (n * 256 + b) <<< k := by
  have hor : n <<< 8 ||| b = n * 256 + b := by
    rw [← Nat.shiftLeft_add_eq_or_of_lt (by simpa using hb), Nat.shiftLeft_eq]
  rw [Nat.add_comm k 8, Nat.shiftLeft_add, ← Nat.shiftLeft_or_distrib, hor]

theorem toNat_shiftByte (b : UInt8) {k : UInt64} (hk : k.toNat ≤ 56) :
    (b.toUInt64 <<< k).toNat = b.toNat <<< k.toNat := by
  have hb := b.toNat_lt
  have hle : b.toNat * 2 ^ k.toNat < 2 ^ 64 := by
    calc b.toNat * 2 ^ k.toNat ≤ b.toNat * 2 ^ 56 :=
          Nat.mul_le_mul_left _ (Nat.pow_le_pow_right (by decide) hk)
      _ < 2 ^ 64 := by omega
  rw [UInt64.toNat_shiftLeft, Nat.mod_eq_of_lt (by omega : k.toNat < 64), UInt8.toNat_toUInt64,
    Nat.shiftLeft_eq, Nat.mod_eq_of_lt hle]

theorem toNat_nnGetll (b0 b1 b2 b3 b4 b5 b6 b7 : UInt8) (rest : List UInt8) :
    (nnGetll (b0 :: b1 :: b2 :: b3 :: b4 :: b5 :: b6 :: b7 :: rest)).toNat =
      ((((((b0.toNat * 256 + b1.toNat) * 256 + b2.toNat) * 256 + b3.toNat) * 256 + b4.toNat) * 256 +
        b5.toNat) * 256 + b6.toNat) * 256 + b7.toNat := by
  simp only [nnGetll, List.getD_cons_zero, List.getD_cons_succ, UInt64.toNat_or]
  rw [toNat_shiftByte b0 (by decide), toNat_shiftByte b1 (by decide),
    toNat_shiftByte b2 (by decide), toNat_shiftByte b3 (by decide),
    toNat_shiftByte b4 (by decide), toNat_shiftByte b5 (by decide),
    toNat_shiftByte b6 (by decide), toNat_shiftByte b7 (by decide)]
  have h56 : (56 : UInt64).toNat = 48 + 8 := rfl
  have h48 : (48 : UInt64).toNat = 40 + 8 := rfl
  have h40 : (40 : UInt64).toNat = 32 + 8 := rfl
  have h32 : (32 : UInt64).toNat = 24 + 8 := rfl
  have h24 : (24 : UInt64).toNat = 16 + 8 := rfl
  have h16 : (16 : UInt64).toNat = 8 + 8 := rfl
  have h8 : (8 : UInt64).toNat = 0 + 8 := rfl
  have h0 : (0 : UInt64).toNat = 0 := rfl
  -- the bytes join from the top, each eight bits below the number so far
  rw [h56, h48, shiftLeft_or_byte _ _ b1.toNat_lt, h40, shiftLeft_or_byte _ _ b2.toNat_lt, h32,
    shiftLeft_or_byte _ _ b3.toNat_lt, h24, shiftLeft_or_byte _ _ b4.toNat_lt, h16,
    shiftLeft_or_byte _ _ b5.toNat_lt, h8, shiftLeft_or_byte _ _ b6.toNat_lt, h0,
    shiftLeft_or_byte _ _ b7.toNat_lt, Nat.shiftLeft_zero]

theorem toNat_byteAt (val : UInt64) {k : UInt64} (hk : k.toNat < 64) :
    ((val >>> k) &&& 0xff).toUInt8.toNat = val.toNat / 2 ^ k.toNat % 256 := by
  have hff : (0xff : UInt64).toNat = 2 ^ 8 - 1 := rfl
  rw [UInt64.toNat_toUInt8, UInt64.toNat_and, UInt64.toNat_shiftRight, Nat.mod_eq_of_lt hk,
    Nat.shiftRight_eq_div_pow, hff, Nat.and_two_pow_sub_one_eq_mod, Nat.mod_mod]

theorem toNat_lowByte (val : UInt64) : (val &&& 0xff).toUInt8.toNat = val.toNat % 256 := by
  have hff : (0xff : UInt64).toNat = 2 ^ 8 - 1 := rfl
  rw [UInt64.toNat_toUInt8, UInt64.toNat_and, hff, Nat.and_two_pow_sub_one_eq_mod, Nat.mod_mod]

/-- **What is put is got.** -/
theorem nnGetll_nnPutll (val : UInt64) (rest : List UInt8) :
    nnGetll (nnPutll val ++ rest) = val := by
  have h56 : (56 : UInt64).toNat = 56 := rfl
  have h48 : (48 : UInt64).toNat = 48 := rfl
  have h40 : (40 : UInt64).toNat = 40 := rfl
  have h32 : (32 : UInt64).toNat = 32 := rfl
  have h24 : (24 : UInt64).toNat = 24 := rfl
  have h16 : (16 : UInt64).toNat = 16 := rfl
  have h8 : (8 : UInt64).toNat = 8 := rfl
  have hv := val.toNat_lt
  apply UInt64.toNat_inj.mp
  refine (toNat_nnGetll _ _ _ _ _ _ _ _ rest).trans ?_
  rw [toNat_byteAt _ (by decide), toNat_byteAt _ (by decide), toNat_byteAt _ (by decide),
    toNat_byteAt _ (by decide), toNat_byteAt _ (by decide), toNat_byteAt _ (by decide),
    toNat_byteAt _ (by decide), toNat_lowByte, h56, h48, h40, h32, h24, h16, h8]
  omega

/-- **What is got is put back.** -/
theorem nnPutll_nnGetll {buf : List UInt8} (h : buf.length = 8) : nnPutll (nnGetll buf) = buf := by
  match buf, h with
  | [b0, b1, b2, b3, b4, b5, b6, b7], _ =>
    have h56 : (56 : UInt64).toNat = 56 := rfl
    have h48 : (48 : UInt64).toNat = 48 := rfl
    have h40 : (40 : UInt64).toNat = 40 := rfl
    have h32 : (32 : UInt64).toNat = 32 := rfl
    have h24 : (24 : UInt64).toNat = 24 := rfl
    have h16 : (16 : UInt64).toNat = 16 := rfl
    have h8 : (8 : UInt64).toNat = 8 := rfl
    have hn := toNat_nnGetll b0 b1 b2 b3 b4 b5 b6 b7 []
    have l1 := b1.toNat_lt
    have l2 := b2.toNat_lt
    have l3 := b3.toNat_lt
    have l4 := b4.toNat_lt
    have l5 := b5.toNat_lt
    have l6 := b6.toNat_lt
    have l7 := b7.toNat_lt
    have l0 := b0.toNat_lt
    unfold nnPutll
    simp only [List.cons.injEq, and_true]
    refine ⟨?_, ?_, ?_, ?_, ?_, ?_, ?_, ?_⟩ <;> apply UInt8.toNat_inj.mp
    · rw [toNat_byteAt _ (by decide), h56, hn]; omega
    · rw [toNat_byteAt _ (by decide), h48, hn]; omega
    · rw [toNat_byteAt _ (by decide), h40, hn]; omega
    · rw [toNat_byteAt _ (by decide), h32, hn]; omega
    · rw [toNat_byteAt _ (by decide), h24, hn]; omega
    · rw [toNat_byteAt _ (by decide), h16, hn]; omega
    · rw [toNat_byteAt _ (by decide), h8, hn]; omega
    · rw [toNat_lowByte, hn]; omega

end Nanomsg
