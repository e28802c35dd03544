import Getd.Lib.Memory

/-!
# A buffer that is written in place

`Buf` is a block of memory that is reused: writing a field changes the bytes
of the field and leaves the rest as the last use left it. Each byte also
carries its origin, the stream it was read from, if any. `store` is the only
write. A read of a field sees the last store over it (`bytes_store_self`,
`u32_write_self`, `spells_write_self`) and ignores a store elsewhere
(`bytes_store_of_disjoint` and its companions).
-/

namespace CLib

/-- A reused block of memory and where each of its bytes came from. -/
structure Buf where
  byte : Mem
  origin : Nat → Option Nat

/-- The bytes of a 32-bit word, little-endian. -/
def le32 (n : Nat) : List UInt8 :=
  [UInt8.ofNat n, UInt8.ofNat (n / 256), UInt8.ofNat (n / 256 / 256),
    UInt8.ofNat (n / 256 / 256 / 256)]

@[simp] theorem le32_length (n : Nat) : (le32 n).length = 4 := rfl

namespace Buf

def store (b : Buf) (k : Nat) (bs : List UInt8) (o : Option Nat) : Buf where
  byte i := if k ≤ i ∧ i < k + bs.length then bs.getD (i - k) 0 else b.byte i
  origin i := if k ≤ i ∧ i < k + bs.length then o else b.origin i

/-- Store bytes the program made itself. -/
abbrev write (b : Buf) (k : Nat) (bs : List UInt8) : Buf := b.store k bs none

variable {b : Buf} {k k' n : Nat} {bs : List UInt8} {o : Option Nat}

theorem store_byte_in {i : Nat} (h : i < bs.length) :
    (b.store k bs o).byte (k + i) = bs[i] := by
  simp [store, h]

theorem store_byte_out {i : Nat} (h : i < k ∨ k + bs.length ≤ i) :
    (b.store k bs o).byte i = b.byte i := by
  have : ¬ (k ≤ i ∧ i < k + bs.length) := by omega
  simp only [store, if_neg this]

theorem store_origin_in {i : Nat} (h : k ≤ i ∧ i < k + bs.length) :
    (b.store k bs o).origin i = o := by
  simp only [store, if_pos h]

theorem store_origin_out {i : Nat} (h : i < k ∨ k + bs.length ≤ i) :
    (b.store k bs o).origin i = b.origin i := by
  have : ¬ (k ≤ i ∧ i < k + bs.length) := by omega
  simp only [store, if_neg this]

theorem store_origin_congr {b' : Buf} (h : b'.origin = b.origin) :
    (b'.store k bs o).origin = (b.store k bs o).origin := by
  simp only [store, h]

/-! ## Reading back -/

theorem bytes_store_self : (b.store k bs o).byte.bytes k bs.length = bs := by
  refine List.ext_getElem (by simp) fun i _ h => ?_
  rw [Mem.bytes_getElem, store_byte_in h]

theorem bytes_store_of_disjoint (h : k' + n ≤ k ∨ k + bs.length ≤ k') :
    (b.store k bs o).byte.bytes k' n = b.byte.bytes k' n := by
  rw [Mem.bytes_congr]
  intro i hi
  exact store_byte_out (by omega)

theorem u32_write_self {v : Nat} (hv : v < 2 ^ 32) : (b.store k (le32 v) o).byte.u32 k = v := by
  have h0 : (b.store k (le32 v) o).byte k = UInt8.ofNat v := store_byte_in (i := 0) (by simp)
  have h1 : (b.store k (le32 v) o).byte (k + 1) = UInt8.ofNat (v / 256) :=
    store_byte_in (by simp)
  have h2 : (b.store k (le32 v) o).byte (k + 2) = UInt8.ofNat (v / 256 / 256) :=
    store_byte_in (by simp)
  have h3 : (b.store k (le32 v) o).byte (k + 3) = UInt8.ofNat (v / 256 / 256 / 256) :=
    store_byte_in (by simp)
  simp only [Mem.u32, h0, h1, h2, h3, UInt8.toNat_ofNat']
  omega

theorem u32_store_of_disjoint (h : k' + 4 ≤ k ∨ k + bs.length ≤ k') :
    (b.store k bs o).byte.u32 k' = b.byte.u32 k' :=
  Mem.u32_congr fun _ hi => store_byte_out (by omega)

theorem spells_write_self {s : List UInt8} (hs : 0 ∉ s) :
    Spells ((b.store k (s ++ [0]) o).byte.off k) s := by
  have h : (b.store k (s ++ [0]) o).byte.bytes k (s ++ [0]).length = s ++ [0] := bytes_store_self
  rw [spells_iff]
  refine ⟨?_, ?_, hs⟩
  · refine List.ext_getElem (by simp) fun i _ hi => ?_
    have hi' : i < (s ++ [(0 : UInt8)]).length := by rw [List.length_append]; omega
    have := store_byte_in (b := b) (k := k) (o := o) hi'
    simpa [List.getElem_append_left hi] using this
  · have hi' : s.length < (s ++ [(0 : UInt8)]).length := by simp
    have := store_byte_in (b := b) (k := k) (o := o) hi'
    simpa using this

theorem spells_store_of_disjoint {s : List UInt8} (hs : Spells (b.byte.off k') s)
    (h : k' + s.length < k ∨ k + bs.length ≤ k') :
    Spells ((b.store k bs o).byte.off k') s :=
  hs.congr fun i hi => store_byte_out (by omega)

/-! ## Records written field by field -/

/-- One write: where, what, and of which origin. -/
structure Field where
  off : Nat
  bytes : List UInt8
  origin : Option Nat

/-- The writes of a record, in order. -/
def fill (b : Buf) : List Field → Buf
  | [] => b
  | f :: fs => fill (b.store f.off f.bytes f.origin) fs

/-- Byte `i` is in one of the fields. What is not covered is a gap of the record. -/
def Covers (fs : List Field) (i : Nat) : Prop := ∃ f ∈ fs, f.off ≤ i ∧ i < f.off + f.bytes.length

theorem covers_cons {f : Field} {fs : List Field} {i : Nat} :
    Covers (f :: fs) i ↔ (f.off ≤ i ∧ i < f.off + f.bytes.length) ∨ Covers fs i := by
  simp [Covers]

theorem not_covers_nil {i : Nat} : ¬ Covers [] i := fun ⟨_, h, _⟩ => nomatch h

theorem store_eq_of_mem {f : Field} {b b' : Buf} {i : Nat}
    (h : f.off ≤ i ∧ i < f.off + f.bytes.length) :
    (b.store f.off f.bytes f.origin).byte i = (b'.store f.off f.bytes f.origin).byte i := by
  simp only [store, if_pos h]

theorem fill_congr {fs : List Field} {i : Nat} : ∀ {b b' : Buf}, b.byte i = b'.byte i →
    (b.fill fs).byte i = (b'.fill fs).byte i := by
  induction fs with
  | nil => exact id
  | cons f fs ih =>
    intro b b' h
    refine ih ?_
    simp only [store, h]

/-- A covered byte does not depend on the buffer. -/
theorem fill_byte_covered {fs : List Field} {i : Nat} (h : Covers fs i) : ∀ b b' : Buf,
    (b.fill fs).byte i = (b'.fill fs).byte i := by
  induction fs with
  | nil => exact absurd h not_covers_nil
  | cons f fs ih =>
    intro b b'
    rcases covers_cons.mp h with hf | hfs
    · show ((b.store f.off f.bytes f.origin).fill fs).byte i =
        ((b'.store f.off f.bytes f.origin).fill fs).byte i
      exact fill_congr (store_eq_of_mem hf)
    · exact ih hfs _ _

/-- A gap keeps what the buffer held. -/
theorem fill_gap {fs : List Field} {i : Nat} (h : ¬ Covers fs i) : ∀ b : Buf,
    (b.fill fs).byte i = b.byte i ∧ (b.fill fs).origin i = b.origin i := by
  induction fs with
  | nil => exact fun _ => ⟨rfl, rfl⟩
  | cons f fs ih =>
    intro b
    rw [covers_cons, not_or] at h
    obtain ⟨hb, ho⟩ := ih h.2 (b.store f.off f.bytes f.origin)
    have hout : i < f.off ∨ f.off + f.bytes.length ≤ i := by omega
    exact ⟨hb.trans (store_byte_out hout), ho.trans (store_origin_out hout)⟩

/-- **Two buffers show the same record** exactly when they agree on its gaps. -/
theorem bytes_fill_iff {b b' : Buf} {fs : List Field} {n : Nat} :
    (b.fill fs).byte.bytes 0 n = (b'.fill fs).byte.bytes 0 n ↔
      ∀ i < n, ¬ Covers fs i → b.byte i = b'.byte i := by
  rw [Mem.bytes_congr]
  refine forall₂_congr fun i _ => ?_
  rw [Nat.zero_add]
  constructor
  · intro h hc
    rwa [(fill_gap hc b).1, (fill_gap hc b').1] at h
  · intro h
    by_cases hc : Covers fs i
    · exact fill_byte_covered hc b b'
    · rw [(fill_gap hc b).1, (fill_gap hc b').1, h hc]

end Buf

end CLib
