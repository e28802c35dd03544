import Mathlib.Data.List.Basic

/-!
# Input streams

A `Stream` is what `fopen(path, "r")` returns: the contents of the file, the
position, and the end-of-file and error indicators. `faults` lists what is to
go wrong: the outcome of the reads to come, in order, where `some j` is a
transient error after `j` bytes. A stream with `NoFaults` reads without error.

`block b F k` is the `k`-th piece of `F` in pieces of `b` bytes. Reading a
stream without faults block by block gives exactly these (`AtBlock.fread_block`),
and `F.length / b + 1` of them, the last one short, are `F` (`blocks_flatten`).
-/

namespace CLib

/-- A stream open for reading. -/
structure Stream where
  data : List UInt8
  pos : Nat
  eof : Bool
  err : Bool
  faults : List (Option Nat)
  deriving DecidableEq

namespace Stream

def opened (data : List UInt8) (faults : List (Option Nat)) : Stream :=
  ⟨data, 0, false, false, faults⟩

/-- The error that stops a read of `n` bytes, if one does: it strikes before
the request is met and before the end of the file. -/
def fault (s : Stream) (n : Nat) : Option Nat :=
  s.faults.head?.join.filter fun j => decide (j < n ∧ j ≤ s.data.length - s.pos)

/-- `fread(buf, 1, n, s)`: the bytes delivered. A short count at the end of the
file sets the end-of-file indicator, one at an error the error indicator. -/
def fread (s : Stream) (n : Nat) : List UInt8 × Stream :=
  let got := (s.data.drop s.pos).take ((s.fault n).getD n)
  (got, { s with
    pos := s.pos + got.length
    eof := s.eof || ((s.fault n).isNone && decide (got.length < n))
    err := s.err || (s.fault n).isSome
    faults := s.faults.tail })

/-- `getc(s)`, the byte it returns dropped. -/
def getc (s : Stream) : Stream := (s.fread 1).2

/-- No read to come fails. -/
def NoFaults (s : Stream) : Prop := ∀ f ∈ s.faults, f = none

theorem NoFaults.fault {s : Stream} (h : s.NoFaults) (n : Nat) : s.fault n = none := by
  unfold Stream.fault
  cases hf : s.faults with
  | nil => rfl
  | cons f fs =>
    have hn : f = none := h f (by rw [hf]; exact List.mem_cons_self)
    rw [hn]; rfl

theorem NoFaults.fread {s : Stream} (h : s.NoFaults) (n : Nat) : (s.fread n).2.NoFaults :=
  fun f hf => h f (List.mem_of_mem_tail hf)

@[simp] theorem fread_data (s : Stream) (n : Nat) : (s.fread n).2.data = s.data := rfl

theorem fread_length_le (s : Stream) (n : Nat) : (s.fread n).1.length ≤ n := by
  have hf : (s.fault n).getD n ≤ n := by
    cases h : s.fault n with
    | none => exact Nat.le_refl n
    | some j =>
      have := (Option.filter_eq_some_iff.mp h).2
      simp only [decide_eq_true_eq] at this
      exact Nat.le_of_lt this.1
  simp only [Stream.fread, List.length_take]
  omega

theorem fread_of_noFaults {s : Stream} (h : s.NoFaults) (n : Nat) :
    (s.fread n).1 = (s.data.drop s.pos).take n := by
  simp [Stream.fread, h.fault n]

theorem fread_pos {s : Stream} (h : s.NoFaults) (n : Nat) :
    (s.fread n).2.pos = s.pos + min n (s.data.length - s.pos) := by
  simp [Stream.fread, h.fault n]

theorem fread_eof {s : Stream} (h : s.NoFaults) (n : Nat) :
    (s.fread n).2.eof = (s.eof || decide (s.data.length - s.pos < n)) := by
  have hm : (min n (s.data.length - s.pos) < n) = (s.data.length - s.pos < n) :=
    propext ⟨fun h => by omega, fun h => by omega⟩
  simp [Stream.fread, h.fault n, hm]

end Stream

namespace Stream

/-- What is left of a stream: the bytes to come, the end-of-file indicator and
the errors to come. -/
def rest (s : Stream) : List UInt8 × Bool × List (Option Nat) :=
  (s.data.drop s.pos, s.eof, s.faults)

theorem fread_of_rest {s t : Stream} (h : s.rest = t.rest) (n : Nat) :
    (s.fread n).1 = (t.fread n).1 := by
  simp only [rest, Prod.mk.injEq] at h
  obtain ⟨hd, -, hf⟩ := h
  have hlen : s.data.length - s.pos = t.data.length - t.pos := by
    rw [← List.length_drop, ← List.length_drop, hd]
  have hfault : s.fault n = t.fault n := by
    unfold fault
    rw [hf, hlen]
  simp only [fread, hd, hfault]

/-- The stream after `fread` of `n` bytes and the `getc` that follows a short one. -/
def next (s : Stream) (n : Nat) : Stream :=
  if (s.fread n).1.length ≠ n then (s.fread n).2.getc else (s.fread n).2

@[simp] theorem next_data (s : Stream) (n : Nat) : (s.next n).data = s.data := by
  unfold next
  split <;> rfl

/-! ## What has been delivered -/

/-- The stream has delivered `out`: what stands before its position, all of it
once the end-of-file indicator is set. -/
structure Delivered (s : Stream) (out : List UInt8) : Prop where
  bytes : out = s.data.take s.pos
  bound : s.pos ≤ s.data.length
  eof : s.eof = true → s.pos = s.data.length

theorem Delivered.opened (data : List UInt8) (faults : List (Option Nat)) :
    (Stream.opened data faults).Delivered [] := ⟨rfl, Nat.zero_le _, nofun⟩

variable {s : Stream} {out : List UInt8} {n : Nat}

theorem Delivered.isPrefix (h : s.Delivered out) : out <+: s.data :=
  h.bytes ▸ List.take_prefix _ _

theorem Delivered.whole (h : s.Delivered out) (he : s.eof = true) : out = s.data := by
  rw [h.bytes, h.eof he, List.take_length]

/-- What a fault leaves of a read. -/
theorem fault_some {j : Nat} (h : s.fault n = some j) : j < n ∧ j ≤ s.data.length - s.pos := by
  have := (Option.filter_eq_some_iff.mp h).2
  simpa only [decide_eq_true_eq] using this

theorem fread_length (s : Stream) (n : Nat) :
    (s.fread n).1.length = min ((s.fault n).getD n) (s.data.length - s.pos) := by
  simp only [fread, List.length_take, List.length_drop]

theorem Delivered.fread (h : s.Delivered out) (n : Nat) :
    (s.fread n).2.Delivered (out ++ (s.fread n).1) := by
  have hb := h.bound
  have hlen := s.fread_length n
  have hgot : (s.fread n).1 = (s.data.drop s.pos).take (s.fread n).1.length :=
    List.prefix_iff_eq_take.mp (List.take_prefix _ _)
  refine ⟨?_, ?_, fun he => ?_⟩
  · show _ = s.data.take (s.pos + (s.fread n).1.length)
    rw [List.take_add, ← hgot, ← h.bytes]
  · show s.pos + (s.fread n).1.length ≤ s.data.length
    omega
  · show s.pos + (s.fread n).1.length = s.data.length
    have he : (s.eof || ((s.fault n).isNone && decide ((s.fread n).1.length < n))) = true := he
    rcases Bool.or_eq_true_iff.mp he with he | he
    · have := h.eof he
      omega
    · rw [Bool.and_eq_true, Option.isNone_iff_eq_none, decide_eq_true_eq] at he
      rw [he.1, Option.getD_none] at hlen
      omega

/-- An error that stops a read of `n` bytes is harmless to the `getc` after it: it
strikes at the end of the file, or the `getc` fails too. -/
def Harmless (s : Stream) (n : Nat) : Prop :=
  ∀ j, s.fault n = some j → s.pos + j = s.data.length ∨ s.faults.tail.head? = some (some 0)

theorem NoFaults.harmless (h : s.NoFaults) (n : Nat) : s.Harmless n :=
  fun j hj => absurd ((h.fault n).symm.trans hj) (by simp)

theorem NoFaults.next (h : s.NoFaults) (n : Nat) : (s.next n).NoFaults := by
  unfold Stream.next
  split
  · exact (h.fread n).fread 1
  · exact h.fread n

/-- A read of one byte delivers nothing at the end of the file or on an error. -/
theorem fread_one_eq_nil : (s.fread 1).1 = [] ↔
    s.data.length ≤ s.pos ∨ s.faults.head? = some (some 0) := by
  have hfault : (s.fault 1).getD 1 = 0 ↔ s.faults.head? = some (some 0) := by
    cases hf : s.fault 1 with
    | none =>
      refine iff_of_false (by simp) fun h => ?_
      simp [fault, h] at hf
    | some j =>
      have hj := fault_some hf
      rw [Option.getD_some]
      constructor
      · rintro rfl
        exact Option.join_eq_some_iff.mp (Option.filter_eq_some_iff.mp hf).1
      · omega
  show (s.data.drop s.pos).take ((s.fault 1).getD 1) = [] ↔ _
  rw [List.take_eq_nil_iff, List.drop_eq_nil_iff, hfault, or_comm]

/-- **No byte is dropped** by the `getc` after a short read exactly when the error
that stopped it is harmless. -/
theorem harmless_iff (hb : s.pos ≤ s.data.length) : s.Harmless n ↔
    ((s.fread n).1.length ≠ n → ((s.fread n).2.fread 1).1 = []) := by
  have hlen := s.fread_length n
  have hnext : ((s.fread n).2.fread 1).1 = [] ↔
      s.data.length ≤ s.pos + (s.fread n).1.length ∨ s.faults.tail.head? = some (some 0) :=
    fread_one_eq_nil
  rw [hnext]
  cases hf : s.fault n with
  | none =>
    rw [hf, Option.getD_none] at hlen
    refine iff_of_true (fun j hj => absurd (hf.symm.trans hj) (by simp)) fun hs => .inl ?_
    omega
  | some j =>
    have hj := fault_some hf
    rw [hf, Option.getD_some, Nat.min_eq_left hj.2] at hlen
    rw [hlen]
    constructor
    · intro h _
      exact (h j hf).imp (fun h => by omega) id
    · intro h k hk
      obtain rfl : j = k := Option.some.inj (hf.symm.trans hk)
      exact (h (by omega)).imp (fun h => by omega) id

/-- A block is delivered whole, unless an error drops a byte behind it. -/
theorem Delivered.next (h : s.Delivered out) (hh : s.Harmless n) :
    (s.next n).Delivered (out ++ (s.fread n).1) := by
  have hread := h.fread n
  unfold Stream.next
  split
  · next hs =>
    have hgetc := hread.fread 1
    rwa [(harmless_iff h.bound).mp hh hs, List.append_nil] at hgetc
  · exact hread

end Stream

/-! ## Blocks -/

/-- The `k`-th block of `b` bytes of `F`. -/
def block (b : Nat) (F : List UInt8) (k : Nat) : List UInt8 := (F.drop (b * k)).take b

theorem block_length_full {b k : Nat} {F : List UInt8} (hk : k < F.length / b) :
    (block b F k).length = b := by
  have h1 : b * (k + 1) ≤ F.length := Nat.le_trans (Nat.mul_le_mul_left b hk) (Nat.mul_div_le _ _)
  rw [Nat.mul_succ] at h1
  simp only [block, List.length_take, List.length_drop]
  omega

/-- The stream has delivered `k` blocks of `b` bytes. A file of `n` bytes has
`n / b + 1` blocks, and the end-of-file indicator is set after the last. -/
structure Stream.AtBlock (b k : Nat) (s : Stream) : Prop where
  noFaults : s.NoFaults
  pos : k ≤ s.data.length / b → s.pos = b * k
  eof : s.eof = decide (s.data.length / b < k)

namespace Stream.AtBlock

variable {s : Stream} {b k : Nat}

theorem opened (b : Nat) (data : List UInt8) {faults : List (Option Nat)}
    (h : ∀ f ∈ faults, f = none) : (Stream.opened data faults).AtBlock b 0 where
  noFaults := h
  pos _ := rfl
  eof := by simp [Stream.opened]

theorem fread_block (h : s.AtBlock b k) (hk : k ≤ s.data.length / b) :
    (s.fread b).1 = block b s.data k := by
  rw [fread_of_noFaults h.noFaults, h.pos hk, block]

theorem fread (h : s.AtBlock b k) (hb : 0 < b) (hk : k ≤ s.data.length / b) :
    (s.fread b).2.AtBlock b (k + 1) := by
  have hle : b * k ≤ s.data.length :=
    Nat.le_trans (Nat.mul_le_mul_left b hk) (Nat.mul_div_le _ _)
  refine ⟨h.noFaults.fread b, fun hk' => ?_, ?_⟩
  · rw [fread_data] at hk'
    have hle' : b * (k + 1) ≤ s.data.length :=
      Nat.le_trans (Nat.mul_le_mul_left b hk') (Nat.mul_div_le _ _)
    rw [fread_pos h.noFaults, h.pos hk]
    rw [Nat.mul_succ] at hle' ⊢
    omega
  · have hshort : s.data.length - b * k < b ↔ s.data.length / b < k + 1 := by
      rw [Nat.div_lt_iff_lt_mul hb, Nat.succ_mul, Nat.mul_comm k b]
      omega
    rw [fread_eof h.noFaults, h.eof, h.pos hk, fread_data, decide_eq_false (Nat.not_lt.mpr hk),
      Bool.false_or, decide_eq_decide]
    exact hshort

theorem getc (h : s.AtBlock b k) (hk : s.data.length / b < k) : s.getc.AtBlock b k where
  noFaults := h.noFaults.fread 1
  pos hk' := absurd hk (Nat.not_lt.mpr hk')
  eof := by
    rw [Stream.getc, fread_eof h.noFaults, h.eof, fread_data, decide_eq_true hk, Bool.true_or]

theorem next (h : s.AtBlock b k) (hb : 0 < b) (hk : k ≤ s.data.length / b) :
    (s.next b).AtBlock b (k + 1) := by
  have hread := h.fread hb hk
  unfold Stream.next
  split
  · next hshort =>
    refine hread.getc ?_
    -- a short block is the last
    by_contra hlt
    rw [Stream.fread_data] at hlt
    refine hshort ?_
    rw [h.fread_block hk]
    exact block_length_full (by omega)
  · exact hread

end Stream.AtBlock

end CLib
