import Mathlib.Algebra.Order.BigOperators.Group.List
import Mathlib.Algebra.Order.Ring.Nat

/-!
# Sums of flags

A flag is a `UInt32` with one bit. Flags are added up one by one (`total`), each
under a condition (`codeIf`). A sum that fits does not wrap (`total_toNat`), and
as a set of bits it has exactly the flags added, if no bit is added twice
(`contains_total`).
-/

namespace CLib

def codeIf (c : Prop) [Decidable c] (code : UInt32) : List UInt32 := if c then [code] else []

def total (codes : List UInt32) : UInt32 := codes.foldl (· + ·) 0

/-- The set of bits `retval` has the flag. -/
def Contains (retval code : UInt32) : Prop := retval &&& code ≠ 0

instance (retval code : UInt32) : Decidable (Contains retval code) :=
  inferInstanceAs (Decidable (_ ≠ _))

theorem mem_codeIf {c : Prop} [Decidable c] {code x : UInt32} :
    x ∈ codeIf c code ↔ c ∧ x = code := by
  unfold codeIf
  split
  · next h => rw [List.mem_singleton, and_iff_right h]
  · next h => exact iff_of_false List.not_mem_nil fun hx => h hx.1

theorem codeIf_eq_nil {c : Prop} [Decidable c] {code : UInt32} : codeIf c code = [] ↔ ¬ c := by
  unfold codeIf
  split
  · next h => exact iff_of_false (List.cons_ne_nil _ _) (not_not.mpr h)
  · next h => exact iff_of_true rfl h

theorem codeIf_sublist (c : Prop) [Decidable c] (code : UInt32) :
    List.Sublist (codeIf c code) [code] := by
  unfold codeIf
  split
  · exact List.Sublist.refl _
  · exact List.nil_sublist _

theorem total_append (codes : List UInt32) (c : Prop) [Decidable c] (code : UInt32) :
    total (codes ++ codeIf c code) = if c then total codes + code else total codes := by
  unfold total codeIf
  rw [List.foldl_append]
  split <;> rfl

/-- A sum that fits does not wrap. -/
theorem total_toNat {codes : List UInt32} (h : (codes.map UInt32.toNat).sum < 2 ^ 32) :
    (total codes).toNat = (codes.map UInt32.toNat).sum := by
  have hfold : ∀ (l : List UInt32) (r : UInt32), r.toNat + (l.map UInt32.toNat).sum < 2 ^ 32 →
      (l.foldl (· + ·) r).toNat = r.toNat + (l.map UInt32.toNat).sum := by
    intro l
    induction l with
    | nil => exact fun r _ => rfl
    | cons c l ih =>
      intro r hr
      rw [List.map_cons, List.sum_cons] at hr
      have hadd : (r + c).toNat = r.toNat + c.toNat := by
        rw [UInt32.toNat_add, Nat.mod_eq_of_lt (by omega)]
      rw [List.foldl_cons, ih (r + c) (by omega), hadd, List.map_cons, List.sum_cons, Nat.add_assoc]
  exact (hfold codes 0 (by rw [UInt32.toNat_zero]; omega)).trans (Nat.zero_add _)

/-- Fewer flags have a smaller sum. -/
theorem sum_le_of_sublist {codes all : List UInt32} (h : List.Sublist codes all) :
    (codes.map UInt32.toNat).sum ≤ (all.map UInt32.toNat).sum :=
  (h.map _).sum_le_sum fun _ _ => Nat.zero_le _

theorem total_eq_zero_iff {codes : List UInt32} (h : (codes.map UInt32.toNat).sum < 2 ^ 32)
    (h0 : 0 ∉ codes) : total codes = 0 ↔ codes = [] := by
  constructor
  · intro hz
    have hsum := total_toNat h
    rw [hz, UInt32.toNat_zero] at hsum
    have hall := List.sum_eq_zero_iff_forall_eq_nat.mp hsum.symm
    refine List.eq_nil_iff_forall_not_mem.mpr fun c hc => h0 ?_
    have hc0 : c = 0 :=
      UInt32.toNat_inj.mp ((hall _ (List.mem_map_of_mem hc)).trans UInt32.toNat_zero.symm)
    rwa [← hc0]
  · rintro rfl
    rfl

/-! ## Sums as sets -/

/-- Numbers without a common bit are added like sets. -/
theorem add_eq_or {a b : UInt32} (h : a &&& b = 0) : a + b = a ||| b := by
  have hb : a.toBitVec &&& b.toBitVec = 0#32 := congrArg UInt32.toBitVec h
  have hadd := BitVec.add_eq_or_of_and_eq_zero _ _ hb
  exact UInt32.toBitVec_inj.mp (by rw [UInt32.toBitVec_add, UInt32.toBitVec_or, hadd])

theorem and_or_distrib_right (a b c : UInt32) : (a ||| b) &&& c = a &&& c ||| b &&& c :=
  UInt32.toBitVec_inj.mp BitVec.and_or_distrib_right

theorem contains_or {a b code : UInt32} :
    Contains (a ||| b) code ↔ Contains a code ∨ Contains b code := by
  unfold Contains
  rw [and_or_distrib_right, ← not_and_or, ne_eq, UInt32.or_eq_zero_iff]

/-- **A sum without a bit twice is the set of its flags.** -/
theorem contains_total {codes : List UInt32} (h : codes.Pairwise fun a b => a &&& b = 0)
    {code : UInt32} : Contains (total codes) code ↔ ∃ c ∈ codes, Contains c code := by
  -- the sum so far has no bit in common with the flags to come
  have hfold : ∀ (l : List UInt32) (r : UInt32), (∀ c ∈ l, r &&& c = 0) →
      l.Pairwise (fun a b => a &&& b = 0) →
      (Contains (l.foldl (· + ·) r) code ↔ Contains r code ∨ ∃ c ∈ l, Contains c code) := by
    intro l
    induction l with
    | nil => simp
    | cons c l ih =>
      intro r hr hp
      have hrc : r + c = r ||| c := add_eq_or (hr c List.mem_cons_self)
      have hl := List.pairwise_cons.mp hp
      have hor : ∀ d ∈ l, (r + c) &&& d = 0 := by
        intro d hd
        rw [hrc, and_or_distrib_right, UInt32.or_eq_zero_iff]
        exact ⟨hr d (List.mem_cons_of_mem _ hd), hl.1 d hd⟩
      rw [List.foldl_cons, ih (r + c) hor hl.2, hrc, contains_or, or_assoc]
      simp only [List.mem_cons, exists_eq_or_imp]
  have h0 : ¬ Contains 0 code := fun hc => hc UInt32.zero_and
  rw [total, hfold codes 0 (fun c _ => UInt32.zero_and) h, or_iff_right h0]

end CLib
