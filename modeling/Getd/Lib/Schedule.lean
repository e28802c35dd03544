import Mathlib.Data.List.TakeWhile
import Mathlib.Order.Lattice

/-!
# Schedules

A schedule says what is due when, the earliest first. An entry goes behind all that are due
no later (`insertDue`), so that what is due together keeps the order it came in. What is due
at some time is then at the front (`Sorted.takeWhile_eq`).
-/

namespace CLib

variable {α T : Type} [LinearOrder T] {xs ys : List (α × T)} {a : α} {t now : T}

/-- The earliest comes first. -/
def Sorted (xs : List (α × T)) : Prop := xs.Pairwise fun x y => x.2 ≤ y.2

/-- `a`, due at `t`, behind all that are due no later. -/
def insertDue (a : α) (t : T) (xs : List (α × T)) : List (α × T) :=
  xs.takeWhile (fun x => x.2 ≤ t) ++ (a, t) :: xs.dropWhile (fun x => x.2 ≤ t)

theorem insertDue_perm : (insertDue a t xs).Perm ((a, t) :: xs) := by
  have hperm : (insertDue a t xs).Perm
      ((a, t) :: (xs.takeWhile (fun x => x.2 ≤ t) ++ xs.dropWhile (fun x => x.2 ≤ t))) :=
    List.perm_middle
  rwa [List.takeWhile_append_dropWhile] at hperm

theorem mem_insertDue {x : α × T} : x ∈ insertDue a t xs ↔ x = (a, t) ∨ x ∈ xs := by
  rw [insertDue_perm.mem_iff, List.mem_cons]

theorem le_of_mem {x : α × T} (hx : x ∈ xs.takeWhile (fun x => x.2 ≤ now)) : x.2 ≤ now := by
  simpa using List.mem_takeWhile_imp hx

/-- What is not due at `now` is behind what is. -/
theorem Sorted.lt_of_mem (h : Sorted xs) {x : α × T} (hx : x ∈ xs.dropWhile (fun x => x.2 ≤ now)) :
    now < x.2 := by
  induction xs with
  | nil => cases hx
  | cons y ys ih =>
    obtain ⟨hy, hys⟩ := List.pairwise_cons.mp h
    by_cases hdue : y.2 ≤ now
    · rw [List.dropWhile_cons, if_pos (decide_eq_true hdue)] at hx
      exact ih hys hx
    · rw [List.dropWhile_cons, if_neg (by simpa using hdue)] at hx
      have hlt : now < y.2 := lt_of_not_ge hdue
      rcases List.mem_cons.mp hx with rfl | hx
      · exact hlt
      · exact lt_of_lt_of_le hlt (hy x hx)

/-- What is due at `now` is at the front. -/
theorem Sorted.takeWhile_eq (h : Sorted xs) :
    xs.takeWhile (fun x => x.2 ≤ now) = xs.filter (fun x => x.2 ≤ now) := by
  have hall : (xs.takeWhile fun x => x.2 ≤ now).filter (fun x => x.2 ≤ now) =
      xs.takeWhile fun x => x.2 ≤ now :=
    List.filter_eq_self.mpr fun x hx => decide_eq_true (le_of_mem hx)
  have hnone : (xs.dropWhile fun x => x.2 ≤ now).filter (fun x => x.2 ≤ now) = [] :=
    List.filter_eq_nil_iff.mpr fun x hx => by simpa using h.lt_of_mem hx
  have hsplit := congrArg (List.filter fun x => decide (x.2 ≤ now))
    (List.takeWhile_append_dropWhile (p := fun x : α × T => decide (x.2 ≤ now)) (l := xs))
  rw [List.filter_append, hall, hnone, List.append_nil] at hsplit
  exact hsplit

theorem Sorted.mem_takeWhile (h : Sorted xs) {x : α × T} :
    x ∈ xs.takeWhile (fun x => x.2 ≤ now) ↔ x ∈ xs ∧ x.2 ≤ now := by
  rw [h.takeWhile_eq, List.mem_filter, decide_eq_true_iff]

theorem Sorted.mem_dropWhile (h : Sorted xs) {x : α × T} :
    x ∈ xs.dropWhile (fun x => x.2 ≤ now) ↔ x ∈ xs ∧ now < x.2 := by
  refine ⟨fun hx => ⟨(List.dropWhile_sublist _).subset hx, h.lt_of_mem hx⟩, ?_⟩
  rintro ⟨hx, hlt⟩
  rw [← List.takeWhile_append_dropWhile (p := fun x : α × T => x.2 ≤ now) (l := xs)] at hx
  rcases List.mem_append.mp hx with hx | hx
  · exact absurd (le_of_mem hx) (not_le_of_gt hlt)
  · exact hx

theorem Sorted.insertDue (h : Sorted xs) : Sorted (insertDue a t xs) := by
  have hsplit : Sorted (xs.takeWhile (fun x => x.2 ≤ t) ++ xs.dropWhile (fun x => x.2 ≤ t)) := by
    rwa [List.takeWhile_append_dropWhile]
  obtain ⟨htake, hdrop, happart⟩ := List.pairwise_append.mp hsplit
  refine List.pairwise_append.mpr ⟨htake, List.pairwise_cons.mpr ⟨fun y hy => ?_, hdrop⟩, ?_⟩
  · exact le_of_lt (h.lt_of_mem hy)
  · intro x hx y hy
    rcases List.mem_cons.mp hy with rfl | hy
    · exact le_of_mem hx
    · exact happart x hx y hy

end CLib
