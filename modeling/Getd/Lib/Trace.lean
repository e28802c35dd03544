import Getd.Lib.Machine

/-!
# Properties of traces

A trace is a list that grows at the end. `AtEach P l` says that every entry of
`l` stands in relation `P` to the entries before it, and `sinceLast p l` is what
came after the last entry with `p`. For a run of a machine, `Mealy.atEach_iff`
and `Mealy.always_iff` turn what holds all along it into a condition on each
step: the invariant `I` they carry may need that condition to be kept.
-/

namespace CLib

variable {α σ ι ο : Type}

/-- Every entry has the property `P` after the entries before it. -/
def AtEach (P : List α → α → Prop) (l : List α) : Prop :=
  ∀ pre a post, l = pre ++ a :: post → P pre a

namespace AtEach

variable {P Q : List α → α → Prop} {l : List α}

theorem nil : AtEach P [] := fun pre _ _ h => absurd h (by cases pre <;> simp)

theorem cons_iff {a : α} {es : List α} :
    AtEach P (a :: es) ↔ P [] a ∧ AtEach (fun pre b => P (a :: pre) b) es := by
  constructor
  · intro h
    refine ⟨h [] a es rfl, fun pre b post heq => h (a :: pre) b post ?_⟩
    rw [heq, List.cons_append]
  · rintro ⟨ha, hes⟩ pre b post heq
    cases pre with
    | nil =>
      cases heq
      exact ha
    | cons c pre =>
      rw [List.cons_append, List.cons.injEq] at heq
      obtain ⟨rfl, heq⟩ := heq
      exact hes pre b post heq

theorem append_iff {es : List α} :
    AtEach P (l ++ es) ↔ AtEach P l ∧ AtEach (fun pre a => P (l ++ pre) a) es := by
  induction l generalizing P with
  | nil => exact (and_iff_right nil).symm
  | cons a l ih => rw [List.cons_append, cons_iff, cons_iff, ih, and_assoc]; rfl

end AtEach

/-- The entries after the last one with `p`. -/
def sinceLast (p : α → Bool) (l : List α) : List α :=
  l.foldl (fun es a => if p a then [] else es ++ [a]) []

section SinceLast

variable {p : α → Bool} {l : List α} {a : α}

theorem sinceLast_snoc (h : p a = false) : sinceLast p (l ++ [a]) = sinceLast p l ++ [a] := by
  rw [sinceLast, List.foldl_append, List.foldl_cons, h]; rfl

theorem sinceLast_snoc_of (h : p a = true) : sinceLast p (l ++ [a]) = [] := by
  rw [sinceLast, List.foldl_append, List.foldl_cons, h]; rfl

theorem sinceLast_append {es : List α} (h : ∀ a ∈ es, p a = false) :
    sinceLast p (l ++ es) = sinceLast p l ++ es := by
  induction es generalizing l with
  | nil => rw [List.append_nil, List.append_nil]
  | cons a es ih =>
    have ha := h a List.mem_cons_self
    rw [List.append_cons l a es, ih fun b hb => h b (List.mem_cons_of_mem _ hb),
      sinceLast_snoc ha, ← List.append_cons]

end SinceLast

/-! ## Along a run -/

namespace Mealy

variable {M : Mealy σ ι ο} {I : σ → Prop} {P Q : σ → ι → Prop} {s : σ}

/-- **Each step of a run** has the property `P` exactly when each meets `Q`, when
the two agree at every state with `I`, and a step that meets `Q` keeps `I`. -/
theorem atEach_iff {is : List ι} (hstep : ∀ s, ∀ i ∈ is, I s → (P s i ↔ Q s i))
    (hkeep : ∀ s, ∀ i ∈ is, I s → Q s i → I (M.step s i).1) (hs : I s) :
    AtEach (fun pre i => P (M.run s pre) i) is ↔ AtEach (fun pre i => Q (M.run s pre) i) is := by
  induction is generalizing s with
  | nil => exact iff_of_true .nil .nil
  | cons i is ih =>
    have hi := List.mem_cons_self (a := i) (l := is)
    rw [AtEach.cons_iff, AtEach.cons_iff]
    refine (and_congr_left' (hstep s i hi hs)).trans (and_congr_right fun hq => ?_)
    exact ih (fun s j hj => hstep s j (List.mem_cons_of_mem _ hj))
      (fun s j hj => hkeep s j (List.mem_cons_of_mem _ hj)) (hkeep s i hi hs hq)

/-- An invariant is carried by steps that each meet `Q`. -/
theorem run_of_atEach (hkeep : ∀ s i, I s → Q s i → I (M.step s i).1) (hs : I s) {is : List ι}
    (h : AtEach (fun pre i => Q (M.run s pre) i) is) : I (M.run s is) := by
  induction is generalizing s with
  | nil => exact hs
  | cons i is ih =>
    rw [AtEach.cons_iff] at h
    exact ih (hkeep s i hs h.1) h.2

/-- **Every state of a run** has the property `R` exactly when each step meets `Q`. -/
theorem always_iff {R : σ → Prop} {is : List ι}
    (hstep : ∀ s, ∀ i ∈ is, I s → R s → (R (M.step s i).1 ↔ Q s i))
    (hkeep : ∀ s, ∀ i ∈ is, I s → I (M.step s i).1) (hs : I s) (hR : R s) :
    (∀ pre, pre <+: is → R (M.run s pre)) ↔ AtEach (fun pre i => Q (M.run s pre) i) is := by
  have hnext : (∀ pre, pre <+: is → R (M.run s pre)) ↔
      AtEach (fun pre i => R (M.step (M.run s pre) i).1) is := by
    constructor
    · intro h pre i post heq
      rw [← run_snoc]
      exact h _ ⟨post, by rw [heq, List.append_assoc, List.singleton_append]⟩
    · rintro h pre ⟨post, rfl⟩
      rcases pre.eq_nil_or_concat with rfl | ⟨pre, i, rfl⟩
      · exact hR
      · rw [List.concat_eq_append] at h ⊢
        rw [run_snoc]
        exact h pre i post (by rw [List.append_assoc, List.singleton_append])
  refine hnext.trans (atEach_iff (I := fun s => I s ∧ R s)
    (fun s i hi h => hstep s i hi h.1 h.2) (fun s i hi h hq => ?_) ⟨hs, hR⟩)
  exact ⟨hkeep s i hi h.1, (hstep s i hi h.1 h.2).mpr hq⟩

end Mealy

end CLib
