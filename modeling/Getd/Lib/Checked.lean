import Mathlib.Data.List.Basic

/-!
# Machines whose steps can fail

A `Checked` machine takes an input and gives the next state or the failure that ends
it. `run` is the state after a list of inputs. The rules: `run_induction` goes from the
end of a run that does not fail to its beginning, `run_invariant` carries an invariant
over it, `run_keeps` does so when a step may fail in one way, `run_error` finds the step at
which one fails, and `run_agree` carries a relation between the runs of two machines.
-/

namespace CLib

@[simp] theorem ok_bind {ε α β : Type} (a : α) (f : α → Except ε β) : (Except.ok a >>= f) = f a :=
  rfl

@[simp] theorem pure_eq_ok {ε α : Type} (a : α) : (pure a : Except ε α) = .ok a := rfl

/-- The state at the end, when there is one. -/
theorem ok_getD {ε α : Type} {r : Except ε α} (h : r.toOption.isSome = true) (a : α) :
    r = .ok (r.toOption.getD a) := by
  cases r with
  | ok b => rfl
  | error e => cases h

/-- A machine with states `σ`, inputs `ι` and failures `ε`. -/
structure Checked (σ ι ε : Type) where
  step : σ → ι → Except ε σ

namespace Checked

variable {σ ι ε : Type} (M : Checked σ ι ε)

def run (s : σ) : List ι → Except ε σ
  | [] => .ok s
  | i :: is =>
    match M.step s i with
    | .ok s => run s is
    | .error e => .error e

variable {M} {I : σ → Prop} {s t : σ} {e : ε}

theorem run_cons_ok {i : ι} {is : List ι} (h : M.step s i = .ok t) :
    M.run s (i :: is) = M.run t is := by
  rw [run, h]

theorem run_cons_error {i : ι} {is : List ι} (h : M.step s i = .error e) :
    M.run s (i :: is) = .error e := by
  rw [run, h]

/-- **Induction on a run** that ends in `t`. -/
theorem run_induction {P : σ → List ι → Prop} (hnil : P t [])
    (hcons : ∀ s i u is, M.step s i = .ok u → P u is → P s (i :: is)) {is : List ι}
    (h : M.run s is = .ok t) : P s is := by
  induction is generalizing s with
  | nil =>
    cases h
    exact hnil
  | cons i is ih =>
    cases hu : M.step s i with
    | error e => cases (run_cons_error hu).symm.trans h
    | ok u => exact hcons s i u is hu (ih ((run_cons_ok hu).symm.trans h))

theorem run_append (is js : List ι) (h : M.run s is = .ok t) : M.run s (is ++ js) = M.run t js :=
  run_induction (P := fun s is => M.run s (is ++ js) = M.run t js) rfl
    (fun _ _ _ _ hu ih => (run_cons_ok hu).trans ih) h

theorem run_trans {u : σ} {is js : List ι} (h : M.run s is = .ok t) (h' : M.run t js = .ok u) :
    M.run s (is ++ js) = .ok u :=
  (run_append is js h).trans h'

/-- **Invariants.** -/
theorem run_invariant (hstep : ∀ s i t, I s → M.step s i = .ok t → I t) (hs : I s) {is : List ι}
    (h : M.run s is = .ok t) : I t :=
  run_induction (P := fun s _ => I s → I t) id (fun s i u _ hu ih hs => ih (hstep s i u hs hu)) h hs

/-- What a step makes larger by one at most. -/
theorem run_size (size : σ → Nat) (hsize : ∀ s i t, M.step s i = .ok t → size t ≤ size s + 1)
    {is : List ι} (h : M.run s is = .ok t) : size t ≤ size s + is.length := by
  refine run_induction (P := fun s is => size t ≤ size s + is.length) (Nat.le_refl _) ?_ h
  intro s i u is hu ih
  have hle := hsize s i u hu
  rw [List.length_cons]
  omega

/-- **Failures.** A run that fails does so at one of its inputs. -/
theorem run_error {is : List ι} (h : M.run s is = .error e) :
    ∃ js i ks t, is = js ++ i :: ks ∧ M.run s js = .ok t ∧ M.step t i = .error e := by
  induction is generalizing s with
  | nil => cases h
  | cons i is ih =>
    rw [run] at h
    cases hu : M.step s i with
    | error e' =>
      rw [hu] at h
      cases h
      exact ⟨[], i, is, s, rfl, rfl, hu⟩
    | ok u =>
      rw [hu] at h
      obtain ⟨js, j, ks, t, rfl, hrun, hstep⟩ := ih h
      exact ⟨i :: js, j, ks, t, rfl, (run_cons_ok hu).trans hrun, hstep⟩

/-- A step that does not keep the invariant fails with `e`, and then so does the run. -/
theorem run_keeps (hstep : ∀ s i, I s → (∃ t, M.step s i = .ok t ∧ I t) ∨ M.step s i = .error e)
    (hs : I s) (is : List ι) : (∃ t, M.run s is = .ok t ∧ I t) ∨ M.run s is = .error e := by
  induction is generalizing s with
  | nil => exact .inl ⟨s, rfl, hs⟩
  | cons i is ih =>
    rcases hstep s i hs with ⟨t, ht, hi⟩ | hfail
    · rw [run_cons_ok ht]
      exact ih hi
    · exact .inr (run_cons_error hfail)

/-! ## Two machines -/

/-- Both results are failures, the same, or both are states that `R` relates. -/
def Agree {τ : Type} (R : σ → τ → Prop) : Except ε σ → Except ε τ → Prop
  | .ok s, .ok t => R s t
  | .error d, .error e => d = e
  | _, _ => False

theorem Agree.ok {τ : Type} {R : σ → τ → Prop} {s : σ} {r : Except ε τ} (h : Agree R (.ok s) r) :
    ∃ t, r = .ok t ∧ R s t := by
  cases r with
  | ok t => exact ⟨t, rfl, h⟩
  | error e => exact h.elim

/-- **Simulation.** Two machines that agree at every step agree after every run, also when they
agree only on states smaller than `bound` and a step makes a state larger by one at most. -/
theorem run_agree {τ : Type} {N : Checked τ ι ε} (R : σ → τ → Prop) (size : τ → Nat) {bound : Nat}
    (hstep : ∀ s t i, R s t → size t < bound → Agree R (M.step s i) (N.step t i))
    (hsize : ∀ t i t', N.step t i = .ok t' → size t' ≤ size t + 1) {is : List ι} {s : σ} {t : τ}
    (h : R s t) (hbound : size t + is.length ≤ bound) : Agree R (M.run s is) (N.run t is) := by
  induction is generalizing s t with
  | nil => exact h
  | cons i is ih =>
    rw [List.length_cons] at hbound
    have hagree := hstep s t i h (by omega)
    rw [run, run]
    cases hs : M.step s i with
    | error d =>
      cases ht : N.step t i with
      | error e =>
        rw [hs, ht] at hagree
        exact hagree
      | ok t' =>
        rw [hs, ht] at hagree
        exact hagree.elim
    | ok s' =>
      cases ht : N.step t i with
      | error e =>
        rw [hs, ht] at hagree
        exact hagree.elim
      | ok t' =>
        rw [hs, ht] at hagree
        have hle := hsize t i t' ht
        exact ih hagree (by omega)

end Checked

end CLib
