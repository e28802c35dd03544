import Mathlib.Data.List.Basic

/-!
# Machines that answer their inputs

A `Mealy` machine takes an input and gives the next state and an output. `run`
is the state after a list of inputs and `outs` the outputs along the way. The
rules: `Reach.invariant` carries an invariant over every run, `outs_related`
carries a relation between two runs, on states and on outputs. `observe` puts a
history beside the state, which changes nothing else (`observe_run`).
-/

namespace CLib

/-- A machine with states `σ`, inputs `ι` and outputs `ο`. -/
structure Mealy (σ ι ο : Type) where
  step : σ → ι → σ × ο

namespace Mealy

variable {σ ι ο : Type} (M : Mealy σ ι ο)

def run (s : σ) : List ι → σ
  | [] => s
  | i :: is => run (M.step s i).1 is

def outs (s : σ) : List ι → List ο
  | [] => []
  | i :: is => (M.step s i).2 :: outs (M.step s i).1 is

variable {M}

theorem run_append (s : σ) (is js : List ι) : M.run s (is ++ js) = M.run (M.run s is) js := by
  induction is generalizing s with
  | nil => rfl
  | cons i is ih => exact ih _

theorem run_snoc (s : σ) (is : List ι) (i : ι) :
    M.run s (is ++ [i]) = (M.step (M.run s is) i).1 := by
  rw [run_append]; rfl

theorem outs_append (s : σ) (is js : List ι) :
    M.outs s (is ++ js) = M.outs s is ++ M.outs (M.run s is) js := by
  induction is generalizing s with
  | nil => rfl
  | cons i is ih => simp only [List.cons_append, outs, run, ih]

variable (M) in
/-- The states that runs from a state in `Init` reach. -/
inductive Reach (Init : σ → Prop) : σ → Prop where
  | init {s : σ} : Init s → Reach Init s
  | step {s : σ} (i : ι) : Reach Init s → Reach Init (M.step s i).1

theorem Reach.run {Init : σ → Prop} {s : σ} (h : M.Reach Init s) (is : List ι) :
    M.Reach Init (M.run s is) := by
  induction is generalizing s with
  | nil => exact h
  | cons i is ih => exact ih (h.step i)

/-- **Invariants.** What holds initially and is kept by every step holds of
every reachable state. -/
theorem Reach.invariant {Init I : σ → Prop} (h0 : ∀ s, Init s → I s)
    (hs : ∀ s i, I s → I (M.step s i).1) {s : σ} (h : M.Reach Init s) : I s := by
  induction h with
  | init h => exact h0 _ h
  | step i _ ih => exact hs _ i ih

/-- **Two runs on the same inputs** keep a relation `R` of their states, and
relate their outputs by `Q`, when every step does. -/
theorem outs_related {R : σ → σ → Prop} {Q : ο → ο → Prop}
    (hs : ∀ s t i, R s t → R (M.step s i).1 (M.step t i).1 ∧ Q (M.step s i).2 (M.step t i).2)
    {s t : σ} (h : R s t) (is : List ι) :
    R (M.run s is) (M.run t is) ∧ List.Forall₂ Q (M.outs s is) (M.outs t is) := by
  induction is generalizing s t with
  | nil => exact ⟨h, .nil⟩
  | cons i is ih =>
    obtain ⟨hR, hQ⟩ := hs s t i h
    obtain ⟨hR', hQ'⟩ := ih hR
    exact ⟨hR', .cons hQ hQ'⟩

/-- The machine with a history beside it, written from the state, the input and the
output of each step. -/
def observe {η : Type} (M : Mealy σ ι ο) (next : η → σ → ι → ο → η) : Mealy (η × σ) ι ο :=
  ⟨fun s i => ((next s.1 s.2 i (M.step s.2 i).2, (M.step s.2 i).1), (M.step s.2 i).2)⟩

theorem observe_run {η : Type} {next : η → σ → ι → ο → η} (is : List ι) (h : η) (s : σ) :
    ((M.observe next).run (h, s) is).2 = M.run s is := by
  induction is generalizing h s with
  | nil => rfl
  | cons i is ih => exact ih _ _

end Mealy

end CLib
