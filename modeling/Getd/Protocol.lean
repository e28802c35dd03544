import Mathlib.Computability.Language

/-!
# The session protocol

What the daemon is for, without its bytes: a client opens a session, names a
file, acknowledges its pieces and is told when the file is complete. `Session`
is what a client has, under an identity of any type, and `Step` what one
message can do to it. An error either changes nothing (`refused`) or ends the
session (`failed`).

`Run.word`: in every run the replies, the refusals left out, are a prefix of a
word of `(1 2 | 1 4⁺ 2 | 1 4⁺ 5 | 2)*`.
-/

namespace Protocol

open Computability

/-- A session under an identity. -/
inductive Session (ι : Type) where
  | idle
  | opened (id : ι)
  | sending (id : ι)
  deriving DecidableEq

/-- What one message does. -/
inductive Move (ι : Type) where
  | refused
  | failed
  | issued (id : ι)
  | chunk (id : ι)
  | finished (id : ι)
  | silent
  deriving DecidableEq

variable {ι : Type}

inductive Step : Session ι → Move ι → Session ι → Prop where
  | refused (s : Session ι) : Step s .refused s
  | failed (s : Session ι) : Step s .failed .idle
  | silent : Step .idle .silent .idle
  | issued (id : ι) : Step .idle (.issued id) (.opened id)
  | start (id : ι) : Step (.opened id) (.chunk id) (.sending id)
  | more (id : ι) : Step (.sending id) (.chunk id) (.sending id)
  | finish (id : ι) : Step (.sending id) (.finished id) .idle

theorem Step.of_issued {s s' : Session ι} {id : ι} (h : Step s (.issued id) s') :
    s = .idle ∧ s' = .opened id := by
  cases h; exact ⟨rfl, rfl⟩

theorem Step.of_chunk {s s' : Session ι} {id : ι} (h : Step s (.chunk id) s') :
    (s = .opened id ∨ s = .sending id) ∧ s' = .sending id := by
  cases h
  · exact ⟨.inl rfl, rfl⟩
  · exact ⟨.inr rfl, rfl⟩

theorem Step.of_finished {s s' : Session ι} {id : ι} (h : Step s (.finished id) s') :
    s = .sending id ∧ s' = .idle := by
  cases h; exact ⟨rfl, rfl⟩

def Move.letters : Move ι → List UInt8
  | refused => []
  | failed => [2]
  | issued _ => [1]
  | chunk _ => [4]
  | finished _ => [5]
  | silent => []

/-- A run from the idle session: its moves and where it leads. -/
inductive Run : List (Move ι) → Session ι → Prop where
  | nil : Run [] .idle
  | snoc {ms : List (Move ι)} {m : Move ι} {s s' : Session ι} :
      Run ms s → Step s m s' → Run (ms ++ [m]) s'

def pieces : Language UInt8 := {[4]} * {[4]}∗

/-- `(1 2 | 1 4⁺ 2 | 1 4⁺ 5 | 2)*`. -/
def sessions : Language UInt8 :=
  ({[1, 2]} + {[1]} * pieces * {[2]} + {[1]} * pieces * {[5]} + {[2]})∗

/-! ## Words -/

theorem replicate_mem_pieces (k : Nat) : List.replicate (k + 1) 4 ∈ pieces := by
  refine Language.mem_mul.mpr ⟨[4], rfl, List.replicate k 4, ?_, rfl⟩
  refine Language.mem_kstar.mpr ⟨List.replicate k [4], ?_, ?_⟩
  · induction k with
    | zero => rfl
    | succ k ih => rw [List.replicate_succ, List.replicate_succ, List.flatten_cons, ← ih]; rfl
  · intro y hy
    rw [List.eq_of_mem_replicate hy]; rfl

theorem sessions_append {u v : List UInt8} (hu : u ∈ sessions)
    (hv : v ∈ ({[1, 2]} + {[1]} * pieces * {[2]} + {[1]} * pieces * {[5]} + {[2]} :
      Language UInt8)) : u ++ v ∈ sessions := by
  obtain ⟨L, rfl, hL⟩ := Language.mem_kstar.mp hu
  refine Language.mem_kstar.mpr ⟨L ++ [v], by simp, fun y hy => ?_⟩
  rcases List.mem_append.mp hy with hy | hy
  · exact hL y hy
  · rwa [List.mem_singleton.mp hy]

theorem sessions_failed {u : List UInt8} (hu : u ∈ sessions) : u ++ [2] ∈ sessions :=
  sessions_append hu (.inr rfl)

theorem sessions_aborted {u : List UInt8} (hu : u ∈ sessions) : u ++ [1] ++ [2] ∈ sessions := by
  rw [List.append_assoc]
  exact sessions_append hu (.inl (.inl (.inl rfl)))

/-- A session that sent pieces, ended by `x`. -/
theorem sessions_ended {u : List UInt8} {k : Nat} {x : UInt8} (hu : u ∈ sessions)
    (hx : x = 2 ∨ x = 5) : u ++ [1] ++ List.replicate (k + 1) 4 ++ [x] ∈ sessions := by
  have hw : ∀ y : UInt8, [1] ++ List.replicate (k + 1) 4 ++ [y] ∈
      ({[1]} * pieces * {[y]} : Language UInt8) := fun y =>
    Language.append_mem_mul (Language.append_mem_mul rfl (replicate_mem_pieces k)) rfl
  rw [List.append_assoc, List.append_assoc, ← List.append_assoc [1]]
  rcases hx with rfl | rfl
  · exact sessions_append hu (.inl (.inl (.inr (hw 2))))
  · exact sessions_append hu (.inl (.inr (hw 5)))

/-- What the open session has added to a word of `sessions`. -/
def Pending : Session ι → List UInt8 → Prop
  | .idle, w => w ∈ sessions
  | .opened _, w => ∃ u ∈ sessions, w = u ++ [1]
  | .sending _, w => ∃ u ∈ sessions, ∃ k, w = u ++ [1] ++ List.replicate (k + 1) 4

theorem Step.pending {s s' : Session ι} {m : Move ι} {w : List UInt8} (h : Step s m s')
    (hw : Pending s w) : Pending s' (w ++ m.letters) := by
  cases h with
  | refused s => simpa [Move.letters] using hw
  | failed s =>
    cases s with
    | idle => exact sessions_failed hw
    | opened id =>
      obtain ⟨u, hu, rfl⟩ := hw
      exact sessions_aborted hu
    | sending id =>
      obtain ⟨u, hu, k, rfl⟩ := hw
      exact sessions_ended hu (.inl rfl)
  | silent => simpa [Move.letters] using hw
  | issued id => exact ⟨w, hw, rfl⟩
  | start id =>
    obtain ⟨u, hu, rfl⟩ := hw
    exact ⟨u, hu, 0, rfl⟩
  | more id =>
    obtain ⟨u, hu, k, rfl⟩ := hw
    refine ⟨u, hu, k + 1, ?_⟩
    rw [List.replicate_succ' (n := k + 1), ← List.append_assoc]; rfl
  | finish id =>
    obtain ⟨u, hu, k, rfl⟩ := hw
    exact sessions_ended hu (.inr rfl)

theorem Run.pending {ms : List (Move ι)} {s : Session ι} (h : Run ms s) :
    Pending s (ms.flatMap Move.letters) := by
  induction h with
  | nil => exact Language.nil_mem_kstar _
  | snoc _ hs ih =>
    rw [List.flatMap_append, List.flatMap_singleton]
    exact hs.pending ih

/-- **The protocol.** The replies that count are a prefix of a word of `sessions`. -/
theorem Run.word {ms : List (Move ι)} {s : Session ι} (h : Run ms s) :
    ∃ w ∈ sessions, ms.flatMap Move.letters <+: w := by
  have hp := h.pending
  cases s with
  | idle => exact ⟨_, hp, List.prefix_refl _⟩
  | opened id =>
    obtain ⟨u, hu, hw⟩ := hp
    rw [hw]
    exact ⟨_, sessions_aborted hu, List.prefix_append _ _⟩
  | sending id =>
    obtain ⟨u, hu, k, hw⟩ := hp
    rw [hw]
    exact ⟨_, sessions_ended (k := k) hu (.inr rfl), List.prefix_append _ _⟩

end Protocol
