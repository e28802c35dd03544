import Getd.Frame

/-!
# Runs of the main loop

Every run of the main loop is a run of the session protocol (`run_follows`),
which fixes the order of the replies (`session_protocol`). An open session
keeps its id and its user name until it ends.
-/

namespace Getd

open CLib Protocol

variable {e : Env} {m : Mem} {g : Daemon}

/-! ## Runs of the main loop -/

def Daemon.Open (g : Daemon) : Prop := g.state.lastSent = 1 ∨ g.state.lastSent = 4

instance (g : Daemon) : Decidable g.Open := inferInstanceAs (Decidable (_ ∨ _))

theorem Daemon.Open.busy (h : g.Open) : g.state.lastSent ≠ 5 ∧ g.state.lastSent ≠ 2 := by
  rcases h with h | h <;> rw [h] <;> decide

theorem SessionInv.setBuffer (h : SessionInv g) (b : Mem) : SessionInv { g with buffer := b } :=
  h.congr rfl

theorem iteration_follows (hinv : SessionInv g) (i : Input) : Follows g (iteration g i) :=
  let h := handle_follows (e := i.env) (m := view (nnRecv g.buffer i.recv) i.past)
    (hinv.setBuffer (nnRecv g.buffer i.recv))
  ⟨h.inv, h.move⟩

theorem Init.sessionInv (h : Init g) : SessionInv g := by
  obtain ⟨sid, user, out, buf, rand, rfl⟩ := h
  exact .of_idle (.inr rfl)

theorem Reachable.sessionInv (h : Reachable g) : SessionInv g :=
  Mealy.Reach.invariant (I := SessionInv) (fun _ h => h.sessionInv)
    (fun _ i hi => (iteration_follows hi i).inv) h

/-- The replies of a run, the refusals left out. -/
def word (g : Daemon) : List Input → List UInt8
  | [] => []
  | i :: is => kept g (iteration g i).1 (iteration g i).2 ++ word (iteration g i).1 is

theorem run_follows (is : List Input) : ∀ {g : Daemon} {ms : List (Move Identity)},
    SessionInv g → Run ms g.session → ∃ ms', Run (ms ++ ms') (mainLoop.run g is).session ∧
      word g is = ms'.flatMap Move.letters := by
  induction is with
  | nil => intro g ms _ h; exact ⟨[], by rw [List.append_nil]; exact h, rfl⟩
  | cons i is ih =>
    intro g ms hinv h
    obtain ⟨hinv', mv, hstep, -, hkept⟩ := iteration_follows hinv i
    obtain ⟨ms', hrun, hword⟩ := ih hinv' (h.snoc hstep)
    rw [List.append_assoc] at hrun
    refine ⟨mv :: ms', hrun, ?_⟩
    rw [word, hkept, hword, List.flatMap_cons]

/-! ## The messages of a run -/

/-- An open session keeps its id and its user name whatever arrives. -/
theorem handle_identity (h : g.Open) : (handle e m g).1.state.identity = g.state.identity := by
  have hexit := handle_exit e m g
  generalize handle e m g = r at hexit ⊢
  have hfopen : ∀ p, (g.fopen e p).state.identity = g.state.identity := fun p => by
    unfold Daemon.fopen; split <;> rfl
  have hread : ∀ g : Daemon, (nnSend (messegeType4Builder e g)).1.state.identity =
      g.state.identity := fun g => by
    unfold messegeType4Builder
    dsimp only
    split <;> rfl
  have herr : ∀ (g : Daemon) t, (sendError g t).1.state.identity = g.state.identity :=
    fun g t => by rw [sendError_state]
  cases hexit with
  | accept0 ht hl hv =>
    rcases h with h | h <;> rw [h] at hl <;> exact absurd hl (by decide)
  | busy0 | stranger6 | other | corrupt0 | corrupt3 | stranger3 | invalid3 | corrupt6 | invalid6 =>
    exact herr _ _
  | noFile3 | irregular3 => exact (herr _ _).trans (hfopen _)
  | start3 => exact (hread _).trans (hfopen _)
  | finish6 => rfl
  | more6 => exact hread _
  | silent6 => rfl

theorem run_identity (is : List Input) : ∀ {g : Daemon},
    (∀ k < is.length, (mainLoop.run g (is.take k)).Open) →
      (mainLoop.run g is).state.identity = g.state.identity := by
  induction is with
  | nil => intro g _; rfl
  | cons i is ih =>
    intro g ho
    have h0 : (iteration g i).1.state.identity = g.state.identity :=
      handle_identity (g := { g with buffer := nnRecv g.buffer i.recv }) (ho 0 (by simp))
    exact (ih fun k hk => ho (k + 1) (by simpa using hk)).trans h0

def Reply.sessionId? : Reply → Option (List UInt8)
  | type1 _ _ sid | type4 _ _ _ sid _ | type5 _ _ sid => some sid
  | type2 .. => none

theorem handle_carries (hinv : SessionInv g) {r : Reply} {sid : List UInt8}
    (hr : replyOf (handle e m g) = some r) (hs : r.sessionId? = some sid) :
    sid = (handle e m g).1.state.identity.sid := by
  obtain ⟨-, mv, hstep, hreply, -⟩ := handle_follows (e := e) (m := m) hinv
  have hid : ∀ h : g.Open, (handle e m g).1.state.identity = g.state.identity := handle_identity
  unfold replyOf at hr
  generalize (handle e m g).2 = o at hreply hr
  -- the identity of an open session, read off `Daemon.session`
  have hopen : ∀ {h : Daemon} {id : Identity},
      h.session = .opened id ∨ h.session = .sending id → h.Open ∧ h.state.identity = id := by
    intro h id hsess
    unfold Daemon.session at hsess
    split at hsess
    · next h1 => exact ⟨.inl h1, by simpa using hsess⟩
    · split at hsess
      · next h4 => exact ⟨.inr h4, by simpa using hsess⟩
      · simp at hsess
  cases hreply with
  | refused h => rw [Option.bind_some, h] at hr; cases hr; cases hs
  | failed h => rw [Option.bind_some, h] at hr; cases hr; cases hs
  | @issued id p h =>
    rw [Option.bind_some, h] at hr; cases hr; cases hs
    rw [(hopen (.inl hstep.of_issued.2)).2]
  | @chunk id p got h =>
    rw [Option.bind_some, h] at hr; cases hr; cases hs
    rw [(hopen (.inr hstep.of_chunk.2)).2]
  | @finished id p h =>
    rw [Option.bind_some, h] at hr; cases hr; cases hs
    obtain ⟨ho, he⟩ := hopen (.inr hstep.of_finished.1)
    rw [hid ho, he]
  | silent => cases hr

theorem iteration_carries (hinv : SessionInv g) {i : Input} {r : Reply} {sid : List UInt8}
    (hr : replyOf (iteration g i) = some r) (hs : r.sessionId? = some sid) :
    sid = (iteration g i).1.state.identity.sid :=
  handle_carries (hinv.setBuffer (nnRecv g.buffer i.recv)) hr hs

/-- **Session protocol safety.** In every run of the main loop `lastSent` is 1,
2, 4 or 5 and the replies, the refusals left out, are a prefix of a word of
`sessions`. While the session is open its id and its user name stay, and every
reply of it that carries a session id carries the same. -/
theorem session_protocol (sessionId : Vector UInt8 129) (userName : Vector UInt8 33)
    (outMessage buffer : Mem) (rand : Nat → Fin (RAND_MAX + 1)) (is : List Input) :
    let g0 := boot sessionId userName outMessage buffer rand
    (mainLoop.run g0 is).state.lastSent ∈ ([1, 2, 4, 5] : List UInt8) ∧
    (∃ w ∈ sessions, word g0 is <+: w) ∧
    (∀ pre i post, is = pre ++ i :: post → (mainLoop.run g0 pre).Open →
      (mainLoop.run g0 (pre ++ [i])).state.sessionId = (mainLoop.run g0 pre).state.sessionId ∧
      (mainLoop.run g0 (pre ++ [i])).state.userName = (mainLoop.run g0 pre).state.userName) ∧
    (∀ pre i mid j post, is = pre ++ i :: mid ++ j :: post →
      (∀ k ≤ mid.length, (mainLoop.run g0 (pre ++ i :: mid.take k)).Open) →
      ∀ r s rid sid, replyOf (iteration (mainLoop.run g0 pre) i) = some r →
        replyOf (iteration (mainLoop.run g0 (pre ++ i :: mid)) j) = some s →
        r.sessionId? = some rid → s.sessionId? = some sid → rid = sid) := by
  intro g0
  have h0 : Init g0 := ⟨_, _, _, _, _, rfl⟩
  have hreach : ∀ js, Reachable (mainLoop.run g0 js) := fun js => (Mealy.Reach.init h0).run js
  refine ⟨?_, ?_, ?_, ?_⟩
  · have hsent := (hreach is).sessionInv.sent
    simpa using hsent
  · have hidle : g0.session = .idle := session_idle (.inr rfl)
    obtain ⟨ms, hrun, hword⟩ := run_follows is h0.sessionInv (hidle ▸ Run.nil)
    rw [hword]
    exact hrun.word
  · intro pre i post _ ho
    have hid : (mainLoop.run g0 (pre ++ [i])).state.identity =
        (mainLoop.run g0 pre).state.identity := by
      rw [Mealy.run_snoc]
      exact handle_identity (g := { mainLoop.run g0 pre with
        buffer := nnRecv (mainLoop.run g0 pre).buffer i.recv }) ho
    exact ⟨congrArg Identity.sessionId hid, congrArg Identity.userName hid⟩
  · intro pre i mid j post _ ho r s rid sid hr hs hrid hsid
    have hi := iteration_carries (hreach pre).sessionInv hr hrid
    have hj := iteration_carries (hreach (pre ++ i :: mid)).sessionInv hs hsid
    have hsplit : ∀ l, mainLoop.run g0 (pre ++ i :: l) =
        mainLoop.run (iteration (mainLoop.run g0 pre) i).1 l := fun l => by
      rw [Mealy.run_append]; rfl
    -- the open session runs from the step that answered `r` to the one that answers `s`
    have hmid : (mainLoop.run g0 (pre ++ i :: mid)).state.identity =
        (iteration (mainLoop.run g0 pre) i).1.state.identity := by
      rw [hsplit]
      exact run_identity mid fun k hk => by rw [← hsplit]; exact ho k (Nat.le_of_lt hk)
    have hlast : (iteration (mainLoop.run g0 (pre ++ i :: mid)) j).1.state.identity =
        (mainLoop.run g0 (pre ++ i :: mid)).state.identity :=
      handle_identity (g := { mainLoop.run g0 (pre ++ i :: mid) with
        buffer := nnRecv (mainLoop.run g0 (pre ++ i :: mid)).buffer j.recv })
        (by have := ho mid.length (Nat.le_refl _); rwa [List.take_length] at this)
    rw [hi, hj, hlast, hmid]

end Getd
