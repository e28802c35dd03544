import Getd.Streams

/-!
# How many files are open

`openCount` is the number of streams opened and not yet closed. It is 1 during
a transfer and 0 otherwise as long as no message breaks a transfer off and none
leaves a file open that is not regular (`none_lost_iff`): the only `fclose` is
that of the type 5 builder.
-/

namespace Getd

open CLib Protocol

variable {e : Env} {m : Mem} {g : Daemon}

/-- The streams opened and not yet closed. -/
def openCount (g : Daemon) : Nat := g.streams.countP fun f => !f.closed

/-- The stream of the transfer is open, and no other. -/
def NoneLost (g : Daemon) : Prop := openCount g = if g.state.lastSent = 4 then 1 else 0

/-- During a transfer the message is no type 3 and no acknowledgement that
fails `type6Ver`, and a file that is asked for is regular. -/
structure Keeps (e : Env) (m : Mem) (g : Daemon) : Prop where
  request : g.state.lastSent = 4 → Header.messageType m ≠ 3
  acknowledgement : g.state.lastSent = 4 → Header.messageType m = 6 →
    strcmp (MessageType6.sessionId m) (g.sessionId e) = 0 →
    type6Ver m ((g.setLastRecieved 6).sessionId e) = 0
  regular : g.state.lastSent = 1 → Auth3 e m g → ∀ f, e.fopen (pathOf m) = some f → f.isReg = true

/-! ## Counting -/

/-- A change of one entry counts for what it does to that entry. -/
theorem countP_modify {α : Type} {p : α → Bool} {l : List α} {i : Nat} {a : α}
    (h : l[i]? = some a) (φ : α → α) :
    (l.modify i φ).countP p + (if p a then 1 else 0) =
      l.countP p + (if p (φ a) then 1 else 0) := by
  obtain ⟨hi, ha⟩ := List.getElem?_eq_some_iff.mp h
  obtain ⟨l₁, b, l₂, rfl, rfl, hm⟩ := List.exists_of_modify φ hi
  rw [List.getElem_append_right (Nat.le_refl _)] at ha
  simp only [Nat.sub_self, List.getElem_cons_zero] at ha
  subst ha
  rw [hm, List.countP_append, List.countP_append, List.countP_cons, List.countP_cons]
  omega

theorem openCount_congr {g' : Daemon} (hs : g'.streams = g.streams) :
    openCount g' = openCount g := by
  unfold openCount
  rw [hs]

theorem openCount_onFile {φ : OpenFile → OpenFile} (hφ : ∀ f, (φ f).closed = f.closed) :
    (g.onFile φ).countP (fun f => !f.closed) = openCount g := by
  unfold Daemon.onFile openCount
  cases g.sendFile with
  | none => rfl
  | some h =>
    dsimp only
    cases hf : g.streams[h]? with
    | none => rw [List.modify_eq_self (List.getElem?_eq_none_iff.mp hf)]
    | some f =>
      have hcount := countP_modify (p := fun f => !f.closed) hf φ
      rw [hφ f] at hcount
      exact Nat.add_right_cancel hcount

theorem openCount_readBlock : openCount g.readBlock = openCount g := by
  have hread : openCount (g.fread 145 4096) = openCount g := openCount_onFile fun _ => rfl
  have hgetc : openCount (g.fread 145 4096).getc = openCount (g.fread 145 4096) :=
    openCount_onFile (φ := fun f => { f with stream := f.stream.getc }) fun _ => rfl
  unfold Daemon.readBlock
  split
  · exact hgetc.trans hread
  · exact hread

theorem openCount_fclose {h : Nat} {f : OpenFile} (hs : g.sendFile = some h)
    (hf : g.streams[h]? = some f) (hc : f.closed = false) :
    openCount g.fclose + 1 = openCount g := by
  have hcount := countP_modify (p := fun f => !f.closed) hf fun f => { f with closed := true }
  rw [hc] at hcount
  have hstreams : g.fclose.streams = g.streams.modify h fun f => { f with closed := true } := by
    show g.onFile _ = _
    unfold Daemon.onFile
    rw [hs]
  unfold openCount
  rw [hstreams]
  exact hcount

theorem openCount_fopen {path : List UInt8} {f : File} (hf : e.fopen path = some f) :
    openCount (g.fopen e path) = openCount g + 1 := by
  unfold openCount
  rw [fopen_some hf, List.countP_append]
  rfl

/-! ## The stream of a transfer -/

structure SendInv (g : Daemon) : Prop where
  session : SessionInv g
  stream : g.state.lastSent = 4 →
    ∃ h f, g.sendFile = some h ∧ g.streams[h]? = some f ∧ f.closed = false

theorem SendInv.setBuffer (hi : SendInv g) (b : Mem) : SendInv { g with buffer := b } :=
  ⟨hi.session.setBuffer b, hi.stream⟩

theorem SendInv.congr {g' : Daemon} (hi : SendInv g) (hstate : g'.state = g.state)
    (hs : g'.streams = g.streams) (hf : g'.sendFile = g.sendFile) : SendInv g' := by
  refine ⟨hi.session.congr hstate, fun hl => ?_⟩
  rw [hs, hf]
  exact hi.stream (hstate ▸ hl)

theorem SendInv.of_lastSent (hs : SessionInv g) (hl : g.state.lastSent ≠ 4) : SendInv g :=
  ⟨hs, fun h => absurd h hl⟩

theorem sendInv_type4 {h : Nat} {f : OpenFile} (ht : g.state.Terminated) (hs : g.sendFile = some h)
    (hf : g.streams[h]? = some f) (hc : f.closed = false) :
    SendInv (nnSend (messegeType4Builder e g)).1 ∧
      openCount (nnSend (messegeType4Builder e g)).1 = openCount g ∧
      (nnSend (messegeType4Builder e g)).1.state.lastSent = 4 := by
  rw [nnSend_type4 ht]
  refine ⟨⟨.of_terminated (.inr rfl) ht, fun _ => ⟨h, _, ?_, readBlock_stream hs hf, hc⟩⟩,
    openCount_readBlock, rfl⟩
  exact (readBlock_sendFile _).trans hs

/-! ## One message -/

/-- What a step does to the count: the invariant is kept, and a stream is lost
exactly when the message is not as it should be. -/
structure Counts (e : Env) (m : Mem) (g g' : Daemon) : Prop where
  inv : SendInv g'
  lost : NoneLost g → (NoneLost g' ↔ Keeps e m g)

theorem noneLost_of_ne (hl : g.state.lastSent ≠ 4) : NoneLost g ↔ openCount g = 0 := by
  unfold NoneLost
  rw [if_neg hl]

theorem noneLost_of_eq (hl : g.state.lastSent = 4) : NoneLost g ↔ openCount g = 1 := by
  unfold NoneLost
  rw [if_pos hl]

theorem Keeps.of_type (h3 : Header.messageType m ≠ 3) (h6 : Header.messageType m ≠ 6) :
    Keeps e m g :=
  ⟨fun _ => h3, fun _ h => absurd h h6, fun _ ha => absurd ha.type h3⟩

theorem counts_idle {g' : Daemon} (hs : SessionInv g') (hl : g.state.lastSent ≠ 4)
    (hl' : g'.state.lastSent ≠ 4) (hk : Keeps e m g) (hc : openCount g' = openCount g) :
    Counts e m g g' := by
  refine ⟨.of_lastSent hs hl', fun hn => iff_of_true ?_ hk⟩
  rw [noneLost_of_ne hl', hc]
  exact (noneLost_of_ne hl).mp hn

theorem counts_refused {text : List UInt8} (hi : SendInv g) (hk : Keeps e m g) :
    Counts e m g (sendError g text).1 := by
  have hstate : (sendError g text).1.state = g.state := sendError_state g text
  have hs : (sendError g text).1.streams = g.streams := by rw [sendError_eq]
  refine ⟨hi.congr hstate hs (by rw [sendError_eq]), fun hn => iff_of_true ?_ hk⟩
  unfold NoneLost at hn ⊢
  rw [hstate, openCount_congr hs]
  exact hn

/-- An error that ends the session, and with it a transfer, but closes no file. -/
theorem counts_failed {g1 : Daemon} {text : List UInt8} (h2 : g1.state.lastSent = 2)
    (hs : g1.streams = g.streams) (hk : Keeps e m g ↔ g.state.lastSent ≠ 4) :
    Counts e m g (sendError g1 text).1 := by
  have hl : (sendError g1 text).1.state.lastSent = 2 := by rw [sendError_state, h2]
  have hl4 : (sendError g1 text).1.state.lastSent ≠ 4 := by rw [hl]; decide
  have hc : openCount (sendError g1 text).1 = openCount g :=
    openCount_congr (by rw [sendError_eq]; exact hs)
  refine ⟨.of_lastSent (.of_idle (.inl hl)) hl4, fun hn => ?_⟩
  rw [noneLost_of_ne hl4, hc, hk]
  by_cases h4 : g.state.lastSent = 4
  · rw [(noneLost_of_eq h4).mp hn]
    exact iff_of_false Nat.one_ne_zero (not_not.mpr h4)
  · exact iff_of_true ((noneLost_of_ne h4).mp hn) h4

/-- A type 3 message that starts nothing. -/
theorem keeps_iff_of_type3 (h3 : Header.messageType m = 3)
    (hf : g.state.lastSent = 1 → Auth3 e m g → ∀ f, e.fopen (pathOf m) = some f → f.isReg = true) :
    Keeps e m g ↔ g.state.lastSent ≠ 4 := by
  refine ⟨fun hk h4 => hk.request h4 h3, fun h4 => ⟨fun h => absurd h h4, fun h => absurd h h4, hf⟩⟩

/-- An irregular file stays open. -/
theorem not_noneLost_irregular {f : File} {text : List UInt8} (hf : e.fopen (pathOf m) = some f) :
    ¬ NoneLost (sendError ((g.fopen e (pathOf m)).fstat.setLastSent 2) text).1 := by
  have hl : (sendError ((g.fopen e (pathOf m)).fstat.setLastSent 2) text).1.state.lastSent ≠ 4 := by
    rw [sendError_state]
    exact (by decide : (2 : UInt8) ≠ 4)
  have hc : openCount (sendError ((g.fopen e (pathOf m)).fstat.setLastSent 2) text).1 =
      openCount g + 1 := by
    rw [sendError_eq]
    exact openCount_fopen hf
  rw [noneLost_of_ne hl, hc]
  exact Nat.succ_ne_zero _

theorem counts_irregular {f : File} {text : List UInt8} (ha : Auth3 e m g)
    (hl : g.state.lastSent = 1) (hf : e.fopen (pathOf m) = some f) (hr : f.isReg = false) :
    Counts e m g (sendError ((g.fopen e (pathOf m)).fstat.setLastSent 2) text).1 := by
  have h2 : (sendError ((g.fopen e (pathOf m)).fstat.setLastSent 2) text).1.state.lastSent = 2 := by
    rw [sendError_state]
    rfl
  refine ⟨.of_lastSent (.of_idle (.inl h2)) (by rw [h2]; decide),
    fun _ => iff_of_false (not_noneLost_irregular hf) fun hk => ?_⟩
  rw [hk.regular hl ha f hf] at hr
  cases hr

theorem counts_start {f : File} (hi : SendInv g) (hl : g.state.lastSent = 1)
    (hf : e.fopen (pathOf m) = some f) (hr : f.isReg = true) :
    Counts e m g (nnSend (messegeType4Builder e (g.fopen e (pathOf m)).fstat)).1 := by
  have hl4 : g.state.lastSent ≠ 4 := by rw [hl]; decide
  have ht := hi.session.starting (e := e) hl (pathOf m)
  obtain ⟨hinv, hc, hl'⟩ :=
    sendInv_type4 (e := e) ht (fopen_sendFile hf) (fopen_stream hf) rfl
  refine ⟨hinv, fun hn => iff_of_true ?_ ⟨fun h => absurd h hl4, fun h => absurd h hl4, ?_⟩⟩
  · rw [noneLost_of_eq hl', hc]
    exact (openCount_fopen hf).trans (congrArg (· + 1) ((noneLost_of_ne hl4).mp hn))
  · intro _ _ f' hf'
    rw [← Option.some.inj (hf.symm.trans hf')]
    exact hr

theorem Keeps.of_auth6 (ha : Auth6 e m g) : Keeps e m g := by
  have h3 : Header.messageType m ≠ 3 := by rw [ha.type]; decide
  exact ⟨fun _ => h3, fun _ _ _ => ha.ver, fun _ ha' => absurd ha'.type h3⟩

theorem counts_more (hi : SendInv g) (ha : Auth6 e m g) (hl : g.state.lastSent = 4) :
    Counts e m g (nnSend (messegeType4Builder e (g.setLastRecieved 6).feof)).1 := by
  obtain ⟨h, f, hs, hf, hc⟩ := hi.stream hl
  have ht := hi.session.sending hl
  obtain ⟨hinv, hcount, hl'⟩ := sendInv_type4 (e := e) ht hs hf hc
  refine ⟨hinv, fun hn => iff_of_true ?_ (.of_auth6 ha)⟩
  rw [noneLost_of_eq hl', hcount]
  exact (noneLost_of_eq hl).mp hn

theorem counts_finish (hi : SendInv g) (ha : Auth6 e m g) (hl : g.state.lastSent = 4) :
    Counts e m g (nnSend (messegeType5Builder e (g.setLastRecieved 6).feof)).1 := by
  obtain ⟨h, f, hs, hf, hc⟩ := hi.stream hl
  have ht := hi.session.sending hl
  have hclose : openCount (g.setLastRecieved 6).feof.fclose + 1 = openCount g :=
    openCount_fclose (g := (g.setLastRecieved 6).feof) hs hf hc
  have h54 : (5 : UInt8) ≠ 4 := by decide
  rw [nnSend_type5 ht]
  refine ⟨.of_lastSent (.of_idle (.inr rfl)) h54, fun hn => iff_of_true ?_ (.of_auth6 ha)⟩
  rw [noneLost_of_ne h54]
  rw [(noneLost_of_eq hl).mp hn] at hclose
  exact Nat.succ.inj hclose

/-- **One message.** -/
theorem handle_counts (hi : SendInv g) : Counts e m g (handle e m g).1 := by
  have hexit := handle_exit e m g
  have hne : ∀ {t u : UInt8}, Header.messageType m = t → t ≠ u → Header.messageType m ≠ u :=
    fun ht hn h => hn (ht.symm.trans h)
  generalize handle e m g = r at hexit ⊢
  cases hexit with
  | busy0 ht => exact counts_refused hi (.of_type (hne ht (by decide)) (hne ht (by decide)))
  | corrupt0 ht hl hv =>
    refine counts_failed rfl rfl (iff_of_true (.of_type (hne ht (by decide)) (hne ht (by decide))) ?_)
    rcases hl with hl | hl <;> rw [hl] <;> decide
  | accept0 ht hl hv =>
    have hl4 : g.state.lastSent ≠ 4 := by rcases hl with hl | hl <;> rw [hl] <;> decide
    have hterm := newSession_terminated m g
    have h14 : (1 : UInt8) ≠ 4 := by decide
    rw [nnSend_type1 hterm]
    refine counts_idle (.of_terminated (.inl rfl) hterm) hl4 h14
      (.of_type (hne ht (by decide)) (hne ht (by decide))) (openCount_congr ?_)
    rw [newSession_eq]
  | corrupt3 ht hv =>
    exact counts_failed rfl rfl (keeps_iff_of_type3 ht fun _ ha => absurd ha.ver hv)
  | stranger3 ht hv hs =>
    exact counts_failed rfl rfl (keeps_iff_of_type3 ht fun _ ha => absurd ha.sid hs)
  | invalid3 ha hl =>
    exact counts_failed rfl rfl (keeps_iff_of_type3 ha.type fun h => absurd h hl)
  | noFile3 ha hl hf =>
    refine counts_failed rfl ?_ (keeps_iff_of_type3 ha.type fun _ _ f h => ?_)
    · rw [fopen_none hf]
      rfl
    · rw [hf] at h
      cases h
  | irregular3 ha hl f hf hr => exact counts_irregular ha hl hf hr
  | start3 ha hl f hf hr => exact counts_start hi hl hf hr
  | stranger6 ht hs =>
    exact counts_refused hi ⟨fun _ => hne ht (by decide), fun _ _ h => absurd h hs,
      fun _ ha => absurd ha.type (hne ht (by decide))⟩
  | corrupt6 ht hs hv =>
    refine counts_failed rfl rfl ⟨fun hk h4 => hv (hk.acknowledgement h4 ht hs), fun h4 => ?_⟩
    exact ⟨fun h => absurd h h4, fun h => absurd h h4,
      fun _ ha => absurd ha.type (hne ht (by decide))⟩
  | finish6 ha hl => exact counts_finish hi ha hl
  | more6 ha hl => exact counts_more hi ha hl
  | invalid6 ha hl => exact counts_failed rfl rfl (iff_of_true (.of_auth6 ha) hl.1)
  | silent6 ha hl =>
    have hl4 : g.state.lastSent ≠ 4 := by rw [hl]; decide
    exact counts_idle (.of_idle (.inr hl)) hl4 hl4 (.of_auth6 ha) rfl
  | other ht => exact counts_refused hi (.of_type ht.2.1 ht.2.2)

/-! ## The run -/

def KeepsRound (g : Daemon) (i : Input) : Prop :=
  Keeps i.env (view (nnRecv g.buffer i.recv) i.past) g

theorem keeps_setBuffer (b : Mem) : Keeps e m { g with buffer := b } ↔ Keeps e m g :=
  ⟨fun h => ⟨h.request, h.acknowledgement, fun hl ha => h.regular hl ((auth3_setBuffer b).mpr ha)⟩,
    fun h => ⟨h.request, h.acknowledgement, fun hl ha => h.regular hl ((auth3_setBuffer b).mp ha)⟩⟩

theorem Init.sendInv (hg : Init g) : SendInv g := by
  refine .of_lastSent hg.sessionInv ?_
  obtain ⟨sid, user, out, buf, rand, rfl⟩ := hg
  exact (by decide : (5 : UInt8) ≠ 4)

theorem Init.noneLost (hg : Init g) : NoneLost g := by
  obtain ⟨sid, user, out, buf, rand, rfl⟩ := hg
  rfl

/-- **No stream is lost** in a run exactly when every message of it keeps the count. -/
theorem none_lost_iff (hg : Init g) (is : List Input) :
    (∀ pre, pre <+: is → NoneLost (mainLoop.run g pre)) ↔
      AtEach (fun pre i => KeepsRound (mainLoop.run g pre) i) is := by
  have hround : ∀ (g : Daemon) i, SendInv g →
      Counts i.env (view (nnRecv g.buffer i.recv) i.past)
        { g with buffer := nnRecv g.buffer i.recv } (iteration g i).1 := fun g i hi =>
    handle_counts (hi.setBuffer _)
  refine Mealy.always_iff (M := mainLoop) (I := SendInv) (Q := KeepsRound)
    (fun g i _ hi hn => ?_) (fun g i _ hi => (hround g i hi).inv) hg.sendInv hg.noneLost
  exact ((hround g i hi).lost hn).trans (keeps_setBuffer _)

def aliceFinds (g : Daemon) (file : File) : List Input :=
  [greeting, ask (iteration g greeting).1 (chars "/tmp") (envOf (some file))]

theorem aliceFinds_keeps (hg : Init g) {file : File} (hr : file.isReg = true) :
    AtEach (fun pre i => KeepsRound (mainLoop.run g pre) i) (aliceFinds g file) := by
  have h5 := hg.lastSent
  have h1 : (iteration g greeting).1.state.lastSent = 1 := hg.greeted.2.1
  unfold aliceFinds
  rw [AtEach.cons_iff, AtEach.cons_iff, run_cons, run_nil, run_nil]
  generalize (iteration g greeting).1 = opened at h1 ⊢
  refine ⟨⟨fun h4 => ?_, fun h4 => ?_, fun h => ?_⟩, ⟨fun h4 => ?_, fun h4 => ?_, ?_⟩, .nil⟩
  · exact absurd (h5.symm.trans h4) (by decide)
  · exact absurd (h5.symm.trans h4) (by decide)
  · exact absurd (h5.symm.trans h) (by decide)
  · exact absurd (h1.symm.trans h4) (by decide)
  · exact absurd (h1.symm.trans h4) (by decide)
  · intro _ _ f hf
    cases hf
    exact hr

theorem none_lost_alice : Init zeroBoot ∧
    ∀ pre, pre <+: aliceFinds zeroBoot ⟨true, chars "hi", []⟩ →
      NoneLost (mainLoop.run zeroBoot pre) :=
  ⟨zeroBoot_init, (none_lost_iff zeroBoot_init _).mpr (aliceFinds_keeps zeroBoot_init rfl)⟩

theorem iteration_irregular {i : Input} {f : File} (ha : Auth3 i.env (i.message g) g)
    (hl : g.state.lastSent = 1) (hf : i.env.fopen (pathOf (i.message g)) = some f)
    (hr : f.isReg = false) : ¬ NoneLost (iteration g i).1 := by
  have hexit := Exit.irregular3 ((auth3_setBuffer (nnRecv g.buffer i.recv)).mpr ha) hl f hf hr
  have hstep : iteration g i = _ := hexit.handle_eq
  rw [hstep]
  exact not_noneLost_irregular hf

theorem aliceFinds_loses (hg : Init g) {file : File} (hr : file.isReg = false) :
    ¬ NoneLost (mainLoop.run g (aliceFinds g file)) := by
  obtain ⟨hinv, hl, -⟩ := hg.greeted
  unfold aliceFinds
  rw [run_cons, run_cons, run_nil]
  generalize (iteration g greeting).1 = opened at hinv hl ⊢
  have ht := hinv.session.terminated (.inl hl)
  exact iteration_irregular (ask_auth3 ht (by decide) (by decide)) hl rfl hr

/-- A directory that `alice` asks for stays open when her session has failed. -/
theorem none_lost_irregular : Init zeroBoot ∧
    ¬ ∀ pre, pre <+: aliceFinds zeroBoot ⟨false, [], []⟩ → NoneLost (mainLoop.run zeroBoot pre) :=
  ⟨zeroBoot_init, fun h => aliceFinds_loses zeroBoot_init rfl (h _ ⟨[], List.append_nil _⟩)⟩

end Getd
