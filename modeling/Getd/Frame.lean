import Getd.Session

/-!
# What a later reply depends on

`SameCore g h`: the two processes agree on `State`, on `sendFile` and its
streams, and on the draws to come. They may differ in `outMessage`, in the
receive buffer and in their past. `handle_core`: on the same message they give
the same reply fields and agree afterwards, so by `later_replies` they answer
every sequence of messages alike.
-/

namespace Getd

open CLib Protocol

variable {e : Env} {m : Mem} {g h : Daemon}

/-- Agreement on everything a reply field is computed from. -/
structure SameCore (g h : Daemon) : Prop where
  state : h.state = g.state
  sendFile : h.sendFile = g.sendFile
  streams : h.streams = g.streams
  rand : h.rand = g.rand
  drawn : h.drawn = g.drawn

theorem SameCore.refl (g : Daemon) : SameCore g g := ⟨rfl, rfl, rfl, rfl, rfl⟩

theorem SameCore.symm (hc : SameCore g h) : SameCore h g :=
  ⟨hc.state.symm, hc.sendFile.symm, hc.streams.symm, hc.rand.symm, hc.drawn.symm⟩

theorem SameCore.trans {k : Daemon} (h1 : SameCore g h) (h2 : SameCore h k) : SameCore g k :=
  ⟨h2.state.trans h1.state, h2.sendFile.trans h1.sendFile, h2.streams.trans h1.streams,
    h2.rand.trans h1.rand, h2.drawn.trans h1.drawn⟩

namespace SameCore

theorem setLastSent (hc : SameCore g h) (t : UInt8) :
    SameCore (g.setLastSent t) (h.setLastSent t) :=
  ⟨by simp only [Daemon.setLastSent, hc.state], hc.sendFile, hc.streams, hc.rand, hc.drawn⟩

theorem setLastRecieved (hc : SameCore g h) (t : UInt8) :
    SameCore (g.setLastRecieved t) (h.setLastRecieved t) :=
  ⟨by simp only [Daemon.setLastRecieved, hc.state], hc.sendFile, hc.streams, hc.rand, hc.drawn⟩

theorem log (hc : SameCore g h) (x y : Event) : SameCore (g.log x) (h.log y) :=
  ⟨hc.state, hc.sendFile, hc.streams, hc.rand, hc.drawn⟩

theorem fstat (hc : SameCore g h) : SameCore g.fstat h.fstat := hc.log _ _

theorem feof (hc : SameCore g h) : SameCore g.feof h.feof := hc.log _ _

theorem file (hc : SameCore g h) : h.file = g.file := by
  simp only [Daemon.file, hc.sendFile, hc.streams]

theorem got (hc : SameCore g h) (n : Nat) : h.got n = g.got n := by
  simp only [Daemon.got, hc.file]

theorem atEof (hc : SameCore g h) : h.atEof = g.atEof := by
  simp only [Daemon.atEof, hc.file]

theorem onFile (hc : SameCore g h) (f : OpenFile → OpenFile) : h.onFile f = g.onFile f := by
  simp only [Daemon.onFile, hc.sendFile, hc.streams]

theorem fopen (hc : SameCore g h) (path : List UInt8) :
    SameCore (g.fopen e path) (h.fopen e path) := by
  cases hf : e.fopen path with
  | none =>
    rw [fopen_none hf, fopen_none hf]
    exact ⟨hc.state, rfl, hc.streams, hc.rand, hc.drawn⟩
  | some f =>
    rw [fopen_some hf, fopen_some hf]
    exact ⟨hc.state, by simp only [hc.streams], by simp only [hc.streams], hc.rand, hc.drawn⟩

theorem fclose (hc : SameCore g h) : SameCore g.fclose h.fclose :=
  ⟨hc.state, hc.sendFile, hc.onFile _, hc.rand, hc.drawn⟩

theorem fread (hc : SameCore g h) (k n : Nat) : SameCore (g.fread k n) (h.fread k n) :=
  ⟨hc.state, hc.sendFile, hc.onFile _, hc.rand, hc.drawn⟩

theorem getc (hc : SameCore g h) : SameCore g.getc h.getc :=
  ⟨hc.state, hc.sendFile, hc.onFile _, hc.rand, hc.drawn⟩

theorem readBlock (hc : SameCore g h) : SameCore g.readBlock h.readBlock := by
  unfold Daemon.readBlock
  rw [hc.got]
  split
  · exact (hc.fread _ _).getc
  · exact hc.fread _ _

theorem newSession (hc : SameCore g h) (m : Mem) :
    SameCore (newSession m g) (newSession m h) := by
  rw [newSession_eq, newSession_eq, hc.state, hc.rand, hc.drawn]
  exact ⟨rfl, hc.sendFile, hc.streams, rfl, rfl⟩

theorem terminated (hc : SameCore g h) (ht : g.state.Terminated) : h.state.Terminated := by
  rw [hc.state]; exact ht

end SameCore

/-! ## The same reply -/

def SameAnswer (r s : Daemon × Option Packet) : Prop := SameCore r.1 s.1 ∧ replyOf s = replyOf r

theorem sameAnswer_error (hc : SameCore g h) {text : List UInt8} (ht : text.length < 2 ^ 32) :
    SameAnswer (sendError g text) (sendError h text) := by
  refine ⟨?_, (replyOf_error h ht).trans (replyOf_error g ht).symm⟩
  rw [sendError_eq, sendError_eq]
  exact ⟨hc.state, hc.sendFile, hc.streams, hc.rand, hc.drawn⟩

theorem sameAnswer_type1 (hc : SameCore g h) (ht : g.state.Terminated) :
    SameAnswer (nnSend (messageType1Builder e g)) (nnSend (messageType1Builder e h)) := by
  refine ⟨?_, ?_⟩
  · rw [nnSend_type1 ht, nnSend_type1 (hc.terminated ht)]
    exact ⟨by simp only [hc.state], hc.sendFile, hc.streams, hc.rand, hc.drawn⟩
  · rw [replyOf_type1 ht, replyOf_type1 (hc.terminated ht), hc.state]

theorem sameAnswer_type4 (hc : SameCore g h) (ht : g.state.Terminated) :
    SameAnswer (nnSend (messegeType4Builder e g)) (nnSend (messegeType4Builder e h)) := by
  refine ⟨?_, ?_⟩
  · have hb := hc.readBlock
    rw [nnSend_type4 ht, nnSend_type4 (hc.terminated ht)]
    exact ⟨by simp only [hc.state], hb.sendFile, hb.streams, hb.rand, hb.drawn⟩
  · rw [replyOf_type4 ht, replyOf_type4 (hc.terminated ht), hc.state, hc.got]

theorem sameAnswer_type5 (hc : SameCore g h) (ht : g.state.Terminated) :
    SameAnswer (nnSend (messegeType5Builder e g)) (nnSend (messegeType5Builder e h)) := by
  refine ⟨?_, ?_⟩
  · have hb := hc.fclose
    rw [nnSend_type5 ht, nnSend_type5 (hc.terminated ht)]
    exact ⟨by simp only [hc.state], hb.sendFile, hb.streams, hb.rand, hb.drawn⟩
  · rw [replyOf_type5 ht, replyOf_type5 (hc.terminated ht), hc.state]

theorem SameCore.sessionId (hc : SameCore g h) : h.sessionId e = g.sessionId e := by
  unfold Daemon.sessionId; rw [hc.state]

theorem SameCore.auth3 (hc : SameCore g h) (ha : Auth3 e m g) : Auth3 e m h :=
  ⟨ha.type, ha.ver, by rw [hc.sessionId]; exact ha.sid⟩

theorem SameCore.auth6 (hc : SameCore g h) (ha : Auth6 e m g) : Auth6 e m h :=
  ⟨ha.type, by rw [hc.sessionId]; exact ha.sid, by
    rw [(hc.setLastRecieved 6).sessionId]; exact ha.ver⟩

/-- **One message**, answered alike. -/
theorem handle_core (hinv : SessionInv g) (hc : SameCore g h) :
    SameAnswer (handle e m g) (handle e m h) := by
  have hs := hc.state
  have hexit := handle_exit e m g
  generalize handle e m g = r at hexit ⊢
  cases hexit with
  | busy0 ht hl =>
    rw [(Exit.busy0 ht (by rw [hs]; exact hl)).handle_eq]
    exact sameAnswer_error hc (by decide)
  | corrupt0 ht hl hv =>
    rw [(Exit.corrupt0 ht (by rw [hs]; exact hl) hv).handle_eq]
    exact sameAnswer_error (hc.setLastSent 2) (by decide)
  | accept0 ht hl hv =>
    rw [(Exit.accept0 ht (by rw [hs]; exact hl) hv).handle_eq]
    exact sameAnswer_type1 (hc.newSession m) (newSession_terminated m g)
  | corrupt3 ht hv =>
    rw [(Exit.corrupt3 ht hv).handle_eq]
    exact sameAnswer_error (hc.setLastSent 2) (by decide)
  | stranger3 ht hv hn =>
    rw [(Exit.stranger3 ht hv (by rw [hc.sessionId]; exact hn)).handle_eq]
    exact sameAnswer_error (hc.setLastSent 2) (by decide)
  | invalid3 ha hl =>
    rw [(Exit.invalid3 (hc.auth3 ha) (by rw [hs]; exact hl)).handle_eq]
    exact sameAnswer_error (hc.setLastSent 2) (by decide)
  | noFile3 ha hl hf =>
    rw [(Exit.noFile3 (hc.auth3 ha) (by rw [hs]; exact hl) hf).handle_eq]
    exact sameAnswer_error ((hc.fopen _).setLastSent 2) (by decide)
  | irregular3 ha hl f hf hr =>
    rw [(Exit.irregular3 (hc.auth3 ha) (by rw [hs]; exact hl) f hf hr).handle_eq]
    exact sameAnswer_error ((hc.fopen _).fstat.setLastSent 2) (by decide)
  | start3 ha hl f hf hr =>
    rw [(Exit.start3 (hc.auth3 ha) (by rw [hs]; exact hl) f hf hr).handle_eq]
    exact sameAnswer_type4 (hc.fopen _).fstat (hinv.starting hl _)
  | stranger6 ht hn =>
    rw [(Exit.stranger6 ht (by rw [hc.sessionId]; exact hn)).handle_eq]
    exact sameAnswer_error hc (by decide)
  | corrupt6 ht hn hv =>
    rw [(Exit.corrupt6 ht (by rw [hc.sessionId]; exact hn)
      (by rw [(hc.setLastRecieved 6).sessionId]; exact hv)).handle_eq]
    exact sameAnswer_error ((hc.setLastRecieved 6).setLastSent 2) (by decide)
  | finish6 ha hl hf =>
    rw [(Exit.finish6 (hc.auth6 ha) (by rw [hs]; exact hl) (by rw [hc.atEof]; exact hf)).handle_eq]
    exact sameAnswer_type5 (hc.setLastRecieved 6).feof (hinv.sending hl)
  | more6 ha hl hf =>
    rw [(Exit.more6 (hc.auth6 ha) (by rw [hs]; exact hl) (by rw [hc.atEof]; exact hf)).handle_eq]
    exact sameAnswer_type4 (hc.setLastRecieved 6).feof (hinv.sending hl)
  | invalid6 ha hl =>
    rw [(Exit.invalid6 (hc.auth6 ha) (by rw [hs]; exact hl)).handle_eq]
    exact sameAnswer_error ((hc.setLastRecieved 6).setLastSent 2) (by decide)
  | silent6 ha hl =>
    rw [(Exit.silent6 (hc.auth6 ha) (by rw [hs]; exact hl)).handle_eq]
    exact ⟨hc.setLastRecieved 6, rfl⟩
  | other ht =>
    rw [(Exit.other ht).handle_eq]
    exact sameAnswer_error hc (Nat.lt_of_le_of_lt (invalidType_length_le _) (by decide))

/-! ## Sequences of messages -/

/-- The handlers as a machine on messages, answering with reply fields. -/
def handlers : Mealy Daemon (Env × Mem) (Option Reply) :=
  ⟨fun g i => ((handle i.1 i.2 g).1, replyOf (handle i.1 i.2 g))⟩

theorem handlers_outs_cons (x : Env × Mem) (ms : List (Env × Mem)) : handlers.outs g (x :: ms) =
    replyOf (handle x.1 x.2 g) :: handlers.outs (handle x.1 x.2 g).1 ms := rfl

/-- **Every later reply is the same.** -/
theorem later_replies (hinv : SessionInv g) (hc : SameCore g h) (is : List (Env × Mem)) :
    handlers.outs h is = handlers.outs g is := by
  have hrel := Mealy.outs_related (M := handlers)
    (R := fun g h => SessionInv g ∧ SameCore g h) (Q := fun p q => q = p)
    (fun g h i ⟨hi, hc⟩ => by
      obtain ⟨hc', hq⟩ := handle_core (e := i.1) (m := i.2) hi hc
      exact ⟨⟨(handle_follows hi).inv, hc'⟩, hq⟩)
    ⟨hinv, hc⟩ is
  exact (List.forall₂_eq_eq_eq ▸ hrel.2.imp fun _ _ hq => hq.symm : handlers.outs g is = _).symm

end Getd
