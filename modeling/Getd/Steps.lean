import Getd.Builders

/-!
# The exits of the handlers

`Exit e m g r` lists the ways one handled message can end, each with the tests
that lead there and the result. `handle_exit` and `Exit.handle_eq` say that
these are exactly what `handle` does. Every invariant is a case analysis over
`Exit`; no later proof unfolds a handler.
-/

namespace Getd

open CLib

def sendError (g : Daemon) (errorMsg : List UInt8) : Daemon × Option Packet :=
  nnSend (messageType2Builder g errorMsg)

/-- A type 3 message that passes `type3Ver` and the session comparison. -/
structure Auth3 (e : Env) (m : Mem) (g : Daemon) : Prop where
  type : Header.messageType m = 3
  ver : type3Ver m = 0
  sid : strncmp (MessageType3.sessionId m) (g.sessionId e) 128 = 0

/-- A type 6 message that passes the session comparison and `type6Ver`. -/
structure Auth6 (e : Env) (m : Mem) (g : Daemon) : Prop where
  type : Header.messageType m = 6
  sid : strcmp (MessageType6.sessionId m) (g.sessionId e) = 0
  ver : type6Ver m ((g.setLastRecieved 6).sessionId e) = 0

inductive Exit (e : Env) (m : Mem) (g : Daemon) : Daemon × Option Packet → Prop where
  | busy0 (ht : Header.messageType m = 0) (hl : g.state.lastSent ≠ 5 ∧ g.state.lastSent ≠ 2) :
      Exit e m g (sendError g (chars "1 session at a time"))
  | corrupt0 (ht : Header.messageType m = 0) (hl : g.state.lastSent = 5 ∨ g.state.lastSent = 2)
      (hv : type0Ver m ≠ 0) :
      Exit e m g (sendError (g.setLastSent 2) (chars "Corrupt Type 0 Message"))
  | accept0 (ht : Header.messageType m = 0) (hl : g.state.lastSent = 5 ∨ g.state.lastSent = 2)
      (hv : type0Ver m = 0) :
      Exit e m g (nnSend (messageType1Builder e (newSession m g)))
  | corrupt3 (ht : Header.messageType m = 3) (hv : type3Ver m ≠ 0) :
      Exit e m g (sendError (g.setLastSent 2) (chars "Corrupt Type 3 Message"))
  | stranger3 (ht : Header.messageType m = 3) (hv : type3Ver m = 0)
      (hs : strncmp (MessageType3.sessionId m) (g.sessionId e) 128 ≠ 0) :
      Exit e m g (sendError (g.setLastSent 2) (chars "One session at a time"))
  | invalid3 (ha : Auth3 e m g) (hl : g.state.lastSent ≠ 1) :
      Exit e m g (sendError (g.setLastSent 2) (chars "Invalid State"))
  | noFile3 (ha : Auth3 e m g) (hl : g.state.lastSent = 1) (hf : e.fopen (pathOf m) = none) :
      Exit e m g (sendError ((g.fopen e (pathOf m)).setLastSent 2) (chars "Error Opening File"))
  | irregular3 (ha : Auth3 e m g) (hl : g.state.lastSent = 1) (f : File)
      (hf : e.fopen (pathOf m) = some f) (hr : f.isReg = false) :
      Exit e m g (sendError ((g.fopen e (pathOf m)).fstat.setLastSent 2)
        (chars "Invalid File Type"))
  | start3 (ha : Auth3 e m g) (hl : g.state.lastSent = 1) (f : File)
      (hf : e.fopen (pathOf m) = some f) (hr : f.isReg = true) :
      Exit e m g (nnSend (messegeType4Builder e (g.fopen e (pathOf m)).fstat))
  | stranger6 (ht : Header.messageType m = 6)
      (hs : strcmp (MessageType6.sessionId m) (g.sessionId e) ≠ 0) :
      Exit e m g (sendError g (chars "One session at a time"))
  | corrupt6 (ht : Header.messageType m = 6)
      (hs : strcmp (MessageType6.sessionId m) (g.sessionId e) = 0)
      (hv : type6Ver m ((g.setLastRecieved 6).sessionId e) ≠ 0) :
      Exit e m g (sendError ((g.setLastRecieved 6).setLastSent 2)
        (chars "Corrupt Type 6 Messege"))
  | finish6 (ha : Auth6 e m g) (hl : g.state.lastSent = 4) (hf : g.atEof = true) :
      Exit e m g (nnSend (messegeType5Builder e (g.setLastRecieved 6).feof))
  | more6 (ha : Auth6 e m g) (hl : g.state.lastSent = 4) (hf : g.atEof = false) :
      Exit e m g (nnSend (messegeType4Builder e (g.setLastRecieved 6).feof))
  | invalid6 (ha : Auth6 e m g) (hl : g.state.lastSent ≠ 4 ∧ g.state.lastSent ≠ 5) :
      Exit e m g (sendError ((g.setLastRecieved 6).setLastSent 2) (chars "Invalid State"))
  | silent6 (ha : Auth6 e m g) (hl : g.state.lastSent = 5) :
      Exit e m g (g.setLastRecieved 6, none)
  | other (ht : Header.messageType m ≠ 0 ∧ Header.messageType m ≠ 3 ∧ Header.messageType m ≠ 6) :
      Exit e m g (sendError g (invalidType (Header.messageType m)))

variable {e : Env} {m : Mem} {g : Daemon}

/-! ## What opening a file gives -/

theorem fopen_state (path : List UInt8) : (g.fopen e path).state = g.state := by
  unfold Daemon.fopen
  split <;> rfl

theorem fopen_outMessage (path : List UInt8) : (g.fopen e path).outMessage = g.outMessage := by
  unfold Daemon.fopen
  split <;> rfl

theorem fopen_none {path : List UInt8} (h : e.fopen path = none) :
    g.fopen e path = { g with sendFile := none, trace := g.trace ++ [.fopen path none] } := by
  simp only [Daemon.fopen, h]

theorem fopen_some {path : List UInt8} {f : File} (h : e.fopen path = some f) :
    g.fopen e path = { g with
      sendFile := some g.streams.length
      streams := g.streams ++ [⟨path, f.isReg, Stream.opened f.data f.faults, false⟩]
      trace := g.trace ++ [.fopen path (some g.streams.length)] } := by
  simp only [Daemon.fopen, h]

theorem fopen_sendFile {path : List UInt8} {f : File} (h : e.fopen path = some f) :
    (g.fopen e path).sendFile = some g.streams.length := by
  rw [fopen_some h]

theorem fopen_stream {path : List UInt8} {f : File} (h : e.fopen path = some f) :
    (g.fopen e path).streams[g.streams.length]? =
      some ⟨path, f.isReg, Stream.opened f.data f.faults, false⟩ := by
  rw [fopen_some h]
  exact List.getElem?_concat_length

theorem fopen_file {path : List UInt8} {f : File} (h : e.fopen path = some f) :
    (g.fopen e path).file =
      some ⟨path, f.isReg, Stream.opened f.data f.faults, false⟩ := by
  rw [Daemon.file, fopen_sendFile h]
  exact fopen_stream h

theorem fopen_isReg {path : List UInt8} {f : File} (h : e.fopen path = some f) :
    (g.fopen e path).isReg = f.isReg := by
  unfold Daemon.isReg
  rw [fopen_file h]; rfl

/-- The first bytes read are those of the file. -/
theorem fopen_got {path : List UInt8} {f : File} (h : e.fopen path = some f) (n : Nat) :
    (g.fopen e path).fstat.got n = ((Stream.opened f.data f.faults).fread n).1 := by
  have hfile : (g.fopen e path).fstat.file = _ := fopen_file h
  rw [Daemon.got, hfile]; rfl

/-! ## Sizes -/

theorem sendError_eq (g : Daemon) (errorMsg : List UInt8) :
    sendError g errorMsg =
      ({ g with
        outMessage := out2 g.outMessage errorMsg
        trace := g.trace ++ [.send ⟨out2 g.outMessage errorMsg, MessageType2.size⟩] },
      some ⟨out2 g.outMessage errorMsg, MessageType2.size⟩) := by
  rw [sendError, messageType2Builder_eq]; rfl

@[simp] theorem sendError_state (g : Daemon) (errorMsg : List UInt8) :
    (sendError g errorMsg).1.state = g.state := by
  rw [sendError_eq]

@[simp] theorem sendError_packet (g : Daemon) (errorMsg : List UInt8) :
    (sendError g errorMsg).2 = some ⟨out2 g.outMessage errorMsg, MessageType2.size⟩ := by
  rw [sendError_eq]

theorem messageType2Builder_size (g : Daemon) (errorMsg : List UInt8) :
    (messageType2Builder g errorMsg).2 ≠ 0 := by
  rw [messageType2Builder_eq]
  exact (by decide : MessageType2.size ≠ 0)

theorem messegeType4Builder_size (e : Env) (g : Daemon) : (messegeType4Builder e g).2 ≠ 0 := by
  have h : (messegeType4Builder e g).2 = MessageType4.size := Buf.u32_write_self (by decide)
  rw [h]; decide

theorem messegeType5Builder_size (e : Env) (g : Daemon) : (messegeType5Builder e g).2 ≠ 0 := by
  have h : (messegeType5Builder e g).2 = MessageType5.size := Buf.u32_write_self (by decide)
  rw [h]; decide

/-! ## `handle` is `Exit` -/

theorem handle_type0 (ht : Header.messageType m = 0) :
    handle e m g = nnSend (messageType0Handler e m g) := if_pos ht

theorem handle_type3 (ht : Header.messageType m = 3) :
    handle e m g = nnSend (messageType3Handler e m g) := by
  unfold handle
  rw [ht]; rfl

theorem handle_type6 (ht : Header.messageType m = 6) :
    handle e m g = if (messageType6Handler e m g).2 ≠ 0 then nnSend (messageType6Handler e m g)
      else ((messageType6Handler e m g).1, none) := by
  unfold handle
  rw [ht]; rfl

theorem not_busy (hl : g.state.lastSent = 5 ∨ g.state.lastSent = 2) :
    ¬ (g.state.lastSent ≠ 5 ∧ g.state.lastSent ≠ 2) := fun h => hl.elim h.1 h.2

theorem Exit.handle_eq {r : Daemon × Option Packet} (h : Exit e m g r) : handle e m g = r := by
  cases h with
  | busy0 ht hl => rw [handle_type0 ht, messageType0Handler, if_pos hl]; rfl
  | corrupt0 ht hl hv =>
    rw [handle_type0 ht, messageType0Handler, if_neg (not_busy hl), if_pos hv]; rfl
  | accept0 ht hl hv =>
    rw [handle_type0 ht, messageType0Handler, if_neg (not_busy hl), if_neg (not_not.mpr hv)]
  | corrupt3 ht hv => rw [handle_type3 ht, messageType3Handler, if_pos hv]; rfl
  | stranger3 ht hv hs =>
    rw [handle_type3 ht, messageType3Handler, if_neg (not_not.mpr hv), if_pos hs]; rfl
  | invalid3 ha hl =>
    rw [handle_type3 ha.type, messageType3Handler, if_neg (not_not.mpr ha.ver),
      if_neg (not_not.mpr ha.sid), if_pos hl]; rfl
  | noFile3 ha hl hf =>
    have hn : (g.fopen e (pathOf m)).sendFile = none := by rw [fopen_none hf]
    rw [handle_type3 ha.type, messageType3Handler, if_neg (not_not.mpr ha.ver),
      if_neg (not_not.mpr ha.sid), if_neg (not_not.mpr hl)]
    simp only [if_pos hn]; rfl
  | irregular3 ha hl f hf hr =>
    have hn : (g.fopen e (pathOf m)).sendFile ≠ none := by rw [fopen_some hf]; simp
    rw [handle_type3 ha.type, messageType3Handler, if_neg (not_not.mpr ha.ver),
      if_neg (not_not.mpr ha.sid), if_neg (not_not.mpr hl)]
    simp only [if_neg hn, fopen_isReg hf, hr, if_true]; rfl
  | start3 ha hl f hf hr =>
    have hn : (g.fopen e (pathOf m)).sendFile ≠ none := by rw [fopen_some hf]; simp
    rw [handle_type3 ha.type, messageType3Handler, if_neg (not_not.mpr ha.ver),
      if_neg (not_not.mpr ha.sid), if_neg (not_not.mpr hl)]
    simp only [if_neg hn, fopen_isReg hf, hr, Bool.true_eq_false, if_false]
  | stranger6 ht hs =>
    have hh : messageType6Handler e m g = messageType2Builder g (chars "One session at a time") :=
      if_pos hs
    rw [handle_type6 ht, hh, if_pos (messageType2Builder_size _ _)]; rfl
  | corrupt6 ht hs hv =>
    have hh : messageType6Handler e m g = messageType2Builder
        ((g.setLastRecieved 6).setLastSent 2) (chars "Corrupt Type 6 Messege") := by
      rw [messageType6Handler, if_neg (not_not.mpr hs)]; exact if_pos hv
    rw [handle_type6 ht, hh, if_pos (messageType2Builder_size _ _)]; rfl
  | finish6 ha hl hf =>
    have hf' : (g.setLastRecieved 6).atEof = true := hf
    have hh : messageType6Handler e m g = messegeType5Builder e (g.setLastRecieved 6).feof := by
      rw [messageType6Handler, if_neg (not_not.mpr ha.sid)]
      refine (if_neg (not_not.mpr ha.ver)).trans ((if_pos hl).trans ?_)
      rw [hf']; rfl
    rw [handle_type6 ha.type, hh, if_pos (messegeType5Builder_size _ _)]
  | more6 ha hl hf =>
    have hf' : (g.setLastRecieved 6).atEof = false := hf
    have hh : messageType6Handler e m g = messegeType4Builder e (g.setLastRecieved 6).feof := by
      rw [messageType6Handler, if_neg (not_not.mpr ha.sid)]
      refine (if_neg (not_not.mpr ha.ver)).trans ((if_pos hl).trans ?_)
      rw [hf']; rfl
    rw [handle_type6 ha.type, hh, if_pos (messegeType4Builder_size _ _)]
  | invalid6 ha hl =>
    have hh : messageType6Handler e m g = messageType2Builder
        ((g.setLastRecieved 6).setLastSent 2) (chars "Invalid State") := by
      rw [messageType6Handler, if_neg (not_not.mpr ha.sid)]
      exact (if_neg (not_not.mpr ha.ver)).trans ((if_neg hl.1).trans (if_pos hl.2))
    rw [handle_type6 ha.type, hh, if_pos (messageType2Builder_size _ _)]; rfl
  | silent6 ha hl =>
    have h4 : (g.setLastRecieved 6).state.lastSent ≠ 4 := fun h => by
      have h5 : g.state.lastSent = 4 := h
      rw [hl] at h5; exact absurd h5 (by decide)
    have hh : messageType6Handler e m g = (g.setLastRecieved 6, 0) := by
      rw [messageType6Handler, if_neg (not_not.mpr ha.sid)]
      exact (if_neg (not_not.mpr ha.ver)).trans ((if_neg h4).trans (if_neg (not_not.mpr hl)))
    rw [handle_type6 ha.type, hh, if_neg (by simp)]
  | other ht =>
    unfold handle
    simp only [if_neg ht.1, if_neg ht.2.1, if_neg ht.2.2]; rfl

/-- **Every handled message leaves by one of the exits.** -/
theorem handle_exit (e : Env) (m : Mem) (g : Daemon) : Exit e m g (handle e m g) := by
  suffices h : ∃ r, Exit e m g r by
    obtain ⟨r, h⟩ := h
    rwa [h.handle_eq]
  by_cases h0 : Header.messageType m = 0
  · by_cases hl : g.state.lastSent ≠ 5 ∧ g.state.lastSent ≠ 2
    · exact ⟨_, .busy0 h0 hl⟩
    · have hl' : g.state.lastSent = 5 ∨ g.state.lastSent = 2 := by
        rwa [not_and_or, not_not, not_not] at hl
      by_cases hv : type0Ver m = 0
      · exact ⟨_, .accept0 h0 hl' hv⟩
      · exact ⟨_, .corrupt0 h0 hl' hv⟩
  by_cases h3 : Header.messageType m = 3
  · by_cases hv : type3Ver m = 0
    · by_cases hs : strncmp (MessageType3.sessionId m) (g.sessionId e) 128 = 0
      · by_cases hl : g.state.lastSent = 1
        · cases hf : e.fopen (pathOf m) with
          | none => exact ⟨_, .noFile3 ⟨h3, hv, hs⟩ hl hf⟩
          | some f =>
            cases hr : f.isReg with
            | false => exact ⟨_, .irregular3 ⟨h3, hv, hs⟩ hl f hf hr⟩
            | true => exact ⟨_, .start3 ⟨h3, hv, hs⟩ hl f hf hr⟩
        · exact ⟨_, .invalid3 ⟨h3, hv, hs⟩ hl⟩
      · exact ⟨_, .stranger3 h3 hv hs⟩
    · exact ⟨_, .corrupt3 h3 hv⟩
  by_cases h6 : Header.messageType m = 6
  · by_cases hs : strcmp (MessageType6.sessionId m) (g.sessionId e) = 0
    · by_cases hv : type6Ver m ((g.setLastRecieved 6).sessionId e) = 0
      · by_cases hl : g.state.lastSent = 4
        · cases hf : g.atEof with
          | true => exact ⟨_, .finish6 ⟨h6, hs, hv⟩ hl hf⟩
          | false => exact ⟨_, .more6 ⟨h6, hs, hv⟩ hl hf⟩
        · by_cases hl5 : g.state.lastSent = 5
          · exact ⟨_, .silent6 ⟨h6, hs, hv⟩ hl5⟩
          · exact ⟨_, .invalid6 ⟨h6, hs, hv⟩ ⟨hl, hl5⟩⟩
      · exact ⟨_, .corrupt6 h6 hs hv⟩
    · exact ⟨_, .stranger6 h6 hs⟩
  · exact ⟨_, .other ⟨h0, h3, h6⟩⟩

end Getd
