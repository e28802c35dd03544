import Getd.Steps
import Getd.Protocol

/-!
# The daemon follows the session protocol

`Daemon.session` is the session the process is in, read off `lastSent`.
`handle_follows` is the refinement: under `SessionInv` every handled message is a
step of the protocol, and the packet sent is the reply of that step.
-/

namespace Getd

open CLib Protocol

variable {e : Env} {m : Mem} {g : Daemon}

/-! ## Replies sent -/

theorem nnSend_type1 (h : g.state.Terminated) :
    nnSend (messageType1Builder e g) =
      ({ g with
        state := { g.state with lastSent := 1 }
        outMessage := out1 g.outMessage g.state.sid
        trace := g.trace ++ [.send ⟨out1 g.outMessage g.state.sid, MessageType1.size⟩] },
      some ⟨out1 g.outMessage g.state.sid, MessageType1.size⟩) := by
  rw [messageType1Builder_eq h]; rfl

theorem nnSend_type4 (h : g.state.Terminated) :
    nnSend (messegeType4Builder e g) =
      ({ g.readBlock with
        state := { g.state with lastSent := 4 }
        outMessage := out4 g.outMessage g.sendFile (g.got 4096) g.state.sid
        trace := g.readBlock.trace ++
          [.send ⟨out4 g.outMessage g.sendFile (g.got 4096) g.state.sid, MessageType4.size⟩] },
      some ⟨out4 g.outMessage g.sendFile (g.got 4096) g.state.sid, MessageType4.size⟩) := by
  rw [messegeType4Builder_eq h]; rfl

theorem nnSend_type5 (h : g.state.Terminated) :
    nnSend (messegeType5Builder e g) =
      ({ g.fclose with
        state := { g.state with lastSent := 5 }
        outMessage := out5 g.outMessage g.state.sid
        trace := g.fclose.trace ++ [.send ⟨out5 g.outMessage g.state.sid, MessageType5.size⟩] },
      some ⟨out5 g.outMessage g.state.sid, MessageType5.size⟩) := by
  rw [messegeType5Builder_eq h]; rfl

def replyOf (r : Daemon × Option Packet) : Option Reply := r.2.bind Packet.reply

theorem reply_error (g : Daemon) {text : List UInt8} (h : text.length < 2 ^ 32) :
    (Packet.mk (out2 g.outMessage text) MessageType2.size).reply =
      some (.type2 MessageType2.size text.length text) := decode_out2 _ h

theorem reply_type1 (h : g.state.Terminated) :
    (Packet.mk (out1 g.outMessage g.state.sid) MessageType1.size).reply =
      some (.type1 MessageType1.size g.state.sid.length g.state.sid) :=
  decode_out1 _ (State.sid_ne_nul _) (State.sid_length_le h)

theorem reply_type4 (h : g.state.Terminated) :
    (Packet.mk (out4 g.outMessage g.sendFile (g.got 4096) g.state.sid) MessageType4.size).reply =
      some (.type4 MessageType4.size g.state.sid.length (g.got 4096).length g.state.sid
        (g.got 4096)) :=
  decode_out4 _ _ (State.sid_ne_nul _) (State.sid_length_le h) (got_length_le _ _)

theorem reply_type5 (h : g.state.Terminated) :
    (Packet.mk (out5 g.outMessage g.state.sid) MessageType5.size).reply =
      some (.type5 MessageType5.size g.state.sid.length g.state.sid) :=
  decode_out5 _ (State.sid_ne_nul _) (State.sid_length_le h)

theorem replyOf_error (g : Daemon) {text : List UInt8} (h : text.length < 2 ^ 32) :
    replyOf (sendError g text) = some (.type2 MessageType2.size text.length text) := by
  rw [sendError_eq]
  exact reply_error g h

def errorText : Option Reply → Option (List UInt8)
  | some (.type2 _ _ text) => some text
  | _ => none

theorem errorText_error (g : Daemon) {text : List UInt8} (h : text.length < 2 ^ 32) :
    errorText (replyOf (sendError g text)) = some text := by
  rw [replyOf_error g h]; rfl

theorem replyOf_type1 (h : g.state.Terminated) :
    replyOf (nnSend (messageType1Builder e g)) =
      some (.type1 MessageType1.size g.state.sid.length g.state.sid) := by
  rw [nnSend_type1 h]
  exact reply_type1 h

theorem replyOf_type4 (h : g.state.Terminated) :
    replyOf (nnSend (messegeType4Builder e g)) =
      some (.type4 MessageType4.size g.state.sid.length (g.got 4096).length g.state.sid
        (g.got 4096)) := by
  rw [nnSend_type4 h]
  exact reply_type4 h

theorem replyOf_type5 (h : g.state.Terminated) :
    replyOf (nnSend (messegeType5Builder e g)) =
      some (.type5 MessageType5.size g.state.sid.length g.state.sid) := by
  rw [nnSend_type5 h]
  exact reply_type5 h

/-- The text of an unrecognized type fits its field. -/
theorem invalidType_length_le (t : UInt8) : (invalidType t).length ≤ 27 := by
  have hd : (toString t.toNat).length ≤ 3 := by
    have ht := t.toNat_lt
    exact (Nat.length_repr_le_iff (by decide)).mpr (by omega)
  have hl : (invalidType t).length =
      "Invalid Message Type: \"".length + (toString t.toNat).length + "\"".length := by
    simp only [invalidType, chars, List.length_map, String.length_toList, String.length_append]
  rw [hl, show "Invalid Message Type: \"".length = 23 from rfl, show "\"".length = 1 from rfl]
  omega

/-! ## A new session -/

def idChar (r : Fin (RAND_MAX + 1)) : UInt8 := possibleChars.getD (charIndex r) 0

/-- The session id that 128 draws from the `k`-th on make: the first draw is for
the last character. -/
def drawnId (rand : Nat → Fin (RAND_MAX + 1)) (k : Nat) : Vector UInt8 129 :=
  Vector.ofFn fun i => if i.val < 128 then idChar (rand (k + (127 - i))) else 0

/-- The loop draws `n` times and writes the session id below `n`. -/
theorem generate_eq (n : Nat) : ∀ g : Daemon, generate g n = { g with
    state := { g.state with
      sessionId := Vector.ofFn fun i =>
        if i.val < n then idChar (g.rand (g.drawn + (n - 1 - i))) else g.state.sessionId[i] }
    drawn := g.drawn + n } := by
  induction n with
  | zero =>
    intro g
    have hsid : (Vector.ofFn fun i : Fin 129 => if i.val < 0 then
        idChar (g.rand (g.drawn + (0 - 1 - i))) else g.state.sessionId[i]) = g.state.sessionId :=
      Vector.ext fun i hi => by simp
    rw [hsid]
    rfl
  | succ n ih =>
    intro g
    rw [generate, ih]
    have hsid : (Vector.ofFn fun i : Fin 129 => if i.val < n then
          idChar (g.rand (g.drawn + 1 + (n - 1 - i)))
        else (g.state.sessionId.setIfInBounds n (idChar (g.rand g.drawn)))[i]) =
      Vector.ofFn fun i : Fin 129 => if i.val < n + 1 then
        idChar (g.rand (g.drawn + (n + 1 - 1 - i))) else g.state.sessionId[i] := by
      refine Vector.ext fun i hi => ?_
      rw [Vector.getElem_ofFn, Vector.getElem_ofFn]
      rcases Nat.lt_trichotomy i n with h | rfl | h
      · simp only [h, if_true, Nat.lt_succ_of_lt h]
        rw [show g.drawn + 1 + (n - 1 - i) = g.drawn + (n + 1 - 1 - i) by omega]
      · simp
      · have h1 : ¬ i < n := by omega
        have h2 : ¬ i < n + 1 := by omega
        simp only [h1, h2, if_false]
        exact Vector.getElem_setIfInBounds_ne hi (by omega)
    have hdrawn : g.drawn + 1 + n = g.drawn + (n + 1) := by omega
    simp only [idChar] at hsid ⊢
    simp only [hsid, hdrawn]

/-- **A new session**: the name is copied and the id drawn. -/
theorem newSession_eq (m : Mem) (g : Daemon) : newSession m g = { g with
    state := { g.state.copyName (MessageType0.distinguishedName m) with
      sessionId := drawnId g.rand g.drawn }
    drawn := g.drawn + 128 } := by
  unfold newSession
  simp only [generate_eq]
  have hsid : ∀ v : Vector UInt8 129, (Vector.ofFn fun i : Fin 129 => if i.val < 128 then
      idChar (g.rand (g.drawn + (128 - 1 - i))) else v[i]).set 128 0 =
      drawnId g.rand g.drawn := by
    intro v
    refine Vector.ext fun i hi => ?_
    rw [drawnId, Vector.getElem_ofFn]
    by_cases h : i = 128
    · subst h
      simp
    · have hlt : i < 128 := by omega
      rw [Vector.getElem_set_ne _ _ (by omega), Vector.getElem_ofFn]
      simp only [hlt, if_true]
  rw [hsid]

theorem newSession_terminated (m : Mem) (g : Daemon) : (newSession m g).state.Terminated := by
  rw [newSession_eq]
  show (drawnId g.rand g.drawn)[128] = 0
  simp [drawnId]

/-! ## The session of a process -/

/-- What a session is known by. -/
structure Identity where
  sessionId : Vector UInt8 129
  userName : Vector UInt8 33
  deriving DecidableEq

def Identity.sid (id : Identity) : List UInt8 := id.sessionId.toList.takeWhile (· ≠ 0)

def State.identity (s : State) : Identity := ⟨s.sessionId, s.userName⟩

def Daemon.session (g : Daemon) : Session Identity :=
  if g.state.lastSent = 1 then .opened g.state.identity
  else if g.state.lastSent = 4 then .sending g.state.identity
  else .idle

theorem session_opened (h : g.state.lastSent = 1) : g.session = .opened g.state.identity :=
  if_pos h

theorem session_sending (h : g.state.lastSent = 4) : g.session = .sending g.state.identity := by
  unfold Daemon.session
  rw [h]; rfl

theorem session_idle (h : g.state.lastSent = 2 ∨ g.state.lastSent = 5) : g.session = .idle := by
  unfold Daemon.session
  rcases h with h | h <;> rw [h] <;> rfl

theorem session_congr {g' : Daemon} (h : g'.state = g.state) : g'.session = g.session := by
  unfold Daemon.session; rw [h]

/-- The packet sent is the reply of the move. -/
inductive Replies : Move Identity → Option Packet → Prop where
  | refused {p : Packet} {text : List UInt8}
      (h : p.reply = some (.type2 MessageType2.size text.length text)) : Replies .refused (some p)
  | failed {p : Packet} {text : List UInt8}
      (h : p.reply = some (.type2 MessageType2.size text.length text)) : Replies .failed (some p)
  | issued {id : Identity} {p : Packet}
      (h : p.reply = some (.type1 MessageType1.size id.sid.length id.sid)) :
      Replies (.issued id) (some p)
  | chunk {id : Identity} {p : Packet} {got : List UInt8}
      (h : p.reply = some (.type4 MessageType4.size id.sid.length got.length id.sid got)) :
      Replies (.chunk id) (some p)
  | finished {id : Identity} {p : Packet}
      (h : p.reply = some (.type5 MessageType5.size id.sid.length id.sid)) :
      Replies (.finished id) (some p)
  | silent : Replies .silent none

def Packet.type (p : Packet) : UInt8 := Header.messageType p.buf.byte

theorem Packet.type_of_reply {p : Packet} {r : Reply} (h : p.reply = some r) : p.type = r.type := by
  unfold Packet.reply Reply.decode at h
  split at h
  · next ht => cases h; exact ht
  · split at h
    · next ht => cases h; exact ht
    · split at h
      · next ht => cases h; exact ht
      · split at h
        · next ht => cases h; exact ht
        · cases h

/-- The type of the reply, unless it is a refusal: a type 2 that leaves
`lastSent` unchanged and different from 2. -/
def kept (g g' : Daemon) : Option Packet → List UInt8
  | none => []
  | some p =>
    if p.type = 2 ∧ g'.state.lastSent = g.state.lastSent ∧ g.state.lastSent ≠ 2 then []
    else [p.type]

theorem kept_refusal {g' : Daemon} {p : Packet} (ht : p.type = 2)
    (hs : g'.state.lastSent = g.state.lastSent) (h2 : g.state.lastSent ≠ 2) :
    kept g g' (some p) = [] := if_pos ⟨ht, hs, h2⟩

theorem kept_failure {g' : Daemon} {p : Packet} (ht : p.type = 2)
    (hs : g'.state.lastSent = 2) : kept g g' (some p) = [2] := by
  have hn : ¬ (p.type = 2 ∧ g'.state.lastSent = g.state.lastSent ∧ g.state.lastSent ≠ 2) :=
    fun h => h.2.2 (h.2.1.symm.trans hs)
  exact (if_neg hn).trans (by rw [ht])

theorem kept_reply {g' : Daemon} {p : Packet} (ht : p.type ≠ 2) :
    kept g g' (some p) = [p.type] := if_neg fun h => ht h.1

/-- An open session has an id that ends inside its array. -/
structure SessionInv (g : Daemon) : Prop where
  sent : g.state.lastSent = 1 ∨ g.state.lastSent = 2 ∨ g.state.lastSent = 4 ∨ g.state.lastSent = 5
  terminated : g.state.lastSent = 1 ∨ g.state.lastSent = 4 → g.state.Terminated

theorem SessionInv.congr {g' : Daemon} (h : SessionInv g) (hs : g'.state = g.state) :
    SessionInv g' := by
  refine ⟨?_, ?_⟩ <;> rw [hs]
  · exact h.sent
  · exact h.terminated

theorem SessionInv.of_idle (h : g.state.lastSent = 2 ∨ g.state.lastSent = 5) : SessionInv g := by
  refine ⟨?_, fun h' => ?_⟩
  · rcases h with h | h <;> simp [h]
  · rcases h with h | h <;> rw [h] at h' <;> exact absurd h' (by decide)

theorem SessionInv.of_terminated
    (hl : g.state.lastSent = 1 ∨ g.state.lastSent = 4) (h : g.state.Terminated) :
    SessionInv g := by
  refine ⟨?_, fun _ => h⟩
  rcases hl with hl | hl <;> simp [hl]

theorem SessionInv.starting (h : SessionInv g) (hl : g.state.lastSent = 1) (path : List UInt8) :
    (g.fopen e path).fstat.state.Terminated :=
  (fopen_state (g := g) path).symm ▸ h.terminated (.inl hl)

theorem SessionInv.sending (h : SessionInv g) (hl : g.state.lastSent = 4) :
    (g.setLastRecieved 6).feof.state.Terminated := h.terminated (.inr hl)

theorem sessionId_spells (ht : g.state.Terminated) (e : Env) : Spells (g.sessionId e) g.state.sid :=
  ht.spells e.beyond

theorem sessionId_spells6 (ht : g.state.Terminated) (e : Env) :
    Spells ((g.setLastRecieved 6).sessionId e) g.state.sid :=
  (ht.congr (t := (g.setLastRecieved 6).state) rfl).spells e.beyond

theorem strcmp_sessionId (ht : g.state.Terminated) {s : Mem} :
    strcmp s (g.sessionId e) = 0 ↔ Spells s g.state.sid :=
  strcmp_eq_zero_iff (sessionId_spells ht e) (State.sid_length_lt ht)

/-- `r` is a step of the protocol, and its packet the reply of the step. -/
structure Follows (g : Daemon) (r : Daemon × Option Packet) : Prop where
  inv : SessionInv r.1
  move : ∃ mv, Step g.session mv r.1.session ∧ Replies mv r.2 ∧ kept g r.1 r.2 = mv.letters

theorem follows_failed {g1 : Daemon} {text : List UInt8} (h2 : g1.state.lastSent = 2)
    (ht : text.length < 2 ^ 32) : Follows g (sendError g1 text) := by
  have hr := reply_error g1 ht
  have hs : (sendError g1 text).1.state.lastSent = 2 := by rw [sendError_state, h2]
  refine ⟨.of_idle (.inl hs), .failed, ?_, ?_, ?_⟩
  · rw [session_idle (.inl hs)]
    exact .failed _
  · rw [sendError_packet]
    exact .failed hr
  · rw [sendError_packet]
    exact kept_failure (Packet.type_of_reply hr) hs

/-- An error reply on an unchanged `State` is a refusal, or repeats a failure. -/
theorem follows_refused {text : List UInt8} (hinv : SessionInv g) (ht : text.length < 2 ^ 32) :
    Follows g (sendError g text) := by
  by_cases h2 : g.state.lastSent = 2
  · exact follows_failed h2 ht
  · have hr := reply_error g ht
    have hs : (sendError g text).1.state = g.state := sendError_state g text
    refine ⟨hinv.congr hs, .refused, ?_, ?_, ?_⟩
    · rw [session_congr hs]
      exact .refused _
    · rw [sendError_packet]
      exact .refused hr
    · rw [sendError_packet]
      exact kept_refusal (Packet.type_of_reply hr) (by rw [hs]) h2

theorem follows_type1 (hl : g.state.lastSent = 5 ∨ g.state.lastSent = 2) :
    Follows g (nnSend (messageType1Builder e (newSession m g))) := by
  have hterm := newSession_terminated m g
  have hr := reply_type1 hterm
  have htype := Packet.type_of_reply hr
  rw [nnSend_type1 hterm]
  refine ⟨.of_terminated (.inl rfl) hterm, .issued (newSession m g).state.identity, ?_,
    .issued hr, ?_⟩
  · rw [session_idle hl.symm]
    exact .issued _
  · have hne : (1 : UInt8) ≠ 2 := by decide
    exact (kept_reply (by rw [htype]; exact hne)).trans (by rw [htype]; rfl)

theorem follows_type4 {g1 : Daemon} (hterm : g1.state.Terminated)
    (hstep : Step g.session (.chunk g1.state.identity) (.sending g1.state.identity)) :
    Follows g (nnSend (messegeType4Builder e g1)) := by
  have hr := reply_type4 hterm
  have htype := Packet.type_of_reply hr
  rw [nnSend_type4 hterm]
  refine ⟨.of_terminated (.inr rfl) hterm, .chunk g1.state.identity, hstep, .chunk hr, ?_⟩
  have hne : (4 : UInt8) ≠ 2 := by decide
  exact (kept_reply (by rw [htype]; exact hne)).trans (by rw [htype]; rfl)

theorem follows_type5 {g1 : Daemon} (hterm : g1.state.Terminated)
    (hstep : Step g.session (.finished g1.state.identity) .idle) :
    Follows g (nnSend (messegeType5Builder e g1)) := by
  have hr := reply_type5 hterm
  have htype := Packet.type_of_reply hr
  rw [nnSend_type5 hterm]
  refine ⟨.of_idle (.inr rfl), .finished g1.state.identity, hstep, .finished hr, ?_⟩
  have hne : (5 : UInt8) ≠ 2 := by decide
  exact (kept_reply (by rw [htype]; exact hne)).trans (by rw [htype]; rfl)

/-- **Refinement.** Every handled message is a step of the protocol. -/
theorem handle_follows (hinv : SessionInv g) : Follows g (handle e m g) := by
  have hexit := handle_exit e m g
  generalize handle e m g = r at hexit ⊢
  cases hexit with
  | busy0 => exact follows_refused hinv (by decide)
  | corrupt0 => exact follows_failed rfl (by decide)
  | accept0 ht hl hv => exact follows_type1 hl
  | corrupt3 => exact follows_failed rfl (by decide)
  | stranger3 => exact follows_failed rfl (by decide)
  | invalid3 => exact follows_failed rfl (by decide)
  | noFile3 => exact follows_failed rfl (by decide)
  | irregular3 => exact follows_failed rfl (by decide)
  | start3 ha hl f hf hr =>
    have hst : (g.fopen e (pathOf m)).fstat.state = g.state := fopen_state _
    refine follows_type4 (hinv.starting hl _) ?_
    rw [session_opened hl, hst]
    exact .start _
  | stranger6 => exact follows_refused hinv (by decide)
  | corrupt6 => exact follows_failed rfl (by decide)
  | finish6 ha hl hf =>
    refine follows_type5 (hinv.sending hl) ?_
    rw [session_sending hl]
    exact .finish _
  | more6 ha hl hf =>
    refine follows_type4 (hinv.sending hl) ?_
    rw [session_sending hl]
    exact .more _
  | invalid6 => exact follows_failed rfl (by decide)
  | silent6 ha hl =>
    refine ⟨.of_idle (.inr hl), .silent, ?_, .silent, rfl⟩
    have hidle : (g.setLastRecieved 6).session = .idle := session_idle (.inr hl)
    rw [session_idle (.inr hl), hidle]
    exact .silent
  | other =>
    exact follows_refused hinv (Nat.lt_of_le_of_lt (invalidType_length_le _) (by decide))

end Getd
