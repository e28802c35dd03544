import Getd.Authentication
import Getd.UserName
import Getd.Lib.Trace

/-!
# What State records

`lastSent` and `lastRecieved` are to name the last reply sent and the last
message handled. Every builder but the error builder sets `lastSent`, three
refusals leave it, and `lastRecieved` is set by the handler of type 6 alone.
`Recordable` is what a message must be for both to be right after it, and
`records_conversation_iff` takes it along a run.
-/

namespace Getd

open CLib Protocol

variable {e : Env} {m : Mem} {g g1 : Daemon} {t : UInt8}

/-! ## The statement -/

/-- The type of the last reply sent, from the process `g` on. -/
def lastReply (g : Daemon) (is : List Input) : UInt8 :=
  (mainLoop.outs g is).foldl (fun t o => (o.map Packet.type).getD t) g.state.lastSent

/-- After each message `lastRecieved` is its type and `lastSent` that of the last reply. -/
def RecordsConversation (g : Daemon) (is : List Input) : Prop :=
  ∀ pre i post, is = pre ++ i :: post →
    (mainLoop.run g (pre ++ [i])).state.lastRecieved =
      Header.messageType (i.message (mainLoop.run g pre)) ∧
    (mainLoop.run g (pre ++ [i])).state.lastSent = lastReply g (pre ++ [i])

/-- A message after which `State` is right: of type 0 while no session is open,
and of type 3, when `lastRecieved` is so already (or the name is so long that the
NUL behind it goes there); of type 6 when it carries the session id, or `State`
is already as the refusal should leave it; of another type when `State` is. -/
def Recordable (e : Env) (m : Mem) (g : Daemon) : Prop :=
  if Header.messageType m = 0 then
    (g.state.lastSent = 5 ∨ g.state.lastSent = 2) ∧
      if type0Ver m = 0 then
        strlen (MessageType0.distinguishedName m) = 34 ∨
          (strlen (MessageType0.distinguishedName m) < 34 ∧ g.state.lastRecieved = 0)
      else g.state.lastRecieved = 0
  else if Header.messageType m = 3 then g.state.lastRecieved = 3
  else if Header.messageType m = 6 then
    strcmp (MessageType6.sessionId m) (g.sessionId e) = 0 ∨
      (g.state.lastRecieved = 6 ∧ g.state.lastSent = 2)
  else g.state.lastRecieved = Header.messageType m ∧ g.state.lastSent = 2

/-! ## One message -/

/-- The answer `r` leaves `State` right about a message of type `t`. -/
def Recorded (g : Daemon) (t : UInt8) (r : Daemon × Option Packet) : Prop :=
  r.1.state.lastRecieved = t ∧ r.1.state.lastSent = (r.2.map Packet.type).getD g.state.lastSent

theorem recorded_error {text : List UInt8} (ht : text.length < 2 ^ 32) :
    Recorded g t (sendError g1 text) ↔ g1.state.lastRecieved = t ∧ g1.state.lastSent = 2 := by
  unfold Recorded
  rw [sendError_state, sendError_packet, Option.map_some, Option.getD_some,
    Packet.type_of_reply (reply_error g1 ht)]
  rfl

theorem recorded_failed {text : List UInt8} (ht : text.length < 2 ^ 32)
    (hl : g1.state.lastSent = 2) :
    Recorded g t (sendError g1 text) ↔ g1.state.lastRecieved = t := by
  rw [recorded_error ht]
  exact and_iff_left hl

theorem recorded_type1 (h : g1.state.Terminated) :
    Recorded g t (nnSend (messageType1Builder e g1)) ↔ g1.state.lastRecieved = t := by
  unfold Recorded
  rw [nnSend_type1 h, Option.map_some, Option.getD_some, Packet.type_of_reply (reply_type1 h)]
  exact and_iff_left rfl

theorem recorded_type4 (h : g1.state.Terminated) :
    Recorded g t (nnSend (messegeType4Builder e g1)) ↔ g1.state.lastRecieved = t := by
  unfold Recorded
  rw [nnSend_type4 h, Option.map_some, Option.getD_some, Packet.type_of_reply (reply_type4 h)]
  exact and_iff_left rfl

theorem recorded_type5 (h : g1.state.Terminated) :
    Recorded g t (nnSend (messegeType5Builder e g1)) ↔ g1.state.lastRecieved = t := by
  unfold Recorded
  rw [nnSend_type5 h, Option.map_some, Option.getD_some, Packet.type_of_reply (reply_type5 h)]
  exact and_iff_left rfl

theorem recordable_type0 (ht : Header.messageType m = 0)
    (hl : g.state.lastSent = 5 ∨ g.state.lastSent = 2) : Recordable e m g ↔
      if type0Ver m = 0 then
        strlen (MessageType0.distinguishedName m) = 34 ∨
          (strlen (MessageType0.distinguishedName m) < 34 ∧ g.state.lastRecieved = 0)
      else g.state.lastRecieved = 0 := by
  rw [Recordable, if_pos ht]
  exact and_iff_right hl

theorem copyName_lastRecieved_zero {s : State} {src : Mem} : (s.copyName src).lastRecieved = 0 ↔
    strlen src = 34 ∨ (strlen src < 34 ∧ s.lastRecieved = 0) := by
  have h34 : 34 < addrSpace := by decide
  rw [copyName_lastRecieved, cstr_getD h34]
  rcases Nat.lt_trichotomy (strlen src) 34 with h | h | h
  · rw [if_neg (Nat.not_le.mpr h)]
    exact ⟨fun h0 => .inr ⟨h, h0⟩, fun hc => (hc.resolve_left (Nat.ne_of_lt h)).2⟩
  · rw [if_pos (Nat.le_of_eq h.symm)]
    refine iff_of_true ?_ (.inl h)
    have hnul := strnlen_nul (m := src) (n := addrSpace) (by rw [← strlen, h]; exact h34)
    rwa [← strlen, h] at hnul
  · rw [if_pos (Nat.le_of_lt h)]
    exact iff_of_false (strnlen_ne_nul h) (by omega)

theorem recordable_type3 (ht : Header.messageType m = 3) :
    Recordable e m g ↔ g.state.lastRecieved = Header.messageType m := by
  rw [Recordable, if_neg (by rw [ht]; decide), if_pos ht, ht]

theorem recordable_type6 (ht : Header.messageType m = 6) : Recordable e m g ↔
    strcmp (MessageType6.sessionId m) (g.sessionId e) = 0 ∨
      (g.state.lastRecieved = 6 ∧ g.state.lastSent = 2) := by
  rw [Recordable, if_neg (by rw [ht]; decide), if_neg (by rw [ht]; decide), if_pos ht]

/-- **One message** leaves `State` right exactly when it is recordable. -/
theorem handle_recorded_iff (hinv : SessionInv g) :
    Recorded g (Header.messageType m) (handle e m g) ↔ Recordable e m g := by
  have hopen : (g.fopen e (pathOf m)).state = g.state := fopen_state _
  have hexit := handle_exit e m g
  generalize handle e m g = r at hexit ⊢
  cases hexit with
  | busy0 ht hl =>
    rw [recorded_error (by decide), Recordable, if_pos ht]
    exact iff_of_false (fun h => hl.2 h.2) fun h => h.1.elim hl.1 hl.2
  | corrupt0 ht hl hv =>
    rw [recorded_failed (by decide) rfl, recordable_type0 ht hl, if_neg hv, ht]
    rfl
  | accept0 ht hl hv =>
    rw [recorded_type1 (newSession_terminated m g), recordable_type0 ht hl, if_pos hv, ht,
      newSession_eq, ← copyName_lastRecieved_zero]
  | corrupt3 ht | stranger3 ht =>
    rw [recorded_failed (by decide) rfl, recordable_type3 ht]
    rfl
  | invalid3 ha =>
    rw [recorded_failed (by decide) rfl, recordable_type3 ha.type]
    rfl
  | noFile3 ha | irregular3 ha =>
    rw [recorded_failed (by decide) rfl, recordable_type3 ha.type, ← hopen]
    rfl
  | start3 ha hl =>
    rw [recorded_type4 (hinv.starting hl _), recordable_type3 ha.type, ← hopen]
    rfl
  | stranger6 ht hs =>
    rw [recorded_error (by decide), recordable_type6 ht, ht]
    exact (or_iff_right hs).symm
  | corrupt6 ht hs =>
    rw [recorded_failed (by decide) rfl, recordable_type6 ht, ht]
    exact iff_of_true rfl (.inl hs)
  | finish6 ha hl =>
    rw [recorded_type5 (hinv.sending hl), recordable_type6 ha.type, ha.type]
    exact iff_of_true rfl (.inl ha.sid)
  | more6 ha hl =>
    rw [recorded_type4 (hinv.sending hl), recordable_type6 ha.type, ha.type]
    exact iff_of_true rfl (.inl ha.sid)
  | invalid6 ha =>
    rw [recorded_failed (by decide) rfl, recordable_type6 ha.type, ha.type]
    exact iff_of_true rfl (.inl ha.sid)
  | silent6 ha =>
    rw [recordable_type6 ha.type, ha.type]
    exact iff_of_true ⟨rfl, rfl⟩ (.inl ha.sid)
  | other ht =>
    rw [recorded_error (Nat.lt_of_le_of_lt (invalidType_length_le _) (by decide)), Recordable,
      if_neg ht.1, if_neg ht.2.1, if_neg ht.2.2]

/-! ## A run -/

def RecordableRound (g : Daemon) (i : Input) : Prop := Recordable i.env (i.message g) g

def RecordedRound (g : Daemon) (i : Input) : Prop :=
  Recorded g (Header.messageType (i.message g)) (iteration g i)

theorem recordedRound_iff (hinv : SessionInv g) (i : Input) :
    RecordedRound g i ↔ RecordableRound g i :=
  (handle_recorded_iff (e := i.env) (m := i.message g)
    (hinv.setBuffer (nnRecv g.buffer i.recv))).trans Iff.rfl

theorem lastReply_snoc (g : Daemon) (pre : List Input) (i : Input) : lastReply g (pre ++ [i]) =
    ((iteration (mainLoop.run g pre) i).2.map Packet.type).getD (lastReply g pre) := by
  unfold lastReply
  rw [Mealy.outs_append, List.foldl_append]
  rfl

/-- Right after every message is right after each, given what was right before. -/
theorem recordsConversation_iff_atEach (g : Daemon) (is : List Input) :
    RecordsConversation g is ↔ AtEach (fun pre i => RecordedRound (mainLoop.run g pre) i) is := by
  have hlast : ∀ pre post, is = pre ++ post →
      (∀ a i b, pre = a ++ i :: b →
        (mainLoop.run g (a ++ [i])).state.lastSent = lastReply g (a ++ [i])) →
      (mainLoop.run g pre).state.lastSent = lastReply g pre := by
    intro pre post _ h
    rcases pre.eq_nil_or_concat with rfl | ⟨a, i, rfl⟩
    · rfl
    · rw [List.concat_eq_append] at h ⊢
      exact h a i [] rfl
  constructor
  · intro h pre i post heq
    obtain ⟨hr, hs⟩ := h pre i post heq
    have hpre := hlast pre (i :: post) heq fun a j b hp =>
      (h a j (b ++ i :: post) (by rw [heq, hp, List.append_assoc, List.cons_append])).2
    rw [lastReply_snoc, Mealy.run_snoc, ← hpre] at hs
    rw [Mealy.run_snoc] at hr
    exact ⟨hr, hs⟩
  · intro h
    -- by induction on what came before: the last reply is the one recorded
    have hsent : ∀ pre post, is = pre ++ post →
        (mainLoop.run g pre).state.lastSent = lastReply g pre := by
      intro pre
      induction pre using List.reverseRecOn with
      | nil => exact fun _ _ => rfl
      | append_singleton pre i ih =>
        intro post heq
        rw [List.append_assoc, List.singleton_append] at heq
        rw [lastReply_snoc, Mealy.run_snoc, ← ih _ heq]
        exact (h pre i post heq).2
    intro pre i post heq
    refine ⟨?_, hsent (pre ++ [i]) post (by rw [heq, List.append_assoc, List.singleton_append])⟩
    rw [Mealy.run_snoc]
    exact (h pre i post heq).1

/-- **State records the conversation** exactly when every message of the run is
recordable. -/
theorem records_conversation_iff (hg : Init g) (is : List Input) : RecordsConversation g is ↔
    AtEach (fun pre i => RecordableRound (mainLoop.run g pre) i) is :=
  (recordsConversation_iff_atEach g is).trans (Mealy.atEach_iff (I := SessionInv)
    (fun _ i _ hinv => recordedRound_iff hinv i)
    (fun _ i _ hinv _ => (iteration_follows hinv i).inv) hg.sessionInv)

/-- An acknowledgement of the session that ended before the first is not
answered, and recorded. -/
theorem records_acknowledgement : RecordsConversation zeroBoot [recvOf (encode6 []) none] := by
  have ht : Header.messageType ((recvOf (encode6 []) none).message zeroBoot) = 6 := by
    decide +kernel
  have hs : strcmp (MessageType6.sessionId ((recvOf (encode6 []) none).message zeroBoot))
      (zeroBoot.sessionId (envOf none)) = 0 := by decide +kernel
  have he : (recvOf (encode6 []) none).env = envOf none := rfl
  rw [← he] at hs
  generalize recvOf (encode6 []) none = i at ht hs
  exact (records_conversation_iff zeroBoot_init [i]).mpr
    (AtEach.cons_iff.mpr ⟨(recordable_type6 ht).mpr (.inl hs), .nil⟩)

/-- The type of the first message is not. -/
theorem greeting_not_recorded : Init zeroBoot ∧ ¬ RecordsConversation zeroBoot [greeting] := by
  refine ⟨zeroBoot_init, fun h => ?_⟩
  have hm := greeting_introduces zeroBoot
  have hlen : strlen (MessageType0.distinguishedName (greeting.message zeroBoot)) = 5 :=
    hm.distinguishedName.strlen (by decide)
  have hround := (AtEach.cons_iff.mp ((recordsConversation_iff_atEach _ _).mp h)).1
  have hrec : Recordable greeting.env (greeting.message zeroBoot) zeroBoot :=
    (recordedRound_iff zeroBoot_init.sessionInv greeting).mp hround
  have h6 : (6 : UInt8) ≠ 0 := by decide
  rw [recordable_type0 hm.type (.inl rfl), if_pos hm.ver, hlen] at hrec
  exact hrec.elim (by decide) fun h => h6 h.2

end Getd
