import Getd.Sent
import Getd.Client

/-!
# Session ids issued and accepted

A reply with file data or with the end of the file answers a message that
carries the id last issued (`authenticated`). Conversely a client that copies
the id out of any reply of its session has the id that the checks ask for
(`issued_copy`). Both rest on `IssuedInv`: what was issued last is what `State`
holds.
-/

namespace Getd

open CLib Protocol

variable {e : Env} {m : Mem} {g : Daemon} {p : Packet} {since : List Packet}

/-! ## What the checks mean -/

theorem Auth3.agree (ha : Auth3 e m g) : AgreeTo (MessageType3.sessionId m) (g.sessionId e) 128 :=
  strncmp_eq_zero_iff.mp ha.sid

theorem Auth3.sidLength (ha : Auth3 e m g) (ht : g.state.Terminated) :
    MessageType3.sidLength m = g.state.sid.length := by
  have hlen := ((type3Ver_eq_zero_iff m).mp ha.ver).2.1
  have hle := State.sid_length_le ht
  rw [agreeTo_strnlen (sessionId_spells ht e) ha.agree] at hlen
  omega

theorem Auth6.spells (ha : Auth6 e m g) (ht : g.state.Terminated) :
    Spells (MessageType6.sessionId m) g.state.sid := (strcmp_sessionId ht).mp ha.sid

theorem Auth6.agree (ha : Auth6 e m g) (ht : g.state.Terminated) :
    AgreeTo (MessageType6.sessionId m) (g.sessionId e) 128 :=
  strncmp_eq_zero_iff.mp (strncmp_of_spells (ha.spells ht) (sessionId_spells ht e) 128)

theorem Auth6.sidLength (ha : Auth6 e m g) (ht : g.state.Terminated) :
    MessageType6.sidLength m = g.state.sid.length := by
  obtain ⟨⟨s, hs, -, hlen⟩, -⟩ := (type6Ver_eq_zero_iff _ _).mp ha.ver
  rw [hlen, hs.unique (ha.spells ht)]

theorem asks_auth3 {sid path : List UInt8} {n : Nat} (h : Asks m n sid path)
    (ht : g.state.Terminated) (hs : sid = g.state.sid) (hn : n = sid.length) : Auth3 e m g := by
  have hle := State.sid_length_le ht
  rw [← hs] at hle
  refine ⟨h.type, Asks.ver (hn ▸ h) hle, ?_⟩
  exact strncmp_of_spells h.sessionId (hs ▸ sessionId_spells ht e) 128

theorem acknowledges_auth6 {sid : List UInt8} {n : Nat} (h : Acknowledges m n sid)
    (ht : g.state.Terminated) (hs : sid = g.state.sid) (hn : n = sid.length) : Auth6 e m g := by
  have hle := State.sid_length_le ht
  rw [← hs] at hle
  refine ⟨h.type, (strcmp_sessionId ht).mpr (hs ▸ h.sessionId), ?_⟩
  refine (type6Ver_eq_zero_iff _ _).mpr ⟨⟨sid, h.sessionId, hle, ?_⟩, ?_, h.messageLength⟩
  · rw [h.sidLength, hn]
  · exact strncmp_of_spells (hs ▸ sessionId_spells6 ht e) h.sessionId _

/-! ## A client's rounds -/

/-- Asks for `path` as the client of the session does, in the surroundings `e`. -/
def ask (g : Daemon) (path : List UInt8) (e : Env) : Input :=
  ⟨some (encode3 g.state.sid path), (memOf (encode3 g.state.sid path)).off 4000, e⟩

def Input.message (i : Input) (g : Daemon) : Mem := view (nnRecv g.buffer i.recv) i.past

theorem ask_message {path : List UInt8} (ht : g.state.Terminated) (hp : path.length ≤ 4095) :
    (ask g path e).message g = memOf (encode3 g.state.sid path) := by
  have hle := State.sid_length_le ht
  have hlen : (encode3 g.state.sid path).length = MessageType3.size :=
    encode3_length (by omega) (by omega)
  exact view_wholeOf g.buffer (by rw [hlen]; decide) none

theorem ask_auth3 {path : List UInt8} (ht : g.state.Terminated) (h0 : 0 ∉ path)
    (hp : path.length ≤ 4095) : Auth3 e ((ask g path e).message g) g := by
  rw [ask_message ht hp]
  exact asks_auth3 (asks_encode3 (State.sid_ne_nul _) (State.sid_length_le ht) h0 hp) ht rfl rfl

def greeting : Input := recvOf (encode0 (chars "alice")) none

theorem introduces_accepted {name : List UInt8} (hm : Introduces m name)
    (hl : g.state.lastSent = 5 ∨ g.state.lastSent = 2) :
    (handle e m g).1.state.lastSent = 1 ∧
      ∃ p, (handle e m g).1.trace = g.trace ++ [.send p] := by
  have htrace : (newSession m g).trace = g.trace := by
    rw [newSession_eq]
  rw [(Exit.accept0 hm.type hl hm.ver).handle_eq, nnSend_type1 (newSession_terminated m g)]
  exact ⟨rfl, _, congrArg (· ++ _) htrace⟩

theorem greeting_introduces (g : Daemon) : Introduces (greeting.message g) (chars "alice") :=
  introduces_recv g.buffer greeting.past (by decide) (by decide)

theorem greeting_accepted (hl : g.state.lastSent = 5 ∨ g.state.lastSent = 2) :
    (iteration g greeting).1.state.lastSent = 1 ∧
      ∃ p, (iteration g greeting).1.trace = g.trace ++ [.send p] :=
  introduces_accepted (g := { g with buffer := nnRecv g.buffer greeting.recv })
    (greeting_introduces g) hl

theorem Init.lastSent (hg : Init g) : g.state.lastSent = 5 := by
  obtain ⟨sid, user, out, buf, rand, rfl⟩ := hg
  rfl

theorem zeroBoot_init : Init zeroBoot := ⟨_, _, _, _, _, rfl⟩

/-! ## What a reply says about the message -/

/-- The texts that blame the session or the shape of a message. -/
def sessionErrors : List (List UInt8) :=
  [chars "1 session at a time", chars "One session at a time", chars "Corrupt Type 0 Message",
    chars "Corrupt Type 3 Message", chars "Corrupt Type 6 Messege"]

/-- The replies, each with what the message has passed to get it. -/
inductive Outcome (e : Env) (m : Mem) (g : Daemon) : Option Reply → Prop where
  | rejected {text : List UInt8} (h3 : ¬ Auth3 e m g) (h6 : ¬ Auth6 e m g) :
      Outcome e m g (some (.type2 MessageType2.size text.length text))
  | failed {text : List UInt8} (ht : text ∉ sessionErrors) :
      Outcome e m g (some (.type2 MessageType2.size text.length text))
  | issued {sid : List UInt8} : Outcome e m g (some (.type1 MessageType1.size sid.length sid))
  | start {sid got : List UInt8} (ha : Auth3 e m g) (hl : g.state.lastSent = 1) :
      Outcome e m g (some (.type4 MessageType4.size sid.length got.length sid got))
  | more {sid got : List UInt8} (ha : Auth6 e m g) (hl : g.state.lastSent = 4) :
      Outcome e m g (some (.type4 MessageType4.size sid.length got.length sid got))
  | finish {sid : List UInt8} (ha : Auth6 e m g) (hl : g.state.lastSent = 4) :
      Outcome e m g (some (.type5 MessageType5.size sid.length sid))
  | silent : Outcome e m g none

theorem outcome_rejected {g1 : Daemon} {text : List UInt8} (ht : text.length < 2 ^ 32)
    (h3 : ¬ Auth3 e m g) (h6 : ¬ Auth6 e m g) : Outcome e m g (replyOf (sendError g1 text)) := by
  rw [replyOf_error g1 ht]
  exact .rejected h3 h6

theorem outcome_failed {g1 : Daemon} {text : List UInt8} (ht : text.length < 2 ^ 32)
    (hn : text ∉ sessionErrors) : Outcome e m g (replyOf (sendError g1 text)) := by
  rw [replyOf_error g1 ht]
  exact .failed hn

theorem handle_outcome (hinv : SessionInv g) : Outcome e m g (replyOf (handle e m g)) := by
  have hexit := handle_exit e m g
  -- a message of another type has not passed the checks of this one
  have h3 : ∀ {t : UInt8}, Header.messageType m = t → t ≠ 3 → ¬ Auth3 e m g := fun ht hn ha =>
    hn (ht.symm.trans ha.type)
  have h6 : ∀ {t : UInt8}, Header.messageType m = t → t ≠ 6 → ¬ Auth6 e m g := fun ht hn ha =>
    hn (ht.symm.trans ha.type)
  generalize handle e m g = r at hexit ⊢
  cases hexit with
  | busy0 ht | corrupt0 ht =>
    exact outcome_rejected (by decide) (h3 ht (by decide)) (h6 ht (by decide))
  | accept0 =>
    rw [replyOf_type1 (newSession_terminated m g)]
    exact .issued
  | corrupt3 ht hv => exact outcome_rejected (by decide) (fun ha => hv ha.ver) (h6 ht (by decide))
  | stranger3 ht _ hs => exact outcome_rejected (by decide) (fun ha => hs ha.sid) (h6 ht (by decide))
  | invalid3 | noFile3 | irregular3 | invalid6 => exact outcome_failed (by decide) (by decide)
  | start3 ha hl =>
    rw [replyOf_type4 (hinv.starting hl _)]
    exact .start ha hl
  | stranger6 ht hs => exact outcome_rejected (by decide) (h3 ht (by decide)) (fun ha => hs ha.sid)
  | corrupt6 ht _ hv =>
    exact outcome_rejected (by decide) (h3 ht (by decide)) (fun ha => hv ha.ver)
  | finish6 ha hl =>
    rw [replyOf_type5 (hinv.sending hl)]
    exact .finish ha hl
  | more6 ha hl =>
    rw [replyOf_type4 (hinv.sending hl)]
    exact .more ha hl
  | silent6 => exact .silent
  | other ht =>
    exact outcome_rejected (Nat.lt_of_le_of_lt (invalidType_length_le _) (by decide))
      (fun ha => ht.2.1 ha.type) (fun ha => ht.2.2 ha.type)

/-! ## File data only on authentication -/

/-- **Session authentication.** Once a type 0 message has been accepted, a reply
of type 4 or 5 answers a message that carries the id in the last type 1 packet:
of type 3 straight after that packet, or of type 6 while the file is sent. -/
theorem authenticated (hg : Reachable g) (h1 : ∃ p ∈ g.sent, p.type = 1) {r : Reply}
    (hr : replyOf (handle e m g) = some r) (h45 : r.type = 4 ∨ r.type = 5) :
    ∃ p since sid, g.Issued p since ∧
      p.reply = some (.type1 MessageType1.size sid.length sid) ∧ Spells (g.sessionId e) sid ∧
      ((Header.messageType m = 3 ∧ g.state.lastSent = 1 ∧ r.type = 4 ∧
          AgreeTo (MessageType3.sessionId m) (g.sessionId e) 128 ∧
          Header.messageLength m = MessageType3.size ∧ MessageType3.sidLength m = sid.length) ∨
        (Header.messageType m = 6 ∧ g.state.lastSent = 4 ∧
          AgreeTo (MessageType6.sessionId m) (g.sessionId e) 128 ∧
          Header.messageLength m = MessageType6.size ∧ MessageType6.sidLength m = sid.length)) := by
  obtain ⟨p, since, hi⟩ := exists_issued h1
  have hinv := hg.issuedInv
  have ht := hinv.terminated hi
  have h6 : Auth6 e m g → g.state.lastSent = 4 → Header.messageType m = 6 ∧
      g.state.lastSent = 4 ∧ AgreeTo (MessageType6.sessionId m) (g.sessionId e) 128 ∧
      Header.messageLength m = MessageType6.size ∧
      MessageType6.sidLength m = g.state.sid.length := fun ha hl =>
    ⟨ha.type, hl, ha.agree ht, ((type6Ver_eq_zero_iff _ _).mp ha.ver).2.2, ha.sidLength ht⟩
  refine ⟨p, since, g.state.sid, hi, hinv.first hi, sessionId_spells ht e, ?_⟩
  have ho := handle_outcome (e := e) (m := m) hinv.session
  rw [hr] at ho
  cases ho with
  | rejected | failed | issued => exact absurd h45 (by simp [Reply.type])
  | start ha hl =>
    exact .inl ⟨ha.type, hl, rfl, ha.agree, ((type3Ver_eq_zero_iff m).mp ha.ver).1,
      ha.sidLength ht⟩
  | more ha hl => exact .inr (h6 ha hl)
  | finish ha hl => exact .inr (h6 ha hl)

theorem aliceOpened_type1 : ∃ p ∈ aliceOpened.sent, p.type = 1 := by decide +kernel

theorem start3_replies {f : File} (hinv : SessionInv g) (ha : Auth3 e m g)
    (hl : g.state.lastSent = 1) (hf : e.fopen (pathOf m) = some f) (hr : f.isReg = true) :
    ∃ n l k sid got, replyOf (handle e m g) = some (.type4 n l k sid got) := by
  rw [(Exit.start3 ha hl f hf hr).handle_eq, replyOf_type4 (hinv.starting hl _)]
  exact ⟨_, _, _, _, _, rfl⟩

theorem authenticated_alice : ∃ p since sid, aliceOpened.Issued p since ∧
    p.reply = some (.type1 MessageType1.size sid.length sid) ∧
    AgreeTo (MessageType3.sessionId (memOf (encode3 zeroSid (chars "/etc/motd"))))
      (aliceOpened.sessionId (envOf none)) 128 ∧
    MessageType3.sidLength (memOf (encode3 zeroSid (chars "/etc/motd"))) = sid.length := by
  have hinv := aliceOpened_reachable.sessionInv
  have ht := hinv.terminated (.inl aliceOpened_lastSent)
  have hauth : Auth3 (envOf (some ⟨true, [], []⟩)) (memOf (encode3 zeroSid (chars "/etc/motd")))
      aliceOpened :=
    asks_auth3 (asks_encode3 zeroSid_ne_nul zeroSid_length_le (by decide) (by decide)) ht
      aliceOpened_sid.symm rfl
  obtain ⟨_, _, _, _, _, hreply⟩ := start3_replies hinv hauth aliceOpened_lastSent rfl rfl
  obtain ⟨p, since, sid, hi, hr, -, h | h⟩ :=
    authenticated aliceOpened_reachable aliceOpened_type1 hreply (.inl rfl)
  · exact ⟨p, since, sid, hi, hr, h.2.2.2.1, h.2.2.2.2.2⟩
  · exact absurd h.1 (by decide)

/-! ## What is issued -/

theorem handle_authentic (hinv : SessionInv g) (h : Auth3 e m g ∨ Auth6 e m g)
    {messageLength msgLength : Nat} {text : List UInt8}
    (hr : replyOf (handle e m g) = some (.type2 messageLength msgLength text)) :
    text ∉ sessionErrors := by
  have ho := handle_outcome (e := e) (m := m) hinv
  rw [hr] at ho
  cases ho with
  | rejected h3 h6 => exact (h.elim h3 h6).elim
  | failed ht => exact ht

/-- What a client copies out of a reply of the session is the session id and its length. -/
theorem issued_copy (hinv : IssuedInv g) (hi : g.Issued p since) {q : Packet} (hq : q ∈ p :: since)
    {r : Reply} (hr : q.reply = some r) {n : Nat} {sid : List UInt8} (hn : r.sidLength? = some n)
    (hs : r.sessionId? = some sid) : sid = g.state.sid ∧ n = sid.length := by
  obtain ⟨hsid, hlen⟩ := hinv.carries hi q hq r hr sid hs
  rw [hn, ← hsid] at hlen
  exact ⟨hsid, Option.some.inj hlen⟩

end Getd
