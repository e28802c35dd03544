import Getd.Lib.Reads
import Getd.Authentication

/-!
# Acknowledgements and session ids

A type 6 message passes `strcmp` and `type6Ver` exactly when it carries the id of
`State` with its NUL, its length and the size of the struct (`acceptance`). What
`strcmp` has established keeps the reads of `type6Ver` inside the field.

A type 3 message shows its id to other string functions. The two agree on every
field but an id of full length without its NUL (`agree_iff`).
-/

namespace Getd

open CLib

variable {e : Env} {m : Mem} {g : Daemon}

/-! ## What is read -/

/-- The offsets the loop of `type6Ver` reads, the byte of the last test included. -/
def scanReads (sessionId : Mem) : Nat → UInt8 → List Nat
  | 0, _ => []
  | fuel + 1, endIndex =>
    endIndex.toNat :: if sessionId endIndex.toNat ≠ 0 ∧ endIndex < 129 then
      scanReads sessionId fuel (endIndex + 1) else []

/-- The offsets of `message->sessionId` that `type6Ver` reads, in order. The loop
ends after at most 130 tests. -/
def type6VerReads (message sessionId : Mem) : List Nat :=
  strnlenReads (MessageType6.sessionId message) 128 ++
  strncmpReads sessionId (MessageType6.sessionId message) (MessageType6.sidLength message) ++
  scanReads (MessageType6.sessionId message) 130 0

/-- On a string the loop reads nothing past the NUL. -/
theorem scanReads_le {sessionId : Mem} {w : List UInt8} (hw : Spells sessionId w) :
    ∀ (fuel : Nat) (endIndex : UInt8), endIndex.toNat ≤ w.length →
      ∀ i ∈ scanReads sessionId fuel endIndex, i ≤ w.length := by
  intro fuel
  induction fuel with
  | zero => exact fun _ _ i hi => absurd hi List.not_mem_nil
  | succ fuel ih =>
    intro e he i hi
    rcases List.mem_cons.mp hi with rfl | hi
    · exact he
    · split at hi
      · next hgo =>
        have hlt : e.toNat < 129 := UInt8.lt_iff_toNat_lt.mp hgo.2
        have hs : (e + 1).toNat = e.toNat + 1 := by
          rw [UInt8.toNat_add, show (1 : UInt8).toNat = 1 from rfl, Nat.mod_eq_of_lt (by omega)]
        have hne : e.toNat ≠ w.length := fun h => hgo.1 (h ▸ hw.nul)
        exact ih (e + 1) (by omega) i hi
      · exact absurd hi List.not_mem_nil

theorem type6VerReads_le {sessionId : Mem} {w : List UInt8}
    (hw : Spells (MessageType6.sessionId m) w) :
    ∀ i ∈ type6VerReads m sessionId, i ≤ w.length := by
  intro i hi
  simp only [type6VerReads, List.mem_append] at hi
  rcases hi with (hi | hi) | hi
  · have hle := (mem_strnlenReads.mp hi).2
    rw [hw.strnlen] at hle
    omega
  · exact strncmpReads_le (.inr hw) hi
  · exact scanReads_le hw 130 0 (Nat.zero_le _) i hi

/-! ## Acceptance -/

def Passes6 (e : Env) (m : Mem) (g : Daemon) : Prop :=
  strcmp (MessageType6.sessionId m) (g.sessionId e) = 0 ∧
    type6Ver m ((g.setLastRecieved 6).sessionId e) = 0

/-- The message carries the session id of `State` as a string of its field, the
length of it, and the size of the struct. -/
def Carries6 (e : Env) (m : Mem) (g : Daemon) : Prop :=
  ∃ s, Spells (MessageType6.sessionId m) s ∧ s.length < 129 ∧ Spells (g.sessionId e) s ∧
    MessageType6.sidLength m = s.length ∧ Header.messageLength m = MessageType6.size

structure Acceptance (e : Env) (m : Mem) (g : Daemon) : Prop where
  passes : Passes6 e m g ↔ Carries6 e m g
  stranger : strcmp (MessageType6.sessionId m) (g.sessionId e) ≠ 0 →
    (∃ text, replyOf (handle e m g) = some (.type2 MessageType2.size text.length text)) ∧
      (handle e m g).1.state = g.state
  corrupt : strcmp (MessageType6.sessionId m) (g.sessionId e) = 0 →
    type6Ver m ((g.setLastRecieved 6).sessionId e) ≠ 0 →
    (∃ text, replyOf (handle e m g) = some (.type2 MessageType2.size text.length text)) ∧
      (handle e m g).1.state = { g.state with lastSent := 2, lastRecieved := 6 }
  strcmpReads : ∀ i ∈ strncmpReads (MessageType6.sessionId m) (g.sessionId e) addrSpace, i < 129
  verReads : strcmp (MessageType6.sessionId m) (g.sessionId e) = 0 →
    ∀ i ∈ type6VerReads m ((g.setLastRecieved 6).sessionId e), i < 129
  rounds : ∀ fuel, (scan (MessageType6.sessionId m) fuel 0).toNat =
    strnlen (MessageType6.sessionId m) (min fuel 129)
  retval : (type6Ver m ((g.setLastRecieved 6).sessionId e)).toNat =
    ((type6Codes m ((g.setLastRecieved 6).sessionId e)).map UInt32.toNat).sum

theorem Reachable.terminated (hg : Reachable g) (h1 : ∃ p ∈ g.sent, p.type = 1) :
    g.state.Terminated := by
  obtain ⟨p, since, hi⟩ := exists_issued h1
  exact hg.issuedInv.terminated hi

theorem passes6_iff (ht : g.state.Terminated) : Passes6 e m g ↔ Carries6 e m g := by
  have hle := State.sid_length_le ht
  have hspells := sessionId_spells ht e
  unfold Passes6 Carries6
  rw [strcmp_sessionId ht, type6Ver_eq_zero_iff]
  constructor
  · rintro ⟨hs, ⟨s, hs', hlen, hn⟩, -, hm⟩
    obtain rfl := hs'.unique hs
    exact ⟨_, hs, by omega, hspells, hn, hm⟩
  · rintro ⟨s, hs, hlen, hst, hn, hm⟩
    obtain rfl := hst.unique hspells
    exact ⟨hs, ⟨_, hs, by omega, hn⟩, strncmp_of_spells (sessionId_spells6 ht e) hs _, hm⟩

/-- **Type 6 acceptance is exact** once a session id has been issued. -/
theorem acceptance (hg : Reachable g) (h1 : ∃ p ∈ g.sent, p.type = 1)
    (h6 : Header.messageType m = 6) : Acceptance e m g := by
  have ht := hg.terminated h1
  have hle := State.sid_length_le ht
  have hsum := type6Codes_sum_le m ((g.setLastRecieved 6).sessionId e)
  refine ⟨passes6_iff ht, fun hs => ?_, fun hs hv => ?_, fun i hi => ?_, fun hs i hi => ?_,
    scan_rounds _, ?_⟩
  · rw [(Exit.stranger6 h6 hs).handle_eq, sendError_state]
    exact ⟨⟨_, replyOf_error g (by decide)⟩, rfl⟩
  · rw [(Exit.corrupt6 h6 hs hv).handle_eq, sendError_state]
    exact ⟨⟨_, replyOf_error _ (by decide)⟩, rfl⟩
  · have := strncmpReads_le (.inr (sessionId_spells ht e)) hi
    omega
  · have := type6VerReads_le ((strcmp_sessionId ht).mp hs) i hi
    omega
  · rw [type6Ver_total]
    exact total_toNat (by omega)

theorem acceptance_alice :
    Acceptance (envOf none) (memOf (encode6 zeroSid)) aliceOpened :=
  acceptance aliceOpened_reachable aliceOpened_type1 rfl

/-! ## The session checks of type 3 and type 6 -/

/-- The session part of the type 3 checks, on the field `sessionId` and the length
field `sidLength` of a message. -/
structure Session3 (e : Env) (g : Daemon) (sessionId : Mem) (sidLength : Nat) : Prop where
  length : strnlen sessionId 128 = sidLength
  compare : strncmp sessionId (g.sessionId e) 128 = 0

structure Session6 (e : Env) (g : Daemon) (sessionId : Mem) (sidLength : Nat) : Prop where
  strcmp : strcmp sessionId (g.sessionId e) = 0
  length : strnlen sessionId 128 = sidLength
  compare : strncmp ((g.setLastRecieved 6).sessionId e) sessionId sidLength = 0
  endIndex : sidLength = (scan sessionId 129 0).toNat
  bound : ¬ sidLength > 128
  terminated : scan sessionId 129 0 ≠ 129

/-- With the session part a type 3 message passes, but for the size and the path. -/
theorem session3_iff : (type3Ver m = 0 ∧ strncmp (MessageType3.sessionId m) (g.sessionId e) 128 = 0) ↔
    Session3 e g (MessageType3.sessionId m) (MessageType3.sidLength m) ∧
      Header.messageLength m = MessageType3.size ∧
      strnlen (MessageType3.pathName m) 4096 = MessageType3.pathLength m := by
  rw [type3Ver_eq_zero_iff]
  constructor
  · rintro ⟨⟨hm, hl, hp⟩, hs⟩
    exact ⟨⟨hl, hs⟩, hm, hp⟩
  · rintro ⟨⟨hl, hs⟩, hm, hp⟩
    exact ⟨⟨hm, hl, hp⟩, hs⟩

theorem session6_iff : Passes6 e m g ↔
    Session6 e g (MessageType6.sessionId m) (MessageType6.sidLength m) ∧
      Header.messageLength m = MessageType6.size := by
  have hsum := type6Codes_sum_le m ((g.setLastRecieved 6).sessionId e)
  unfold Passes6
  rw [type6Ver_total, total_eq_zero_iff (by omega) (zero_not_mem_type6Codes _ _)]
  simp only [type6Codes, List.append_eq_nil_iff, codeIf_eq_nil]
  constructor
  · rintro ⟨hs, ⟨⟨⟨⟨hl, hc⟩, he⟩, hb⟩, hn⟩, hm⟩
    exact ⟨⟨hs, not_not.mp hl, not_not.mp hc, not_not.mp he, hb, hn⟩, not_not.mp hm⟩
  · rintro ⟨⟨hs, hl, hc, he, hb, hn⟩, hm⟩
    exact ⟨hs, ⟨⟨⟨⟨not_not.mpr hl, not_not.mpr hc⟩, not_not.mpr he⟩, hb⟩, hn⟩, not_not.mpr hm⟩

variable {sessionId : Mem} {n : Nat}

theorem Session6.iff_spells (ht : g.state.Terminated) :
    Session6 e g sessionId n ↔ Spells sessionId g.state.sid ∧ n = g.state.sid.length := by
  have hle := State.sid_length_le ht
  have hscan := scan_eq_strnlen sessionId
  constructor
  · rintro ⟨hs, -, -, hn, hb, -⟩
    have hsid := (strcmp_sessionId ht).mp hs
    rw [hsid.strnlen] at hscan
    exact ⟨hsid, by omega⟩
  · rintro ⟨hs, rfl⟩
    have hl := hs.strnlen 128
    rw [hs.strnlen] at hscan
    refine ⟨(strcmp_sessionId ht).mpr hs, by omega, strncmp_of_spells (sessionId_spells6 ht e) hs _, by omega,
      by omega, fun h => ?_⟩
    rw [h, show (129 : UInt8).toNat = 129 from rfl] at hscan
    omega

theorem Session3.iff_agree (ht : g.state.Terminated) : Session3 e g sessionId n ↔
    AgreeTo sessionId (g.sessionId e) 128 ∧ n = g.state.sid.length := by
  have hle := State.sid_length_le ht
  constructor
  · rintro ⟨hl, hc⟩
    have ha := strncmp_eq_zero_iff.mp hc
    have := agreeTo_strnlen (sessionId_spells ht e) ha
    exact ⟨ha, by omega⟩
  · rintro ⟨ha, rfl⟩
    have := agreeTo_strnlen (sessionId_spells ht e) ha
    exact ⟨by omega, strncmp_eq_zero_iff.mpr ha⟩

/-- An id of full length is compared without its NUL in type 3. -/
theorem Session3.iff_bytes (ht : g.state.Terminated) (h128 : g.state.sid.length = 128) :
    Session3 e g sessionId n ↔ sessionId.bytes 0 128 = g.state.sid ∧ n = 128 := by
  have hfull := agreeTo_full (s := sessionId) (sessionId_spells ht e)
  rw [h128] at hfull
  rw [Session3.iff_agree ht, hfull, h128]

theorem Session6.iff_bytes (ht : g.state.Terminated) (h128 : g.state.sid.length = 128) :
    Session6 e g sessionId n ↔
      (sessionId.bytes 0 128 = g.state.sid ∧ sessionId 128 = 0) ∧ n = 128 := by
  rw [Session6.iff_spells ht, spells_iff, h128, and_iff_left (State.sid_ne_nul _)]

/-- **The checks of type 3 and type 6 agree**, except on an id of 128 bytes with its
length and no NUL behind it. -/
theorem agree_iff (hg : Reachable g) (ho : g.Open) (sessionId : Mem) (n : Nat) :
    (Session3 e g sessionId n ↔ Session6 e g sessionId n) ↔
      ¬ (n = 128 ∧ g.state.sid.length = 128 ∧ sessionId.bytes 0 128 = g.state.sid ∧
        sessionId 128 ≠ 0) := by
  have ht := hg.sessionInv.terminated ho
  have hle := State.sid_length_le ht
  rcases Nat.lt_or_ge g.state.sid.length 128 with hlt | hge
  · refine iff_of_true ?_ fun h => by omega
    rw [Session3.iff_agree ht, Session6.iff_spells ht, agreeTo_spells (sessionId_spells ht e) hlt]
  · have h128 : g.state.sid.length = 128 := by omega
    rw [Session3.iff_bytes ht h128, Session6.iff_bytes ht h128]
    tauto

theorem aliceOpened_sid_length : aliceOpened.state.sid.length = 128 := by
  rw [aliceOpened_sid]
  exact List.length_replicate

theorem agree_alice :
    (Session3 (envOf none) aliceOpened (memOf (field 129 zeroSid)) 128 ↔
      Session6 (envOf none) aliceOpened (memOf (field 129 zeroSid)) 128) ↔
    ¬ (128 = 128 ∧ aliceOpened.state.sid.length = 128 ∧
      (memOf (field 129 zeroSid)).bytes 0 128 = aliceOpened.state.sid ∧
      memOf (field 129 zeroSid) 128 ≠ 0) :=
  agree_iff aliceOpened_reachable (.inl aliceOpened_lastSent) _ _

theorem agree_unterminated : Reachable aliceOpened ∧ aliceOpened.Open ∧
    Session3 (envOf none) aliceOpened (memOf (List.replicate 129 48)) 128 ∧
    ¬ Session6 (envOf none) aliceOpened (memOf (List.replicate 129 48)) 128 := by
  have ho : aliceOpened.Open := .inl aliceOpened_lastSent
  have ht := aliceOpened_reachable.sessionInv.terminated ho
  refine ⟨aliceOpened_reachable, ho, ?_, fun h => ?_⟩
  · rw [Session3.iff_bytes ht aliceOpened_sid_length, aliceOpened_sid]
    exact ⟨by decide +kernel, rfl⟩
  · have hnul := ((Session6.iff_bytes ht aliceOpened_sid_length).mp h).1.2
    exact absurd hnul (by decide)

end Getd
