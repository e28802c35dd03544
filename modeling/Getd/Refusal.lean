import Getd.Residue

/-!
# One session at a time

What a message that does not carry the session id does to an open session. The
handler of type 3 sets `lastSent` before it knows who sent the message. The others
leave the session alone, but the text of their refusal stays in `outMessage`, where
the next error text that ends inside it shows one character of it. So nothing is
touched when the message is not of type 3 and `outMessage` held that character
before (`untouched_iff`).
-/

namespace Getd

open CLib Protocol Buf

variable {e : Env} {m : Mem} {g : Daemon}

/-- A message that does not carry the id of the session: its `sessionId`, where
it has one, holds another string. -/
def Foreign (m : Mem) (g : Daemon) : Prop :=
  (Header.messageType m = 3 → ¬ Spells (MessageType3.sessionId m) g.state.sid) ∧
    (Header.messageType m = 6 → ¬ Spells (MessageType6.sessionId m) g.state.sid)

instance (m : Mem) (g : Daemon) : Decidable (Foreign m g) := inferInstanceAs (Decidable (_ ∧ _))

/-- The message is refused and the session, its stream and all that is read of later
replies are as if it had not come. -/
structure Untouched (e : Env) (m : Mem) (g : Daemon) : Prop where
  refused : ∃ msgLength text,
    replyOf (handle e m g) = some (.type2 MessageType2.size msgLength text)
  sessionId : (handle e m g).1.state.sessionId = g.state.sessionId
  userName : (handle e m g).1.state.userName = g.state.userName
  lastSent : (handle e m g).1.state.lastSent = g.state.lastSent
  sendFile : (handle e m g).1.sendFile = g.sendFile
  streams : (handle e m g).1.streams = g.streams
  later : ReadAlike g (handle e m g).1

/-- The text that refuses a message of this type to an open session of another. -/
def refusal (type : UInt8) : List UInt8 :=
  if type = 0 then chars "1 session at a time"
  else if type = 6 then chars "One session at a time"
  else invalidType type

/-- Every byte that shows holds what the error text stores there: its character, or
the NUL that the text has one byte too far behind. -/
def Unnoticed (text : List UInt8) (g : Daemon) : Prop :=
  ∀ l, g.Shows l →
    (∀ h : l < text.length, g.outMessage.byte (12 + l) = text[l]) ∧
      (l = text.length + 1 → g.outMessage.byte (12 + l) = 0)

theorem refusal_length_lt (type : UInt8) : (refusal type).length < 2 ^ 32 := by
  unfold refusal
  split
  · decide
  split
  · decide
  · exact Nat.lt_of_le_of_lt (invalidType_length_le _) (by decide)

/-! ## What a refusal leaves -/

/-- An error reply on an unchanged process touches nothing but `outMessage`. -/
theorem sendError_core (g : Daemon) (text : List UInt8) : SameCore g (sendError g text).1 := by
  rw [sendError_eq]
  exact ⟨rfl, rfl, rfl, rfl, rfl⟩

theorem out2_char (b : Buf) (text : List UInt8) {l : Nat} (hl : l < text.length) :
    (out2 b text).byte (12 + l) = text[l] := by
  unfold out2
  rw [store_byte_out (by omega), store_byte_in hl]

/-- The bytes that show are those of before exactly when they hold the text already. -/
theorem alike_sendError (g : Daemon) (text : List UInt8) :
    Alike g (sendError g text).1 ↔ Unnoticed text g := by
  rw [sendError_eq]
  refine forall₂_congr fun l _ => ?_
  show (out2 g.outMessage text).byte (12 + l) = g.outMessage.byte (12 + l) ↔ _
  rcases Nat.lt_or_ge l text.length with hlt | hge
  · rw [out2_char _ _ hlt]
    exact ⟨fun h => ⟨fun _ => h.symm, by omega⟩, fun h => (h.1 hlt).symm⟩
  by_cases hnul : l = text.length + 1
  · subst hnul
    rw [out2_nul]
    exact ⟨fun h => ⟨by omega, fun _ => h.symm⟩, fun h => (h.2 rfl).symm⟩
  · have hn : ¬ Covers (Due.error text).fields (12 + l) := fun h => by
      have := covers_error.mp h
      omega
    exact iff_of_true (fill_gap hn g.outMessage).1 ⟨by omega, fun h => absurd h hnul⟩

/-- The same text once more is not noticed. -/
theorem unnoticed_again (g : Daemon) (text : List UInt8) : Unnoticed text (sendError g text).1 := by
  intro l _
  rw [sendError_eq]
  refine ⟨fun h => out2_char _ _ h, ?_⟩
  rintro rfl
  exact out2_nul _ _

/-- Nor is it behind an answer that writes none of the bytes that show. -/
theorem Unnoticed.next {text : List UInt8} (hu : Unnoticed text g) (hinv : SessionInv g)
    (hn : ∀ l, 13 ≤ l → l < 28 → ¬ Covers (due e m g).fields (12 + l)) :
    Unnoticed text (handle e m g).1 := by
  intro l hl
  have hcov := hn l hl.bounds.1 hl.bounds.2
  rw [handle_outMessage hinv, (fill_gap hcov _).1]
  exact hu l ((shows_handle hl).resolve_right hcov)

/-- A foreign message to an open session, when it is not of type 3, is refused
on the spot. -/
theorem handle_foreign (hinv : SessionInv g) (ho : g.Open) (hf : Foreign m g)
    (h3 : Header.messageType m ≠ 3) :
    handle e m g = sendError g (refusal (Header.messageType m)) := by
  unfold refusal
  by_cases h0 : Header.messageType m = 0
  · rw [if_pos h0]
    exact (Exit.busy0 h0 ho.busy).handle_eq
  by_cases h6 : Header.messageType m = 6
  · have hn : strcmp (MessageType6.sessionId m) (g.sessionId e) ≠ 0 := fun h =>
      hf.2 h6 ((strcmp_sessionId (hinv.terminated ho)).mp h)
    rw [if_neg h0, if_pos h6]
    exact (Exit.stranger6 h6 hn).handle_eq
  · rw [if_neg h0, if_neg h6]
    exact (Exit.other ⟨h0, h3, h6⟩).handle_eq

theorem handle_type3_lastSent (h3 : Header.messageType m = 3) (hinv : SessionInv g) :
    (handle e m g).1.state.lastSent = 2 ∨
      ∃ a b c d f, replyOf (handle e m g) = some (.type4 a b c d f) := by
  have hexit := handle_exit e m g
  have hne : ∀ {t : UInt8}, Header.messageType m = t → t ≠ 3 → False := fun ht h =>
    h (ht.symm.trans h3)
  generalize handle e m g = r at hexit ⊢
  cases hexit with
  | busy0 ht | corrupt0 ht | accept0 ht | stranger6 ht | corrupt6 ht =>
    exact (hne ht (by decide)).elim
  | finish6 ha | more6 ha | invalid6 ha | silent6 ha => exact (hne ha.type (by decide)).elim
  | other ht => exact absurd h3 ht.2.1
  | corrupt3 | stranger3 | invalid3 | noFile3 | irregular3 =>
    refine .inl ?_
    rw [sendError_state]
    rfl
  | start3 ha hl f hf hr =>
    exact .inr ⟨_, _, _, _, _, replyOf_type4 (hinv.starting hl _)⟩

theorem Untouched.not_type3 (hu : Untouched e m g) (hinv : SessionInv g) (ho : g.Open) :
    Header.messageType m ≠ 3 := by
  intro h3
  obtain ⟨_, _, hr⟩ := hu.refused
  rcases handle_type3_lastSent h3 hinv (e := e) with h | ⟨_, _, _, _, _, h4⟩
  · exact ho.busy.2 (hu.lastSent.symm.trans h)
  · exact absurd (h4.symm.trans hr) (by simp)

/-- **One session at a time.** A message that does not carry the session id leaves an
open session untouched exactly when it is not of type 3 and every byte that shows holds
what its refusal stores there. -/
theorem untouched_iff (hg : Reachable g) (ho : g.Open) (hf : Foreign m g) :
    Untouched e m g ↔
      Header.messageType m ≠ 3 ∧ Unnoticed (refusal (Header.messageType m)) g := by
  have hinv := hg.sessionInv
  have hlater : Header.messageType m ≠ 3 → (ReadAlike g (handle e m g).1 ↔
      Unnoticed (refusal (Header.messageType m)) g) := fun h3 => by
    rw [handle_foreign hinv ho hf h3, readings_iff hinv (sendError_core _ _) ho, alike_sendError]
  constructor
  · intro hu
    have h3 := hu.not_type3 hinv ho
    exact ⟨h3, (hlater h3).mp hu.later⟩
  · rintro ⟨h3, hun⟩
    have heq := handle_foreign (e := e) hinv ho hf h3
    have hcore := sendError_core g (refusal (Header.messageType m))
    refine ⟨⟨_, _, heq ▸ replyOf_error g (refusal_length_lt _)⟩, ?_, ?_, ?_, ?_, ?_,
      (hlater h3).mpr hun⟩ <;> rw [heq]
    · rw [hcore.state]
    · rw [hcore.state]
    · rw [hcore.state]
    · exact hcore.sendFile
    · exact hcore.streams

/-! ## Messages under another id -/

theorem Asks.foreign {sid path : List UInt8} {n : Nat} (h : Asks m n sid path)
    (hs : sid ≠ g.state.sid) : Foreign m g := by
  have h36 : (3 : UInt8) ≠ 6 := by decide
  exact ⟨fun _ hg => hs (h.sessionId.unique hg), fun h6 => absurd (h.type.symm.trans h6) h36⟩

theorem Acknowledges.foreign {sid : List UInt8} {n : Nat} (h : Acknowledges m n sid)
    (hs : sid ≠ g.state.sid) : Foreign m g := by
  have h63 : (6 : UInt8) ≠ 3 := by decide
  exact ⟨fun h3 => absurd (h.type.symm.trans h3) h63, fun _ hg => hs (h.sessionId.unique hg)⟩

theorem aliceOpened_open : aliceOpened.Open := .inl aliceOpened_lastSent

theorem bob_ne_sid : chars "bob" ≠ aliceOpened.state.sid := by
  rw [aliceOpened_sid]
  decide

theorem foreign_other (ht : Header.messageType m ≠ 3 ∧ Header.messageType m ≠ 6) (g : Daemon) :
    Foreign m g := ⟨fun h => absurd h ht.1, fun h => absurd h ht.2⟩

def alicePestered : Daemon := mainLoop.run aliceOpened [recvOf [7] none]

theorem alicePestered_reachable : Reachable alicePestered := aliceOpened_reachable.run _

theorem alicePestered_open : alicePestered.Open := .inl (by decide +kernel)

theorem iteration_unknown (g : Daemon) {t : UInt8} (ht : t ≠ 0 ∧ t ≠ 3 ∧ t ≠ 6)
    (file : Option File) : iteration g (recvOf [t] file) =
      sendError { g with buffer := nnRecv g.buffer (some [t]) } (invalidType t) := by
  have htype : Header.messageType (view (nnRecv g.buffer (some [t])) (recvOf [t] file).past) = t :=
    messageType_recv _ _ t []
  have hexit := Exit.other (e := (recvOf [t] file).env)
    (g := { g with buffer := nnRecv g.buffer (some [t]) }) (htype.symm ▸ ht)
  rw [htype] at hexit
  exact hexit.handle_eq

theorem unnoticed_unknown (g : Daemon) {t : UInt8} (ht : t ≠ 0 ∧ t ≠ 3 ∧ t ≠ 6)
    (file : Option File) : Unnoticed (invalidType t) (iteration g (recvOf [t] file)).1 := by
  rw [iteration_unknown g ht]
  exact unnoticed_again _ _

theorem untouched_unknown : Untouched (envOf none) (memOf [7]) alicePestered := by
  exact (untouched_iff alicePestered_reachable alicePestered_open
    (foreign_other (by decide) _)).mpr ⟨by decide, unnoticed_unknown aliceOpened (by decide) none⟩

/-- The `g` of its refusal takes the place of a character of the id of `alice`. -/
theorem noticed_unknown (t : UInt8) (ht : (invalidType t)[13]? = some 103) :
    ¬ Unnoticed (invalidType t) aliceOpened := by
  intro hun
  obtain ⟨hlt, hg⟩ := List.getElem?_eq_some_iff.mp ht
  have h0 : aliceOpened.outMessage.byte 25 = 48 := by decide +kernel
  have hb : aliceOpened.outMessage.byte 25 = _ := (hun 13 (.inl (by decide))).1 hlt
  rw [hg, h0] at hb
  exact absurd hb (by decide)

/-- A request under another id ends the session of `alice`. A message of an unknown type
does not, but its refusal shows in the next reply to her. -/
theorem touched_request :
    (Reachable aliceOpened ∧ aliceOpened.Open ∧
      Foreign (memOf (encode3 (chars "bob") (chars "/etc/hosts"))) aliceOpened ∧
      ¬ Untouched (envOf none) (memOf (encode3 (chars "bob") (chars "/etc/hosts"))) aliceOpened) ∧
    Foreign (memOf [100]) aliceOpened ∧
      ¬ Untouched (envOf none) (memOf [100]) aliceOpened := by
  have hm : Asks (memOf (encode3 (chars "bob") (chars "/etc/hosts"))) 3 (chars "bob")
      (chars "/etc/hosts") := asks_encode3 (by decide) (by decide) (by decide) (by decide)
  refine ⟨⟨aliceOpened_reachable, aliceOpened_open, hm.foreign bob_ne_sid, fun hu => ?_⟩,
    foreign_other (by decide) _, fun hu => ?_⟩
  · exact hu.not_type3 aliceOpened_reachable.sessionInv aliceOpened_open hm.type
  · exact noticed_unknown 100 (by decide) ((untouched_iff aliceOpened_reachable aliceOpened_open
      (foreign_other (by decide) _)).mp hu).2

end Getd
