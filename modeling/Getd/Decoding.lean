import Getd.Leak

/-!
# What the receiver decodes

`Due.Decoded` is what the receiver of a reply reads: the strings up to their
NUL, the lengths that go with them, the contents. Every reply but the error is
read as it was meant, whatever `outMessage` held. The error is when the byte
behind its text happened to be NUL (`well_formed_iff`).
-/

namespace Getd

open CLib Protocol

variable {e : Env} {m : Mem} {g : Daemon}

namespace Due

/-- The reply at `b`, read as its receiver does, is the one that was due. -/
def Decoded (b : Mem) : Due → Prop
  | nothing => False
  | error text => Header.messageType b = 2 ∧ MessageType2.msgLength b = text.length ∧
      text.length < 257 ∧ Spells (MessageType2.errorMessage b) text
  | issue sid => Header.messageType b = 1 ∧ MessageType1.sidLength b = sid.length ∧
      sid.length < 129 ∧ Spells (MessageType1.sessionId b) sid
  | piece sid got => Header.messageType b = 4 ∧ MessageType4.sidLength b = sid.length ∧
      sid.length < 129 ∧ Spells (MessageType4.sessionId b) sid ∧
      MessageType4.contentLength b = got.length ∧ got.length ≤ 4096 ∧
      (MessageType4.contentBuffer b).bytes 0 got.length = got
  | finish sid => Header.messageType b = 5 ∧ MessageType5.sidLength b = sid.length ∧
      sid.length < 129 ∧ Spells (MessageType5.sessionId b) sid

def sid? : Due → Option (List UInt8)
  | issue sid | piece sid _ | finish sid => some sid
  | nothing | error _ => none

/-- What the reply carries fits its fields. -/
def Fits : Due → Prop
  | nothing => True
  | error text => 0 ∉ text ∧ text.length ≤ 256
  | issue sid | finish sid => 0 ∉ sid ∧ sid.length ≤ 128
  | piece sid got => 0 ∉ sid ∧ sid.length ≤ 128 ∧ got.length ≤ 4096

/-- `header.messageLength` is what is sent. -/
theorem fill_messageLength {d : Due} (hn : d ≠ .nothing) (hf : d.Fits) (b : Buf) :
    Header.messageLength (b.fill d.fields).byte = d.size := by
  cases d with
  | nothing => exact absurd rfl hn
  | error text => exact (out2_fields b (Nat.lt_of_le_of_lt hf.2 (by decide))).2.1
  | issue sid => exact (out1_fields b hf.1 hf.2).2.1
  | piece sid got => exact (out4_fields b none hf.1 hf.2.1 hf.2.2).2.1
  | finish sid => exact (out5_fields b hf.1 hf.2).2.1

/-- The NUL of an error text is the one byte of the decoded fields that no
builder writes. -/
theorem fill_decoded {d : Due} (hn : d ≠ .nothing) (hf : d.Fits) (b : Buf) :
    d.Decoded (b.fill d.fields).byte ↔
      ∀ text, d = .error text → b.byte (12 + text.length) = 0 := by
  cases d with
  | nothing => exact absurd rfl hn
  | error text =>
    obtain ⟨htype, -, hlen, htext⟩ := out2_fields b (Nat.lt_of_le_of_lt hf.2 (by decide))
    have hgap : MessageType2.errorMessage (out2 b text).byte text.length =
        b.byte (12 + text.length) := by
      unfold MessageType2.errorMessage out2
      rw [Mem.off_apply, Buf.store_byte_out (by omega), Buf.store_byte_out (by omega),
        Buf.store_byte_out (.inr (by rw [le32_length]; omega)),
        Buf.store_byte_out (.inr (by rw [List.length_singleton]; omega)),
        Buf.store_byte_out (.inr (by rw [le32_length]; omega))]
    constructor
    · rintro ⟨-, -, -, hs⟩ t ht
      cases ht
      exact hgap.symm.trans hs.nul
    · intro h
      refine ⟨htype, hlen, Nat.lt_succ_of_le hf.2, ?_⟩
      exact spells_iff.mpr ⟨htext, hgap.trans (h text rfl), hf.1⟩
  | issue sid =>
    obtain ⟨htype, -, hlen, hs⟩ := out1_fields b hf.1 hf.2
    exact iff_of_true ⟨htype, hlen, Nat.lt_succ_of_le hf.2, hs⟩ fun _ h => nomatch h
  | piece sid got =>
    obtain ⟨htype, -, hlen, hcount, hs, hgot⟩ := out4_fields b none hf.1 hf.2.1 hf.2.2
    exact iff_of_true ⟨htype, hlen, Nat.lt_succ_of_le hf.2.1, hs, hcount, hf.2.2, hgot⟩
      fun _ h => nomatch h
  | finish sid =>
    obtain ⟨htype, -, hlen, hs⟩ := out5_fields b hf.1 hf.2
    exact iff_of_true ⟨htype, hlen, Nat.lt_succ_of_le hf.2, hs⟩ fun _ h => nomatch h

end Due

/-! ## What is due fits -/

theorem chars_toString_ne_nul (n : Nat) : 0 ∉ chars (toString n) := by
  intro h
  obtain ⟨c, hc, hz⟩ := List.mem_map.mp h
  have hdigit : c.isDigit = true :=
    Nat.isDigit_of_mem_toDigits (by decide) (by decide) (Nat.toList_repr ▸ hc)
  obtain ⟨h0, h9⟩ := Char.isDigit_iff_toNat.mp hdigit
  have h48 : '0'.toNat = 48 := rfl
  have h57 : '9'.toNat = 57 := rfl
  have hnat := congrArg UInt8.toNat hz
  rw [UInt8.toNat_ofNat', UInt8.toNat_zero] at hnat
  omega

theorem chars_append (s t : String) : chars (s ++ t) = chars s ++ chars t := by
  simp only [chars, String.toList_append, List.map_append]

theorem invalidType_ne_nul (t : UInt8) : 0 ∉ invalidType t := by
  unfold invalidType
  rw [chars_append, chars_append, List.mem_append, List.mem_append, not_or, not_or]
  exact ⟨⟨by decide, chars_toString_ne_nul _⟩, by decide⟩

theorem fits_sid {s : State} (ht : s.Terminated) : 0 ∉ s.sid ∧ s.sid.length ≤ 128 :=
  ⟨State.sid_ne_nul s, State.sid_length_le ht⟩

/-- What can be due. The texts of the errors fit. -/
theorem due_cases {motive : Due → Prop} (herror : ∀ text, (Due.error text).Fits → motive (.error text))
    (hissue : motive (.issue (newSession m g).state.sid))
    (hpiece : ∀ got : List UInt8, got.length ≤ 4096 → g.state.lastSent = 1 ∨ g.state.lastSent = 4 →
      motive (.piece g.state.sid got))
    (hfinish : g.state.lastSent = 4 → motive (.finish g.state.sid)) (hnothing : motive .nothing) :
    motive (due e m g) := by
  unfold due
  split
  · split
    · exact herror _ ⟨by decide, by decide⟩
    split
    · exact herror _ ⟨by decide, by decide⟩
    · exact hissue
  split
  · split
    · exact herror _ ⟨by decide, by decide⟩
    split
    · exact herror _ ⟨by decide, by decide⟩
    split
    · exact herror _ ⟨by decide, by decide⟩
    next hl =>
      split
      · exact herror _ ⟨by decide, by decide⟩
      split
      · exact hpiece _ (Stream.fread_length_le _ _) (.inl (not_not.mp hl))
      · exact herror _ ⟨by decide, by decide⟩
  split
  · split
    · exact herror _ ⟨by decide, by decide⟩
    split
    · exact herror _ ⟨by decide, by decide⟩
    split
    next hl =>
      split
      · exact hfinish hl
      · exact hpiece _ (got_length_le g 4096) (.inr hl)
    split
    · exact herror _ ⟨by decide, by decide⟩
    · exact hnothing
  · exact herror _ ⟨invalidType_ne_nul _, Nat.le_trans (invalidType_length_le _) (by decide)⟩

theorem due_fits (hinv : SessionInv g) : (due e m g).Fits := by
  refine due_cases (motive := Due.Fits) (fun _ h => h) ?_ (fun got hlen hl => ?_) (fun hl => ?_) trivial
  · exact fits_sid (newSession_terminated m g)
  · have hs := fits_sid (hinv.terminated hl)
    exact ⟨hs.1, hs.2, hlen⟩
  · exact fits_sid (hinv.terminated (.inr hl))

/-! ## Every reply -/

/-- The packet sent, if any, is read by its receiver as the reply that is due,
under the session id of `State`, and is as long as its header says. -/
def WellFormed (e : Env) (m : Mem) (g : Daemon) : Prop :=
  ∀ p, (handle e m g).2 = some p →
    (due e m g).Decoded p.buf.byte ∧ Header.messageLength p.buf.byte = p.size ∧
      ∀ sid, (due e m g).sid? = some sid → sid = (handle e m g).1.state.sid

/-- A packet is the fields of the reply that is due, over the old `outMessage`. -/
theorem handle_packet (hinv : SessionInv g) {p : Packet} (hp : (handle e m g).2 = some p) :
    due e m g ≠ .nothing ∧ p.buf.byte = (g.outMessage.fill (due e m g).fields).byte ∧
      p.size = (due e m g).size := by
  have himage := handle_image (e := e) (m := m) hinv
  unfold sentImage at himage
  rw [hp, Option.map_some] at himage
  cases hd : due e m g with
  | nothing =>
    rw [hd] at himage
    cases himage
  | error | issue | piece | finish =>
    rw [hd] at himage
    obtain ⟨hb, hs⟩ := Prod.mk.inj (Option.some.inj himage)
    exact ⟨nofun, hb, hs⟩

theorem handle_sid (hinv : SessionInv g) {p : Packet} (hp : (handle e m g).2 = some p)
    {sid : List UInt8} (hs : (due e m g).sid? = some sid) : sid = (handle e m g).1.state.sid := by
  obtain ⟨hn, hb, -⟩ := handle_packet hinv hp
  have hf := due_fits (e := e) (m := m) hinv
  have hr : replyOf (handle e m g) =
      Reply.decode (g.outMessage.fill (due e m g).fields).byte := by
    rw [replyOf, hp, ← hb]
    rfl
  cases hd : due e m g with
  | nothing => exact absurd hd hn
  | error text =>
    rw [hd] at hs
    cases hs
  | issue s =>
    rw [hd] at hs hf hr
    cases hs
    exact handle_carries hinv (hr.trans (decode_out1 _ hf.1 hf.2)) rfl
  | piece s got =>
    rw [hd] at hs hf hr
    cases hs
    exact handle_carries hinv (hr.trans (decode_out4 _ none hf.1 hf.2.1 hf.2.2)) rfl
  | finish s =>
    rw [hd] at hs hf hr
    cases hs
    exact handle_carries hinv (hr.trans (decode_out5 _ hf.1 hf.2)) rfl

theorem exists_packet (hinv : SessionInv g) (hn : due e m g ≠ .nothing) :
    ∃ p, (handle e m g).2 = some p := by
  cases hp : (handle e m g).2 with
  | some p => exact ⟨p, rfl⟩
  | none =>
    have himage := handle_image (e := e) (m := m) hinv
    unfold sentImage at himage
    rw [hp, Option.map_none] at himage
    cases hd : due e m g with
    | nothing => exact absurd hd hn
    | error | issue | piece | finish =>
      rw [hd] at himage
      cases himage

/-- **Replies decode to what was meant**, over any contents of `outMessage`,
exactly when an error text finds a NUL behind it. -/
theorem well_formed_iff (hg : Reachable g) (b : Buf) :
    WellFormed e m { g with outMessage := b } ↔
      ∀ text, due e m g = .error text → b.byte (12 + text.length) = 0 := by
  have hinv : SessionInv { g with outMessage := b } := hg.sessionInv.congr rfl
  have hnow : SameNow g { g with outMessage := b } := ⟨rfl, fun _ => rfl, fun _ => rfl⟩
  have hf := due_fits (e := e) (m := m) hinv
  rw [← hnow.due]
  constructor
  · intro h text hd
    obtain ⟨p, hp⟩ := exists_packet (e := e) (m := m) hinv (by rw [hd]; exact nofun)
    obtain ⟨hn, hb, -⟩ := handle_packet hinv hp
    have hdec := (h p hp).1
    rw [hb] at hdec
    exact (Due.fill_decoded hn hf b).mp hdec text hd
  · intro h p hp
    obtain ⟨hn, hb, hs⟩ := handle_packet hinv hp
    refine ⟨?_, ?_, fun sid => handle_sid hinv hp⟩
    · rw [hb]
      exact (Due.fill_decoded hn hf b).mpr h
    · rw [hb, hs]
      exact Due.fill_messageLength hn hf b

theorem well_formed_alice :
    due (envOf none) (memOf (encode0 (chars "alice"))) zeroBoot =
        .issue (newSession (memOf (encode0 (chars "alice"))) zeroBoot).state.sid ∧
      WellFormed (envOf none) (memOf (encode0 (chars "alice")))
        { zeroBoot with outMessage := ⟨fun _ => 255, fun _ => none⟩ } := by
  have hdue : due (envOf none) (memOf (encode0 (chars "alice"))) zeroBoot =
      .issue (newSession (memOf (encode0 (chars "alice"))) zeroBoot).state.sid := by
    rw [due, if_pos (by decide), if_neg (by decide), if_neg (not_not.mpr alice_introduces.ver)]
  have hreach : Reachable zeroBoot := zeroBootOver_reachable _
  refine ⟨hdue, (well_formed_iff hreach _).mpr fun text h => ?_⟩
  rw [hdue] at h
  cases h

/-- The text of an unrecognized type, after a longer one, is read with the last
digit of the other behind it. -/
theorem unknown_misread : Reachable afterUnknown ∧
    due (envOf none) (memOf [7]) afterUnknown = .error (invalidType 7) ∧
    ¬ WellFormed (envOf none) (memOf [7]) afterUnknown := by
  have hdue : due (envOf none) (memOf [7]) afterUnknown = .error (invalidType 7) := rfl
  refine ⟨Mealy.Reach.run (zeroBootOver_reachable _) _, hdue, fun h => ?_⟩
  have hp : (handle (envOf none) (memOf [7]) afterUnknown).2 =
      some ⟨out2 afterUnknown.outMessage (invalidType 7), MessageType2.size⟩ := by
    rw [(Exit.other (by decide)).handle_eq, sendError_packet]
    rfl
  have hdec := (h _ hp).1
  rw [hdue] at hdec
  have hnul := hdec.2.2.2.nul
  have hdigit : MessageType2.errorMessage (out2 afterUnknown.outMessage (invalidType 7)).byte
      (invalidType 7).length = 48 := by decide +kernel
  rw [hdigit] at hnul
  exact absurd hnul (by decide)

end Getd
