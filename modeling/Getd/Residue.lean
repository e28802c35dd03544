import Getd.Decoding
import Getd.SessionIds

/-!
# What an error text carries over

An error text is stored without a NUL behind it, so who reads it up to its NUL may read
one byte more, which `outMessage` held before. `Reply.read` reads a reply in that way. Two
processes that differ in `outMessage` only are read alike in all that follows exactly when
they agree on each byte that a later error text may end in front of (`readings_iff`).
-/

namespace Getd

open CLib Buf

variable {e : Env} {m : Mem} {g h : Daemon} {l : Nat} {text : List UInt8}

/-! ## Replies as a C program reads them -/

/-- `errorMessage` up to its NUL. -/
def errorField (m : Mem) : List UInt8 := (m.bytes 0 257).takeWhile (· ≠ 0)

/-- The reply at `m`, with the error text, too, read up to its NUL. -/
def Reply.read (m : Mem) : Option Reply :=
  if Header.messageType m = 2 then
    some (.type2 (Header.messageLength m) (MessageType2.msgLength m)
      (errorField (MessageType2.errorMessage m)))
  else Reply.decode m

def readingOf (r : Daemon × Option Packet) : Option Reply := r.2.bind fun p => Reply.read p.buf.byte

/-- What the byte behind an error text adds to it. -/
def stale (x : UInt8) : List UInt8 := if x = 0 then [] else [x]

/-- What is read of the reply that is due, sent from the buffer `b`. -/
def Due.reading (b : Buf) : Due → Option Reply
  | nothing => none
  | error text => some (.type2 MessageType2.size text.length
      (text ++ stale (b.byte (12 + text.length))))
  | issue sid => some (.type1 MessageType1.size sid.length sid)
  | piece sid got => some (.type4 MessageType4.size sid.length got.length sid got)
  | finish sid => some (.type5 MessageType5.size sid.length sid)

theorem stale_inj {x y : UInt8} (h : stale x = stale y) : x = y := by
  unfold stale at h
  split at h <;> split at h <;> simp_all

theorem errorField_of_spells {s : List UInt8} (hm : Spells m s) (hs : s.length < 257) :
    errorField m = s := by
  refine hm.takeWhile (fun i hi _ => ?_) (by rwa [Mem.bytes_length])
  rw [Mem.bytes_getElem, Nat.zero_add]

theorem out2_nul (b : Buf) (text : List UInt8) :
    (out2 b text).byte (12 + (text.length + 1)) = 0 := by
  have hlt : 0 < [(0 : UInt8)].length := Nat.zero_lt_one
  exact store_byte_in hlt

theorem out2_behind (b : Buf) (ht : text.length < 256) :
    (out2 b text).byte (12 + text.length) = b.byte (12 + text.length) ∧
      (out2 b text).byte (12 + text.length + 1) = 0 := by
  have hgap : (Due.error text).Gap (12 + text.length) :=
    ⟨show 12 + text.length < 272 by omega, .inr (.inl rfl)⟩
  constructor
  · have hd : Due.error text ≠ .nothing := nofun
    exact (fill_gap ((Due.gap_iff hd).mp hgap).2 b).1
  · exact out2_nul b text

/-- The byte behind the text is read with it. -/
theorem read_out2 (b : Buf) (h0 : 0 ∉ text) (ht : text.length < 256) :
    Reply.read (out2 b text).byte = (Due.error text).reading b := by
  obtain ⟨htype, hlen, hmsg, htext⟩ := out2_fields b (Nat.lt_trans ht (by decide))
  obtain ⟨hgap, hnul⟩ := out2_behind b ht
  have hs : Spells (MessageType2.errorMessage (out2 b text).byte)
      (text ++ stale (b.byte (12 + text.length))) := by
    refine spells_append htext h0 ?_
    unfold stale
    split
    · next hz => exact hgap.trans hz
    · next hz => exact ⟨hgap, hz, hnul⟩
  have hlt : (text ++ stale (b.byte (12 + text.length))).length < 257 := by
    unfold stale
    rw [List.length_append]
    split
    · exact Nat.lt_succ_of_lt ht
    · exact Nat.succ_lt_succ ht
  unfold Reply.read
  rw [if_pos htype, hlen, hmsg, errorField_of_spells hs hlt]
  rfl

theorem read_of_decode {r : Reply} (hd : Reply.decode m = some r) (ht : Header.messageType m ≠ 2) :
    Reply.read m = some r := (if_neg ht).trans hd

theorem Due.read_fill {d : Due} (hn : d ≠ .nothing) (hf : d.Fits)
    (hs : ∀ text, d = .error text → text.length < 256) (b : Buf) :
    Reply.read (b.fill d.fields).byte = d.reading b := by
  cases d with
  | nothing => exact absurd rfl hn
  | error text => exact read_out2 b hf.1 (hs text rfl)
  | issue sid =>
    refine read_of_decode (decode_out1 b hf.1 hf.2) ?_
    exact (out1_fields b hf.1 hf.2).1.trans_ne (by decide)
  | piece sid got =>
    refine read_of_decode (decode_out4 b none hf.1 hf.2.1 hf.2.2) ?_
    exact (out4_fields b none hf.1 hf.2.1 hf.2.2).1.trans_ne (by decide)
  | finish sid =>
    refine read_of_decode (decode_out5 b hf.1 hf.2) ?_
    exact (out5_fields b hf.1 hf.2).1.trans_ne (by decide)

/-! ## The error texts -/

theorem invalidType_length (t : UInt8) :
    (invalidType t).length = 25 ∨ (invalidType t).length = 26 ∨ (invalidType t).length = 27 := by
  have hle := invalidType_length_le t
  have hpos : 0 < (chars (toString t.toNat)).length := by
    rw [chars, List.length_map, String.length_toList]
    exact Nat.length_repr_pos
  have hl : (invalidType t).length = 23 + (chars (toString t.toNat)).length + 1 := by
    unfold invalidType
    rw [chars_append, chars_append, List.length_append, List.length_append]
    rfl
  omega

/-- The id that the next session will have. -/
def Daemon.nextSid (g : Daemon) : List UInt8 := (drawnId g.rand g.drawn).toList.takeWhile (· ≠ 0)

/-- The lengths of the error texts that any message can meet, whatever was sent last. -/
def alwaysLengths : List Nat := [13, 19, 21, 22, 25, 26, 27]

/-- The lengths of the error texts that a request for a file meets. -/
def fileLengths : List Nat := [17, 18]

/-- An error text of `l` bytes may come before byte `12 + l` of `outMessage` is written
again: at once, or in the next session if its id is not that long. -/
def Daemon.Shows (g : Daemon) (l : Nat) : Prop :=
  l ∈ alwaysLengths ∨
    (l ∈ fileLengths ∧ (g.state.lastSent = 1 ∨ g.nextSid.length < l))

instance (g : Daemon) (l : Nat) : Decidable (g.Shows l) := inferInstanceAs (Decidable (_ ∨ _))

theorem invalidType_always (t : UInt8) : (invalidType t).length ∈ alwaysLengths := by
  rcases invalidType_length t with h | h | h <;> rw [h] <;> decide

/-- An error text that is due shows. -/
theorem due_error (h : due e m g = .error text) : g.Shows text.length := by
  unfold due at h
  split at h
  · split at h
    · cases h; exact .inl (by decide)
    split at h
    · cases h; exact .inl (by decide)
    · cases h
  split at h
  · split at h
    · cases h; exact .inl (by decide)
    split at h
    · cases h; exact .inl (by decide)
    split at h
    · cases h; exact .inl (by decide)
    next hl =>
      split at h
      · cases h; exact .inr ⟨by decide, .inl (not_not.mp hl)⟩
      · split at h
        · cases h
        · cases h; exact .inr ⟨by decide, .inl (not_not.mp hl)⟩
  split at h
  · split at h
    · cases h; exact .inl (by decide)
    split at h
    · cases h; exact .inl (by decide)
    split at h
    · split at h <;> cases h
    split at h
    · cases h; exact .inl (by decide)
    · cases h
  · cases h
    exact .inl (invalidType_always _)

theorem Daemon.Shows.bounds (h : g.Shows l) : 13 ≤ l ∧ l < 28 := by
  rcases h with h | ⟨h, -⟩ <;> revert h l <;> decide

/-! ## One message -/

/-- A message is answered with `outMessage` as its handler leaves it, or not at all. -/
theorem handle_sends (e : Env) (m : Mem) (g : Daemon) :
    (∃ r, handle e m g = nnSend r) ∨ handle e m g = (g.setLastRecieved 6, none) := by
  have hexit := handle_exit e m g
  generalize handle e m g = r at hexit ⊢
  cases hexit with
  | silent6 => exact .inr rfl
  | busy0 | corrupt0 | accept0 | corrupt3 | stranger3 | invalid3 | noFile3 | irregular3 | start3
  | stranger6 | corrupt6 | finish6 | more6 | invalid6 | other => exact .inl ⟨_, rfl⟩

theorem due_nothing (hinv : SessionInv g) (hn : due e m g = .nothing) :
    handle e m g = (g.setLastRecieved 6, none) := by
  rcases handle_sends e m g with ⟨r, hr⟩ | hr
  · exact absurd hn (handle_packet hinv (congrArg Prod.snd hr)).1
  · exact hr

/-- What is due is written over `outMessage`. -/
theorem handle_outMessage (hinv : SessionInv g) :
    (handle e m g).1.outMessage.byte = (g.outMessage.fill (due e m g).fields).byte := by
  by_cases hn : due e m g = .nothing
  · rw [due_nothing hinv hn, hn]
    rfl
  · obtain ⟨p, hp⟩ := exists_packet hinv hn
    rcases handle_sends e m g with ⟨r, hr⟩ | hr
    · rw [← (handle_packet hinv (congrArg Prod.snd hr)).2.1, hr]
      rfl
    · rw [hr] at hp
      cases hp

theorem handle_reading (hinv : SessionInv g) :
    readingOf (handle e m g) = (due e m g).reading g.outMessage := by
  by_cases hn : due e m g = .nothing
  · rw [due_nothing hinv hn, hn]
    rfl
  · obtain ⟨p, hp⟩ := exists_packet hinv hn
    have hs : ∀ text, due e m g = .error text → text.length < 256 := fun text h =>
      Nat.lt_trans (due_error h).bounds.2 (by decide)
    rw [readingOf, hp, Option.bind_some, (handle_packet hinv hp).2.1]
    exact Due.read_fill hn (due_fits hinv) hs _

/-! ## What a byte may show in -/

theorem lastSent_of_noDraw (ha : ¬ Accept0 m g) (h1 : (handle e m g).1.state.lastSent = 1) :
    g.state.lastSent = 1 := by
  have hexit := handle_exit e m g
  have herr : ∀ {g1 : Daemon} {text : List UInt8}, g1.state.lastSent = 2 →
      (sendError g1 text).1.state.lastSent ≠ 1 := fun h2 h => by
    rw [sendError_state, h2] at h
    exact absurd h (by decide)
  have hread : ∀ g1 : Daemon, (nnSend (messegeType4Builder e g1)).1.state.lastSent = 4 :=
    fun g1 => by
      unfold messegeType4Builder
      dsimp only
      split <;> rfl
  generalize handle e m g = r at hexit h1
  cases hexit with
  | busy0 | stranger6 | other => rwa [sendError_state] at h1
  | corrupt0 | corrupt3 | stranger3 | invalid3 | noFile3 | irregular3 | corrupt6 | invalid6 =>
    exact absurd h1 (herr rfl)
  | accept0 ht hl hv => exact absurd ⟨ht, hl, hv⟩ ha
  | start3 | more6 =>
    rw [hread] at h1
    exact absurd h1 (by decide)
  | finish6 => exact absurd (show (5 : UInt8) = 1 from h1) (by decide)
  | silent6 => exact h1

theorem Accept0.due (ha : Accept0 m g) : due e m g = .issue g.nextSid := by
  rw [due_type0 ha.type ha.lastSent, if_neg (not_not.mpr ha.ver), newSession_eq]
  rfl

/-- The id of a new session covers what it is long enough for. -/
theorem covers_issue {sid : List UInt8} :
    Covers (Due.issue sid).fields (12 + l) ↔ l ≤ sid.length := by
  simp only [Due.fields, covers_cons, not_covers_nil, or_false, le32_length, List.length_singleton,
    List.length_append]
  omega

theorem covers_finish {sid : List UInt8} :
    Covers (Due.finish sid).fields (12 + l) ↔ l ≤ sid.length := by
  simp only [Due.fields, covers_cons, not_covers_nil, or_false, le32_length, List.length_singleton,
    List.length_append]
  omega

theorem covers_piece {sid got : List UInt8} : Covers (Due.piece sid got).fields (12 + l) ↔
    l ≤ 4 + sid.length ∨ (133 ≤ l ∧ l < 133 + got.length) := by
  simp only [Due.fields, covers_cons, not_covers_nil, or_false, le32_length, List.length_singleton,
    List.length_append]
  omega

/-- An error text covers its own length, and its NUL one byte too far behind. -/
theorem covers_error : Covers (Due.error text).fields (12 + l) ↔
    l < text.length ∨ l = text.length + 1 := by
  simp only [Due.fields, covers_cons, not_covers_nil, or_false, le32_length, List.length_singleton]
  omega

/-- A byte that shows after a message has shown before, or the reply has written it. -/
theorem shows_handle (hs : (handle e m g).1.Shows l) :
    g.Shows l ∨ Covers (due e m g).fields (12 + l) := by
  rcases hs with hs | ⟨hl, hs⟩
  · exact .inl (.inl hs)
  by_cases ha : Accept0 m g
  · rw [ha.due, covers_issue]
    rcases Nat.lt_or_ge g.nextSid.length l with hlt | hge
    · exact .inl (.inr ⟨hl, .inr hlt⟩)
    · exact .inr hge
  · have hn := handle_noDraw (e := e) ha
    have hsid : (handle e m g).1.nextSid = g.nextSid := by
      unfold Daemon.nextSid
      rw [hn.rand, hn.drawn]
    exact .inl (.inr ⟨hl, hs.imp (lastSent_of_noDraw ha) fun h => hsid ▸ h⟩)

/-! ## Two processes -/

/-- Agreement on each byte that a later error text may end in front of. -/
def Alike (g h : Daemon) : Prop :=
  ∀ l, g.Shows l → h.outMessage.byte (12 + l) = g.outMessage.byte (12 + l)

theorem SameCore.now (hc : SameCore g h) : SameNow g h :=
  ⟨hc.state, fun _ => by rw [hc.file], fun i => by rw [hc.rand, hc.drawn]⟩

theorem SameCore.inv (hc : SameCore g h) (hinv : SessionInv g) : SessionInv h := hinv.congr hc.state

/-- What is read depends on the byte behind an error text. -/
theorem Due.reading_iff {d : Due} {b b' : Buf} : d.reading b' = d.reading b ↔
    ∀ text, d = .error text → b'.byte (12 + text.length) = b.byte (12 + text.length) := by
  cases d with
  | nothing | issue | piece | finish => exact iff_of_true rfl fun _ h => nomatch h
  | error text =>
    constructor
    · intro h t ht
      cases ht
      simp only [reading, Option.some.injEq, Reply.type2.injEq, true_and,
        List.append_cancel_left_eq] at h
      exact stale_inj h
    · intro h
      simp only [reading, h text rfl]

/-- **One message**, read alike. -/
theorem handle_alike (hinv : SessionInv g) (hc : SameCore g h) (ha : Alike g h) :
    Alike (handle e m g).1 (handle e m h).1 ∧
      readingOf (handle e m h) = readingOf (handle e m g) := by
  have hdue : due e m h = due e m g := hc.now.due
  constructor
  · intro l hl
    rw [handle_outMessage hinv, handle_outMessage (hc.inv hinv), hdue]
    rcases shows_handle hl with hs | hcov
    · exact fill_congr (ha l hs)
    · exact fill_byte_covered hcov _ _
  · rw [handle_reading hinv, handle_reading (hc.inv hinv), hdue]
    exact Due.reading_iff.mpr fun text ht => ha _ (due_error ht)

def readings : Mealy Daemon (Env × Mem) (Option Reply) :=
  ⟨fun g i => ((handle i.1 i.2 g).1, readingOf (handle i.1 i.2 g))⟩

/-- Every later reply is read alike. -/
def ReadAlike (g h : Daemon) : Prop := ∀ ms, readings.outs h ms = readings.outs g ms

theorem readings_alike (hinv : SessionInv g) (hc : SameCore g h) (ha : Alike g h) :
    ReadAlike g h := fun ms => by
  have hrel := Mealy.outs_related (M := readings)
    (R := fun g h => SessionInv g ∧ SameCore g h ∧ Alike g h) (Q := fun p q => q = p)
    (fun g h i ⟨hi, hc, ha⟩ => by
      obtain ⟨ha', hq⟩ := handle_alike (e := i.1) (m := i.2) hi hc ha
      exact ⟨⟨(handle_follows hi).inv, (handle_core hi hc).1, ha'⟩, hq⟩)
    ⟨hinv, hc, ha⟩ ms
  exact (List.forall₂_eq_eq_eq ▸ hrel.2.imp fun _ _ hq => hq.symm : readings.outs g ms = _).symm

/-! ## Every such byte shows -/

theorem ReadAlike.next (hr : ReadAlike g h) (e : Env) (m : Mem) :
    readingOf (handle e m h) = readingOf (handle e m g) ∧
      ReadAlike (handle e m g).1 (handle e m h).1 :=
  ⟨(List.cons.inj (hr [(e, m)])).1, fun ms => (List.cons.inj (hr ((e, m) :: ms))).2⟩

theorem ReadAlike.byte (hr : ReadAlike g h) (hinv : SessionInv g) (hc : SameCore g h)
    (hd : due e m g = .error text) :
    h.outMessage.byte (12 + text.length) = g.outMessage.byte (12 + text.length) := by
  have hdue : due e m h = due e m g := hc.now.due
  have hread := (hr.next e m).1
  rw [handle_reading hinv, handle_reading (hc.inv hinv), hdue] at hread
  exact Due.reading_iff.mp hread text hd

theorem due_stranger6 (ht : Header.messageType m = 6)
    (hs : strcmp (MessageType6.sessionId m) (g.sessionId e) ≠ 0) :
    due e m g = .error (chars "One session at a time") := by
  have h0 : Header.messageType m ≠ 0 := by rw [ht]; decide
  have h3 : Header.messageType m ≠ 3 := by rw [ht]; decide
  unfold due
  rw [if_neg h0, if_neg h3, if_pos ht, if_pos hs]

theorem due_other
    (ht : Header.messageType m ≠ 0 ∧ Header.messageType m ≠ 3 ∧ Header.messageType m ≠ 6) :
    due e m g = .error (invalidType (Header.messageType m)) := by
  unfold due
  rw [if_neg ht.1, if_neg ht.2.1, if_neg ht.2.2]

theorem exists_invalid (hinv : SessionInv g) (ho : g.Open) :
    ∃ m, due (envOf none) m g = .error (chars "Invalid State") ∧
      (handle (envOf none) m g).1.state.lastSent = 2 := by
  have ht := hinv.terminated ho
  have h0 := State.sid_ne_nul g.state
  have hs := State.sid_length_le ht
  rcases ho with hl | hl
  · have ha : Auth6 (envOf none) (memOf (encode6 g.state.sid)) g :=
      acknowledges_auth6 (acknowledges_encode6 h0 hs) ht rfl rfl
    have hl' : g.state.lastSent ≠ 4 ∧ g.state.lastSent ≠ 5 := by rw [hl]; decide
    refine ⟨_, ha.due.trans ?_, ?_⟩
    · rw [hl]
      rfl
    · rw [(Exit.invalid6 ha hl').handle_eq, sendError_state]
      rfl
  · have ha : Auth3 (envOf none) (memOf (encode3 g.state.sid [])) g :=
      asks_auth3 (asks_encode3 h0 hs List.not_mem_nil (by decide)) ht rfl rfl
    have hl' : g.state.lastSent ≠ 1 := by rw [hl]; decide
    refine ⟨_, ha.due.trans ?_, ?_⟩
    · rw [hl]
      rfl
    · rw [(Exit.invalid3 ha hl').handle_eq, sendError_state]
      rfl

theorem exists_stranger (ht : g.state.Terminated) :
    ∃ m, due (envOf none) m g = .error (chars "One session at a time") := by
  obtain ⟨sid, hne, h0, hlen⟩ : ∃ sid, sid ≠ g.state.sid ∧ 0 ∉ sid ∧ sid.length ≤ 128 := by
    by_cases hnil : g.state.sid = []
    · exact ⟨[97], by rw [hnil]; decide, by decide, by decide⟩
    · exact ⟨[], Ne.symm hnil, List.not_mem_nil, by decide⟩
  have ha := acknowledges_encode6 h0 hlen
  exact ⟨_, due_stranger6 ha.type fun h => hne (ha.sessionId.unique ((strcmp_sessionId ht).mp h))⟩

/-- An open session can meet an error text of each of these lengths at once. -/
theorem exists_always (hinv : SessionInv g) (ho : g.Open) (hl : l ∈ alwaysLengths) :
    ∃ m text, due (envOf none) m g = .error text ∧ text.length = l := by
  have hbusy : due (envOf none) (memOf [0]) g = .error (chars "1 session at a time") := by
    unfold due
    rw [if_pos (by decide), if_pos ho.busy]
  have hcorrupt : due (envOf none) (memOf [3]) g = .error (chars "Corrupt Type 3 Message") := by
    unfold due
    rw [if_neg (by decide), if_pos (by decide), if_pos (by decide)]
  simp only [alwaysLengths, List.mem_cons, List.not_mem_nil, or_false] at hl
  rcases hl with rfl | rfl | rfl | rfl | rfl | rfl | rfl
  · obtain ⟨m, hm, -⟩ := exists_invalid hinv ho
    exact ⟨m, _, hm, by decide⟩
  · exact ⟨_, _, hbusy, by decide⟩
  · obtain ⟨m, hm⟩ := exists_stranger (hinv.terminated ho)
    exact ⟨m, _, hm, by decide⟩
  · exact ⟨_, _, hcorrupt, by decide⟩
  · exact ⟨memOf [7], _, due_other (by decide), by decide⟩
  · exact ⟨memOf [10], _, due_other (by decide), by decide⟩
  · exact ⟨memOf [100], _, due_other (by decide), by decide⟩

/-- A session that has named no file can meet the errors of a request at once. -/
theorem exists_file (hinv : SessionInv g) (h1 : g.state.lastSent = 1) (hl : l ∈ fileLengths) :
    ∃ e m text, due e m g = .error text ∧ text.length = l := by
  have ht := hinv.terminated (.inl h1)
  have ha : ∀ e, Auth3 e (memOf (encode3 g.state.sid [])) g := fun e =>
    asks_auth3 (asks_encode3 (State.sid_ne_nul _) (State.sid_length_le ht) List.not_mem_nil
      (by decide)) ht rfl rfl
  simp only [fileLengths, List.mem_cons, List.not_mem_nil, or_false] at hl
  rcases hl with rfl | rfl
  · refine ⟨envOf (some ⟨false, [], []⟩), _, chars "Invalid File Type", (ha _).due.trans ?_,
      by decide⟩
    rw [h1]
    rfl
  · refine ⟨envOf none, _, chars "Error Opening File", (ha _).due.trans ?_, by decide⟩
    rw [h1]
    rfl

theorem unwritten_iff (hinv : SessionInv g) (hc : SameCore g h)
    (hn : ¬ Covers (due e m g).fields (12 + l)) :
    (handle e m h).1.outMessage.byte (12 + l) = (handle e m g).1.outMessage.byte (12 + l) ↔
      h.outMessage.byte (12 + l) = g.outMessage.byte (12 + l) := by
  have hdue : due e m h = due e m g := hc.now.due
  rw [handle_outMessage hinv, handle_outMessage (hc.inv hinv), hdue, (fill_gap hn _).1,
    (fill_gap hn _).1]

/-- The session is ended and the next one opened, with an id too short to reach byte `12 + l`. -/
theorem ReadAlike.byte_next (hr : ReadAlike g h) (hinv : SessionInv g) (hc : SameCore g h)
    (ho : g.Open) (hl : l ∈ fileLengths) (hsid : g.nextSid.length < l) :
    h.outMessage.byte (12 + l) = g.outMessage.byte (12 + l) := by
  have hshort : ∀ l ∈ fileLengths, ¬ (l < (chars "Invalid State").length ∨
      l = (chars "Invalid State").length + 1) := by decide
  -- the session ends
  obtain ⟨m₁, hd₁, hl₁⟩ := exists_invalid hinv ho
  have hnone : ¬ Accept0 m₁ g := fun ha => nomatch (ha.due (e := envOf none)).symm.trans hd₁
  have hdraw := handle_noDraw (e := envOf none) hnone
  have hinv₁ := (handle_follows (e := envOf none) (m := m₁) hinv).inv
  have hc₁ := (handle_core (e := envOf none) (m := m₁) hinv hc).1
  have hr₁ := (hr.next (envOf none) m₁).2
  rw [← unwritten_iff hinv hc fun hcov => hshort l hl (covers_error.mp (hd₁ ▸ hcov))]
  generalize (handle (envOf none) m₁ g).1 = g₁ at *
  -- the next one opens
  have hm := introduces_encode0 List.not_mem_nil (by decide)
  have ha : Accept0 (memOf (encode0 [])) g₁ := ⟨hm.type, .inr hl₁, hm.ver⟩
  have hsid₁ : ¬ l ≤ g₁.nextSid.length := by
    unfold Daemon.nextSid at hsid ⊢
    rw [hdraw.rand, hdraw.drawn]
    exact Nat.not_le.mpr hsid
  have hd₂ := ha.due (e := envOf none)
  have hinv₂ := (handle_follows (e := envOf none) (m := memOf (encode0 [])) hinv₁).inv
  rw [← unwritten_iff hinv₁ hc₁ fun hcov => hsid₁ (covers_issue.mp (hd₂ ▸ hcov))]
  obtain ⟨e, m, text, hd, rfl⟩ := exists_file hinv₂ (ha.drawn (e := envOf none)).lastSent hl
  exact (hr₁.next (envOf none) (memOf (encode0 []))).2.byte hinv₂ (handle_core hinv₁ hc₁).1 hd

/-- **What an error text carries over.** Two processes that differ in `outMessage` only are
read alike in all that follows exactly when they agree on the bytes that show. -/
theorem readings_iff (hinv : SessionInv g) (hc : SameCore g h) (ho : g.Open) :
    ReadAlike g h ↔ Alike g h := by
  constructor
  · rintro hr l (hl | ⟨hl, h1 | hsid⟩)
    · obtain ⟨m, text, hd, rfl⟩ := exists_always hinv ho hl
      exact hr.byte hinv hc hd
    · obtain ⟨e, m, text, hd, rfl⟩ := exists_file hinv h1 hl
      exact hr.byte hinv hc hd
    · exact hr.byte_next hinv hc ho hl hsid
  · exact readings_alike hinv hc

end Getd
