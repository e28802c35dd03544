import Getd.Conversation
import Getd.Client

/-!
# What the bytes of a reply depend on

`outMessage` is written in place and sent whole. `due` is the reply that a
message calls for, without the buffer it is written into, and `handle_due` says
that the packet is the fields of that reply over the old contents of
`outMessage`. So the bytes sent depend on earlier replies exactly through the
gaps between the fields (`sent_bytes_iff`).
-/

namespace Getd

open CLib Protocol Buf

variable {e : Env} {m : Mem} {g h : Daemon}

/-! ## The reply that is due -/

inductive Due where
  | nothing
  | error (text : List UInt8)
  | issue (sid : List UInt8)
  | piece (sid got : List UInt8)
  | finish (sid : List UInt8)
  deriving DecidableEq

namespace Due

/-- The writes of its builder, in order. -/
def fields : Due → List Field
  | nothing => []
  | error text => [⟨4, le32 MessageType2.size, none⟩, ⟨0, [2], none⟩, ⟨8, le32 text.length, none⟩,
      ⟨12, text, none⟩, ⟨12 + (text.length + 1), [0], none⟩]
  | issue sid => [⟨0, [1], none⟩, ⟨12, sid ++ [0], none⟩, ⟨8, le32 sid.length, none⟩,
      ⟨4, le32 MessageType1.size, none⟩]
  | piece sid got => [⟨0, [4], none⟩, ⟨145, got, none⟩, ⟨12, le32 got.length, none⟩,
      ⟨16, sid ++ [0], none⟩, ⟨8, le32 sid.length, none⟩, ⟨4, le32 MessageType4.size, none⟩]
  | finish sid => [⟨0, [5], none⟩, ⟨12, sid ++ [0], none⟩, ⟨8, le32 sid.length, none⟩,
      ⟨4, le32 MessageType5.size, none⟩]

def size : Due → Nat
  | nothing => 0
  | error _ => MessageType2.size
  | issue _ => MessageType1.size
  | piece _ _ => MessageType4.size
  | finish _ => MessageType5.size

/-- The memory a reply is sent from, and how much of it. -/
def image (b : Buf) : Due → Option (Mem × Nat)
  | nothing => none
  | d => some ((b.fill d.fields).byte, d.size)

def bytes (b : Buf) : Due → Option (List UInt8)
  | nothing => none
  | d => some ((b.fill d.fields).byte.bytes 0 d.size)

theorem bytes_eq_image (d : Due) (b : Buf) : d.bytes b = (d.image b).map fun x => x.1.bytes 0 x.2 := by
  cases d <;> rfl

/-- The bytes of the struct that the builder leaves as they were: the padding
behind the message type, what follows the NUL of a string and, in a type 2, the
byte that should have been its NUL, and what follows the contents. -/
def Gap : Due → Nat → Prop
  | nothing, _ => False
  | error text, i => i < MessageType2.size ∧
      ((0 < i ∧ i < 4) ∨ i = 12 + text.length ∨ 14 + text.length ≤ i)
  | issue sid, i => i < MessageType1.size ∧ ((0 < i ∧ i < 4) ∨ 13 + sid.length ≤ i)
  | finish sid, i => i < MessageType5.size ∧ ((0 < i ∧ i < 4) ∨ 13 + sid.length ≤ i)
  | piece sid got, i => i < MessageType4.size ∧
      ((0 < i ∧ i < 4) ∨ (17 + sid.length ≤ i ∧ (i < 145 ∨ 145 + got.length ≤ i)))

/-- A gap is what no field covers. -/
theorem gap_iff {d : Due} {i : Nat} (hd : d ≠ .nothing) :
    d.Gap i ↔ i < d.size ∧ ¬ Covers d.fields i := by
  cases d with
  | nothing => exact absurd rfl hd
  | error text =>
    simp only [Gap, fields, size, covers_cons, not_covers_nil, or_false, le32_length, List.length_singleton]
    omega
  | issue sid =>
    simp only [Gap, fields, size, covers_cons, not_covers_nil, or_false, le32_length, List.length_singleton,
      List.length_append]
    omega
  | piece sid got =>
    simp only [Gap, fields, size, covers_cons, not_covers_nil, or_false, le32_length, List.length_singleton,
      List.length_append]
    omega
  | finish sid =>
    simp only [Gap, fields, size, covers_cons, not_covers_nil, or_false, le32_length, List.length_singleton,
      List.length_append]
    omega

theorem bytes_eq_iff {d : Due} (b b' : Buf) :
    d.bytes b = d.bytes b' ↔ ∀ i, d.Gap i → b.byte i = b'.byte i := by
  by_cases hd : d = .nothing
  · subst hd
    exact iff_of_true rfl fun _ hg => hg.elim
  · have hsome : ∀ b, d.bytes b = some ((b.fill d.fields).byte.bytes 0 d.size) := fun b => by
      cases d <;> first | exact absurd rfl hd | rfl
    rw [hsome, hsome, Option.some.injEq, bytes_fill_iff]
    exact forall_congr' fun i => by rw [gap_iff hd, and_imp]

end Due

/-- The reply a message calls for. -/
def due (e : Env) (m : Mem) (g : Daemon) : Due :=
  if Header.messageType m = 0 then
    if g.state.lastSent ≠ 5 ∧ g.state.lastSent ≠ 2 then .error (chars "1 session at a time")
    else if type0Ver m ≠ 0 then .error (chars "Corrupt Type 0 Message")
    else .issue (newSession m g).state.sid
  else if Header.messageType m = 3 then
    if type3Ver m ≠ 0 then .error (chars "Corrupt Type 3 Message")
    else if strncmp (MessageType3.sessionId m) (g.sessionId e) 128 ≠ 0 then
      .error (chars "One session at a time")
    else if g.state.lastSent ≠ 1 then .error (chars "Invalid State")
    else
      match e.fopen (pathOf m) with
      | none => .error (chars "Error Opening File")
      | some f =>
        if f.isReg then .piece g.state.sid ((Stream.opened f.data f.faults).fread 4096).1
        else .error (chars "Invalid File Type")
  else if Header.messageType m = 6 then
    if strcmp (MessageType6.sessionId m) (g.sessionId e) ≠ 0 then
      .error (chars "One session at a time")
    else if type6Ver m ((g.setLastRecieved 6).sessionId e) ≠ 0 then
      .error (chars "Corrupt Type 6 Messege")
    else if g.state.lastSent = 4 then
      if g.atEof then .finish g.state.sid else .piece g.state.sid (g.got 4096)
    else if g.state.lastSent ≠ 5 then .error (chars "Invalid State")
    else .nothing
  else .error (invalidType (Header.messageType m))

def sentBytes (r : Daemon × Option Packet) : Option (List UInt8) := r.2.map Packet.bytes

/-- What was sent: the memory, and how much of it. -/
def sentImage (r : Daemon × Option Packet) : Option (Mem × Nat) :=
  r.2.map fun p => (p.buf.byte, p.size)

theorem sentImage_error (g : Daemon) (text : List UInt8) :
    sentImage (sendError g text) = (Due.error text).image g.outMessage := by
  rw [sendError_eq]; rfl

theorem sentImage_type1 (ht : g.state.Terminated) :
    sentImage (nnSend (messageType1Builder e g)) = (Due.issue g.state.sid).image g.outMessage := by
  rw [nnSend_type1 ht]; rfl

theorem sentImage_type4 (ht : g.state.Terminated) : sentImage (nnSend (messegeType4Builder e g)) =
    (Due.piece g.state.sid (g.got 4096)).image g.outMessage := by
  rw [nnSend_type4 ht]; rfl

theorem sentImage_type5 (ht : g.state.Terminated) : sentImage (nnSend (messegeType5Builder e g)) =
    (Due.finish g.state.sid).image g.outMessage := by
  rw [nnSend_type5 ht]; rfl

theorem newSession_outMessage : (newSession m g).outMessage = g.outMessage := by
  rw [newSession_eq]

theorem due_type0 (ht : Header.messageType m = 0)
    (hl : g.state.lastSent = 5 ∨ g.state.lastSent = 2) : due e m g =
      if type0Ver m ≠ 0 then .error (chars "Corrupt Type 0 Message")
      else .issue (newSession m g).state.sid := by
  unfold due
  rw [if_pos ht, if_neg (not_busy hl)]

theorem Auth3.due (ha : Auth3 e m g) : due e m g =
    if g.state.lastSent ≠ 1 then .error (chars "Invalid State")
    else
      match e.fopen (pathOf m) with
      | none => .error (chars "Error Opening File")
      | some f =>
        if f.isReg then .piece g.state.sid ((Stream.opened f.data f.faults).fread 4096).1
        else .error (chars "Invalid File Type") := by
  have h0 : Header.messageType m ≠ 0 := by rw [ha.type]; decide
  unfold Getd.due
  rw [if_neg h0, if_pos ha.type, if_neg (not_not.mpr ha.ver), if_neg (not_not.mpr ha.sid)]

theorem Auth6.due (ha : Auth6 e m g) : due e m g =
    if g.state.lastSent = 4 then
      if g.atEof then .finish g.state.sid else .piece g.state.sid (g.got 4096)
    else if g.state.lastSent ≠ 5 then .error (chars "Invalid State")
    else .nothing := by
  have h0 : Header.messageType m ≠ 0 := by rw [ha.type]; decide
  have h3 : Header.messageType m ≠ 3 := by rw [ha.type]; decide
  unfold Getd.due
  rw [if_neg h0, if_neg h3, if_pos ha.type, if_neg (not_not.mpr ha.sid), if_neg (not_not.mpr ha.ver)]

/-- **What is sent** is the reply that is due, over the old contents of `outMessage`. -/
theorem handle_image (hinv : SessionInv g) :
    sentImage (handle e m g) = (due e m g).image g.outMessage := by
  have hexit := handle_exit e m g
  generalize handle e m g = r at hexit ⊢
  cases hexit with
  | busy0 ht hl =>
    unfold due
    rw [if_pos ht, if_pos hl, sentImage_error]
  | corrupt0 ht hl hv =>
    rw [due_type0 ht hl, if_pos hv, sentImage_error]
    rfl
  | accept0 ht hl hv =>
    rw [due_type0 ht hl, if_neg (not_not.mpr hv), sentImage_type1 (newSession_terminated m g),
      newSession_outMessage]
  | corrupt3 ht hv =>
    unfold due
    rw [if_neg (by rw [ht]; decide), if_pos ht, if_pos hv, sentImage_error]
    rfl
  | stranger3 ht hv hs =>
    unfold due
    rw [if_neg (by rw [ht]; decide), if_pos ht, if_neg (not_not.mpr hv), if_pos hs,
      sentImage_error]
    rfl
  | invalid3 ha hl =>
    rw [ha.due, if_pos hl, sentImage_error]
    rfl
  | noFile3 ha hl hf =>
    have hout : ((g.fopen e (pathOf m)).setLastSent 2).outMessage = g.outMessage :=
      fopen_outMessage _
    rw [ha.due, if_neg (not_not.mpr hl), hf, sentImage_error, hout]
  | irregular3 ha hl f hf hr =>
    have hout : ((g.fopen e (pathOf m)).fstat.setLastSent 2).outMessage = g.outMessage :=
      fopen_outMessage _
    rw [ha.due, if_neg (not_not.mpr hl), hf, sentImage_error, hout]
    simp only [hr, Bool.false_eq_true, if_false]
  | start3 ha hl f hf hr =>
    have hst : (g.fopen e (pathOf m)).fstat.state = g.state := fopen_state _
    have hout : (g.fopen e (pathOf m)).fstat.outMessage = g.outMessage := fopen_outMessage _
    rw [ha.due, if_neg (not_not.mpr hl), hf, sentImage_type4 (hinv.starting hl _), hst,
      fopen_got hf, hout]
    simp only [hr, if_true]
  | stranger6 ht hs =>
    unfold due
    rw [if_neg (by rw [ht]; decide), if_neg (by rw [ht]; decide), if_pos ht, if_pos hs,
      sentImage_error]
  | corrupt6 ht hs hv =>
    unfold due
    rw [if_neg (by rw [ht]; decide), if_neg (by rw [ht]; decide), if_pos ht,
      if_neg (not_not.mpr hs), if_pos hv, sentImage_error]
    rfl
  | finish6 ha hl hf =>
    rw [ha.due, if_pos hl, if_pos hf]
    exact sentImage_type5 (hinv.sending hl)
  | more6 ha hl hf =>
    rw [ha.due, if_pos hl, hf]
    exact sentImage_type4 (hinv.sending hl)
  | invalid6 ha hl =>
    rw [ha.due, if_neg hl.1, if_pos hl.2, sentImage_error]
    rfl
  | silent6 ha hl =>
    rw [ha.due, if_neg (by rw [hl]; decide), if_neg (not_not.mpr hl)]
    rfl
  | other ht =>
    unfold due
    rw [if_neg ht.1, if_neg ht.2.1, if_neg ht.2.2, sentImage_error]

theorem handle_due (hinv : SessionInv g) :
    sentBytes (handle e m g) = (due e m g).bytes g.outMessage := by
  rw [Due.bytes_eq_image, ← handle_image hinv]
  unfold sentBytes sentImage
  rw [Option.map_map]
  rfl

/-! ## Two histories -/

/-- Two processes in the same `State`, with the same left of the stream they
send from and the same draws to come, whatever they did before. -/
structure SameNow (g h : Daemon) : Prop where
  state : h.state = g.state
  stream : g.state.lastSent = 4 →
    h.file.map (fun f => f.stream.rest) = g.file.map fun f => f.stream.rest
  draws : ∀ i, h.rand (h.drawn + i) = g.rand (g.drawn + i)

namespace SameNow

theorem symm (hs : SameNow g h) : SameNow h g :=
  ⟨hs.state.symm, fun hl => (hs.stream (hs.state ▸ hl)).symm, fun i => (hs.draws i).symm⟩

theorem trans {k : Daemon} (hs : SameNow g h) (hs' : SameNow h k) : SameNow g k :=
  ⟨hs'.state.trans hs.state, fun hl => (hs'.stream (hs.state.symm ▸ hl)).trans (hs.stream hl),
    fun i => (hs'.draws i).trans (hs.draws i)⟩

theorem newSession (hs : SameNow g h) (m : Mem) :
    (Getd.newSession m h).state = (Getd.newSession m g).state := by
  have hid : drawnId h.rand h.drawn = drawnId g.rand g.drawn := by
    refine Vector.ext fun i hi => ?_
    rw [drawnId, drawnId, Vector.getElem_ofFn, Vector.getElem_ofFn, hs.draws]
  rw [newSession_eq, newSession_eq, hs.state, hid]

theorem sessionId (hs : SameNow g h) : h.sessionId e = g.sessionId e := by
  unfold Daemon.sessionId; rw [hs.state]

theorem setSessionId (hs : SameNow g h) :
    (h.setLastRecieved 6).sessionId e = (g.setLastRecieved 6).sessionId e := by
  unfold Daemon.sessionId Daemon.setLastRecieved; rw [hs.state]

theorem atEof (hs : SameNow g h) (hl : g.state.lastSent = 4) : h.atEof = g.atEof := by
  have heof : ∀ g : Daemon,
      g.atEof = ((g.file.map fun f => f.stream.rest).map fun r => r.2.1).getD false := fun g => by
    rw [Option.map_map]; rfl
  rw [heof, heof, hs.stream hl]

theorem got (hs : SameNow g h) (hl : g.state.lastSent = 4) (n : Nat) : h.got n = g.got n := by
  have hr := hs.stream hl
  unfold Daemon.got
  cases hg : g.file with
  | none =>
    rw [hg, Option.map_none, Option.map_eq_none_iff] at hr
    rw [hr]
  | some f =>
    rw [hg, Option.map_some, Option.map_eq_some_iff] at hr
    obtain ⟨f', hf', hrest⟩ := hr
    rw [hf']
    exact Stream.fread_of_rest hrest n

theorem due (hs : SameNow g h) : Getd.due e m h = Getd.due e m g := by
  unfold Getd.due
  rw [hs.state, hs.sessionId, hs.setSessionId, hs.newSession m]
  by_cases hl : g.state.lastSent = 4
  · rw [hs.atEof hl, hs.got hl]
  · simp only [if_neg hl]

end SameNow

/-- **What earlier replies left in `outMessage`** shows in what is sent exactly
when it shows in a gap of the reply that is due. -/
theorem sent_bytes_iff (hg : Reachable g) (hh : Reachable h) (hs : SameNow g h) (e : Env)
    (m : Mem) : sentBytes (handle e m g) = sentBytes (handle e m h) ↔
      ∀ i, (due e m g).Gap i → g.outMessage.byte i = h.outMessage.byte i := by
  rw [handle_due hg.sessionInv, handle_due hh.sessionInv, hs.due]
  exact Due.bytes_eq_iff _ _

def afterUnknown : Daemon := mainLoop.run zeroBoot [recvOf [100] none]

/-- One that has refused a message of type 127 and one of type 7. -/
def afterOthers : Daemon := mainLoop.run zeroBoot [recvOf [127] none, recvOf [7] none]

theorem afterUnknown_reachable : Reachable afterUnknown :=
  Mealy.Reach.run (zeroBootOver_reachable _) _

theorem afterOthers_reachable : Reachable afterOthers :=
  Mealy.Reach.run (zeroBootOver_reachable _) _

theorem zeroBoot_sameNow_unknown : SameNow zeroBoot afterUnknown :=
  ⟨rfl, fun _ => rfl, fun _ => rfl⟩

theorem zeroBoot_sameNow_others : SameNow zeroBoot afterOthers :=
  ⟨rfl, fun _ => rfl, fun _ => rfl⟩

/-- What the two have sent differs, but only where the next error is written. -/
theorem sent_bytes_same :
    afterUnknown.outMessage.byte 36 ≠ afterOthers.outMessage.byte 36 ∧
      sentBytes (handle (envOf none) (memOf [101]) afterUnknown) =
        sentBytes (handle (envOf none) (memOf [101]) afterOthers) := by
  have hagree : ∀ i < MessageType2.size, i < 4 ∨ 39 ≤ i →
      afterUnknown.outMessage.byte i = afterOthers.outMessage.byte i := by decide +kernel
  have hdue : due (envOf none) (memOf [101]) afterUnknown = .error (invalidType 101) := rfl
  have hlen : (invalidType 101).length = 27 := rfl
  refine ⟨by decide +kernel, (sent_bytes_iff afterUnknown_reachable afterOthers_reachable
    (zeroBoot_sameNow_unknown.symm.trans zeroBoot_sameNow_others) _ _).mpr ?_⟩
  rintro i hgap
  rw [hdue] at hgap
  obtain ⟨hlt, hgap⟩ := hgap
  exact hagree i hlt (by omega)

/-- A character of the last error shows in the next one. -/
theorem sent_bytes_leak :
    Reachable zeroBoot ∧ Reachable afterUnknown ∧ SameNow zeroBoot afterUnknown ∧
      sentBytes (handle (envOf none) (memOf [7]) zeroBoot) ≠
        sentBytes (handle (envOf none) (memOf [7]) afterUnknown) := by
  refine ⟨zeroBootOver_reachable _, afterUnknown_reachable, zeroBoot_sameNow_unknown, ?_⟩
  decide +kernel

end Getd
