import Getd.Main

/-!
# A client's messages

What an honest client sends. `Introduces`, `Asks` and `Acknowledges` are its
messages, as far as the daemon reads them: the name of the user, and the id and
the length of a session, copied from a reply. `encode0`, `encode3` and `encode6`
lay the structs of `requests.h` out as datagrams, and are honest for every name,
id and path that fit (`introduces_encode0`, `asks_encode3`, `acknowledges_encode6`).
-/

namespace Getd

open CLib

/-- A type 0 message for the user `name`. -/
structure Introduces (m : Mem) (name : List UInt8) : Prop where
  type : Header.messageType m = 0
  messageLength : Header.messageLength m = MessageType0.size
  dnLength : MessageType0.dnLength m = name.length
  distinguishedName : Spells (MessageType0.distinguishedName m) name
  fits : name.length ≤ 32

/-- A type 3 message for `path` with a session id and its length. -/
structure Asks (m : Mem) (sidLength : Nat) (sid path : List UInt8) : Prop where
  type : Header.messageType m = 3
  messageLength : Header.messageLength m = MessageType3.size
  sidLength : MessageType3.sidLength m = sidLength
  sessionId : Spells (MessageType3.sessionId m) sid
  pathLength : MessageType3.pathLength m = path.length
  pathName : Spells (MessageType3.pathName m) path
  fits : path.length ≤ 4095

/-- A type 6 message with a session id and its length. -/
structure Acknowledges (m : Mem) (sidLength : Nat) (sid : List UInt8) : Prop where
  type : Header.messageType m = 6
  messageLength : Header.messageLength m = MessageType6.size
  sidLength : MessageType6.sidLength m = sidLength
  sessionId : Spells (MessageType6.sessionId m) sid

/-! ## Datagrams -/

/-- `bs` in a field of `n` bytes, padded with NUL. -/
def field (n : Nat) (bs : List UInt8) : List UInt8 := bs ++ List.replicate (n - bs.length) 0

def encode0 (name : List UInt8) : List UInt8 :=
  [0, 0, 0, 0] ++ le32 MessageType0.size ++ le32 name.length ++ field 36 name

def encode3 (sid path : List UInt8) : List UInt8 :=
  [3, 0, 0, 0] ++ le32 MessageType3.size ++ le32 sid.length ++ le32 path.length ++
    field 129 sid ++ field 4099 path

def encode6 (sid : List UInt8) : List UInt8 :=
  [6, 0, 0, 0] ++ le32 MessageType6.size ++ le32 sid.length ++ field 132 sid

/-- The memory a datagram fills, zero behind it. -/
def memOf (d : List UInt8) : Mem := fun i => d.getD i 0

theorem field_length {n : Nat} {bs : List UInt8} (h : bs.length ≤ n) :
    (field n bs).length = n := by
  simp only [field, List.length_append, List.length_replicate]
  omega

theorem memOf_off (a b : List UInt8) {k : Nat} (h : a.length = k) :
    (memOf (a ++ b)).off k = memOf b := by
  funext i
  rw [Mem.off_apply, memOf, memOf, List.getD_eq_getElem?_getD, List.getD_eq_getElem?_getD,
    List.getElem?_append_right (by omega), ← h, Nat.add_sub_cancel_left]

theorem u32_memOf (b : List UInt8) {v : Nat} (h : v < 2 ^ 32) :
    (memOf (le32 v ++ b)).u32 0 = v := by
  simp [Mem.u32, memOf, le32]
  omega

/-- Each field of a datagram is where the fields before it end. -/
theorem u32_memOf_at (a b : List UInt8) {k v : Nat} (ha : a.length = k) (h : v < 2 ^ 32) :
    (memOf (a ++ (le32 v ++ b))).u32 k = v := by
  have hoff := u32_memOf b h
  rw [← memOf_off a _ ha, Mem.u32_off, Nat.add_zero] at hoff
  exact hoff

theorem spells_memOf {s b : List UInt8} (h0 : 0 ∉ s) (hb : memOf b 0 = 0) :
    Spells (memOf (s ++ b)) s := by
  induction s with
  | nil => exact hb
  | cons c s ih =>
    rw [List.mem_cons, not_or] at h0
    refine ⟨rfl, Ne.symm h0.1, ?_⟩
    have hoff : (memOf (c :: s ++ b)).off 1 = memOf (s ++ b) := memOf_off [c] (s ++ b) rfl
    rw [hoff]
    exact ih h0.2

theorem spells_field {n : Nat} {s : List UInt8} (b : List UInt8) (h0 : 0 ∉ s)
    (hs : s.length < n) : Spells (memOf (field n s ++ b)) s := by
  unfold field
  rw [List.append_assoc]
  refine spells_memOf h0 ?_
  obtain ⟨k, hk⟩ := Nat.exists_eq_add_of_lt hs
  rw [hk, show s.length + k + 1 - s.length = k + 1 by omega, List.replicate_succ]
  rfl

theorem introduces_encode0 {name : List UInt8} (h0 : 0 ∉ name) (hn : name.length ≤ 32) :
    Introduces (memOf (encode0 name)) name where
  type := rfl
  messageLength := by
    unfold Header.messageLength encode0
    simp only [List.append_assoc]
    exact u32_memOf_at [0, 0, 0, 0] _ rfl (by decide)
  dnLength := by
    unfold MessageType0.dnLength encode0
    rw [List.append_assoc]
    exact u32_memOf_at _ _ rfl (by omega)
  distinguishedName := by
    unfold MessageType0.distinguishedName encode0
    rw [memOf_off (k := 12) _ _ rfl, ← List.append_nil (field 36 name)]
    exact spells_field _ h0 (by omega)
  fits := hn

/-- A type 0 message is judged by the bytes of its struct. -/
theorem Introduces.congr {m m' : Mem} {name : List UInt8} (hi : Introduces m name)
    (h : ∀ i < MessageType0.size, m' i = m i) : Introduces m' name where
  type := (h 0 (by decide)).trans hi.type
  messageLength := (Mem.u32_congr fun i hi => h _ (by unfold MessageType0.size; omega)).trans
    hi.messageLength
  dnLength := (Mem.u32_congr fun i hi => h _ (by unfold MessageType0.size; omega)).trans hi.dnLength
  distinguishedName := hi.distinguishedName.congr fun i hle => h _ (by
    have := hi.fits
    unfold MessageType0.size
    omega)
  fits := hi.fits

theorem Introduces.ver {m : Mem} {name : List UInt8} (hi : Introduces m name) : type0Ver m = 0 := by
  have hn := hi.fits
  rw [type0Ver_eq_zero_iff, hi.distinguishedName.strnlen, hi.dnLength]
  exact ⟨by omega, hi.messageLength⟩

theorem alice_introduces : Introduces (memOf (encode0 (chars "alice"))) (chars "alice") :=
  introduces_encode0 (by decide) (by decide)

theorem Asks.ver {m : Mem} {sid path : List UInt8} (ha : Asks m sid.length sid path)
    (hs : sid.length ≤ 128) : type3Ver m = 0 := by
  have hp := ha.fits
  rw [type3Ver_eq_zero_iff, ha.sessionId.strnlen, ha.sidLength, ha.pathName.strnlen, ha.pathLength]
  exact ⟨ha.messageLength, by omega, by omega⟩

theorem encode0_length {name : List UInt8} (hn : name.length ≤ 36) :
    (encode0 name).length = MessageType0.size := by
  unfold encode0
  rw [List.length_append, field_length hn]
  rfl

theorem encode3_length {sid path : List UInt8} (hs : sid.length ≤ 129) (hp : path.length ≤ 4099) :
    (encode3 sid path).length = MessageType3.size := by
  unfold encode3
  rw [List.length_append, List.length_append, field_length hs, field_length hp]
  rfl

theorem asks_encode3 {sid path : List UInt8} (hs0 : 0 ∉ sid) (hs : sid.length ≤ 128)
    (hp0 : 0 ∉ path) (hp : path.length ≤ 4095) :
    Asks (memOf (encode3 sid path)) sid.length sid path where
  type := rfl
  messageLength := by
    unfold Header.messageLength encode3
    simp only [List.append_assoc]
    exact u32_memOf_at [3, 0, 0, 0] _ rfl (by decide)
  sidLength := by
    unfold MessageType3.sidLength encode3
    simp only [List.append_assoc]
    rw [← List.append_assoc [3, 0, 0, 0]]
    exact u32_memOf_at _ _ rfl (by omega)
  pathLength := by
    unfold MessageType3.pathLength encode3
    rw [List.append_assoc, List.append_assoc]
    exact u32_memOf_at _ _ rfl (by omega)
  sessionId := by
    unfold MessageType3.sessionId encode3
    rw [List.append_assoc, memOf_off (k := 16) _ _ rfl]
    exact spells_field _ hs0 (by omega)
  pathName := by
    unfold MessageType3.pathName encode3
    rw [memOf_off _ _ (by rw [List.length_append, field_length (by omega)]; rfl)]
    rw [← List.append_nil (field 4099 path)]
    exact spells_field _ hp0 (by omega)
  fits := hp

theorem acknowledges_encode6 {sid : List UInt8} (hs0 : 0 ∉ sid) (hs : sid.length ≤ 128) :
    Acknowledges (memOf (encode6 sid)) sid.length sid where
  type := rfl
  messageLength := by
    unfold Header.messageLength encode6
    simp only [List.append_assoc]
    exact u32_memOf_at [6, 0, 0, 0] _ rfl (by decide)
  sidLength := by
    unfold MessageType6.sidLength encode6
    rw [List.append_assoc]
    exact u32_memOf_at _ _ rfl (by omega)
  sessionId := by
    unfold MessageType6.sessionId encode6
    rw [memOf_off (k := 12) _ _ rfl, ← List.append_nil (field 132 sid)]
    exact spells_field _ hs0 (by omega)

theorem encode6_length {sid : List UInt8} (hs : sid.length ≤ 132) :
    (encode6 sid).length = MessageType6.size := by
  unfold encode6
  rw [List.length_append, field_length hs]
  rfl

theorem Acknowledges.congr {m m' : Mem} {n : Nat} {sid : List UInt8} (ha : Acknowledges m n sid)
    (hs : sid.length ≤ 128) (h : ∀ i < MessageType6.size, m' i = m i) : Acknowledges m' n sid where
  type := (h 0 (by decide)).trans ha.type
  messageLength := (Mem.u32_congr fun i hi => h _ (by unfold MessageType6.size; omega)).trans
    ha.messageLength
  sidLength := (Mem.u32_congr fun i hi => h _ (by unfold MessageType6.size; omega)).trans
    ha.sidLength
  sessionId := ha.sessionId.congr fun i hle => h _ (by unfold MessageType6.size; omega)

/-! ## A daemon to talk to -/

/-- Surroundings in which every path opens as `file` says. -/
def envOf (file : Option File) : Env := ⟨fun _ => 0, fun _ => file⟩

def recvOf (d : List UInt8) (file : Option File) : Input := ⟨some d, fun _ => 0, envOf file⟩

/-- A daemon started on zeroed memory, but for `outMessage`, whose `rand` gives 0. -/
def zeroBootOver (outMessage : Mem) : Daemon :=
  boot (Vector.replicate 129 0) (Vector.replicate 33 0) outMessage (fun _ => 0) fun _ => 0

theorem zeroBootOver_reachable (outMessage : Mem) : Reachable (zeroBootOver outMessage) :=
  .init ⟨_, _, _, _, _, rfl⟩

def zeroBoot : Daemon := zeroBootOver fun _ => 0

def zeroSid : List UInt8 := List.replicate 128 48

/-- A round that receives the whole of `d`, as far as the buffer goes, and finds
the rest of `d` behind it. -/
def wholeOf (d : List UInt8) (file : Option File) : Input :=
  ⟨some d, (memOf d).off 4000, envOf file⟩

theorem view_wholeOf (buffer : Mem) {d : List UInt8} (h : 4000 ≤ d.length)
    (file : Option File) :
    view (nnRecv buffer (wholeOf d file).recv) (wholeOf d file).past = memOf d := by
  funext i
  unfold view
  split
  · next hi => exact if_pos (by omega)
  · next hi =>
    show memOf d (4000 + (i - 4000)) = memOf d i
    rw [Nat.add_sub_cancel' (by omega)]

theorem messageType_recv (buffer past : Mem) (t : UInt8) (d : List UInt8) :
    Header.messageType (view (nnRecv buffer (some (t :: d))) past) = t :=
  if_pos (by rw [List.length_cons]; omega)

theorem introduces_recv (buffer past : Mem) {name : List UInt8} (h0 : 0 ∉ name)
    (hn : name.length ≤ 32) :
    Introduces (view (nnRecv buffer (some (encode0 name))) past) name := by
  have hlen : (encode0 name).length = MessageType0.size := encode0_length (by omega)
  refine (introduces_encode0 h0 hn).congr fun i hi => ?_
  have h4000 : MessageType0.size < 4000 := by decide
  exact (if_pos (by omega)).trans (if_pos (by omega))

theorem acknowledges_recv (buffer past : Mem) {sid : List UInt8} (h0 : 0 ∉ sid)
    (hs : sid.length ≤ 128) :
    Acknowledges (view (nnRecv buffer (some (encode6 sid))) past) sid.length sid := by
  have hlen : (encode6 sid).length = MessageType6.size := encode6_length (by omega)
  refine (acknowledges_encode6 h0 hs).congr hs fun i hi => ?_
  have h4000 : MessageType6.size < 4000 := by decide
  exact (if_pos (by omega)).trans (if_pos (by omega))

theorem zeroSid_ne_nul : 0 ∉ zeroSid := by decide +kernel

theorem zeroSid_length_le : zeroSid.length ≤ 128 := by decide +kernel

/-- The daemon with a session open for `alice`. -/
def aliceOpened : Daemon := mainLoop.run zeroBoot [recvOf (encode0 (chars "alice")) none]

theorem aliceOpened_reachable : Reachable aliceOpened :=
  Mealy.Reach.run (zeroBootOver_reachable _) _

theorem aliceOpened_lastSent : aliceOpened.state.lastSent = 1 := by decide +kernel

theorem aliceOpened_sid : aliceOpened.state.sid = zeroSid := by decide +kernel

end Getd
