import Getd.Lib.Buffer

/-!
# Messages and State

`requests.h`. A message is the memory at its pointer and a field is read at
its offset. An `unsigned int` is four little-endian bytes on a multiple of
four, a `char` array starts where the field before it ends, and `sizeof`
rounds up to a multiple of four:

* `Header`: messageType 0, messageLength 4;
* `MessageType0`: dnLength 8, distinguishedName 12..44, `sizeof` 48;
* `MessageType1`, `5`, `6`: sidLength 8, sessionId 12..140, `sizeof` 144;
* `MessageType2`: msgLength 8, errorMessage 12..268, `sizeof` 272;
* `MessageType3`: sidLength 8, pathLength 12, sessionId 16..144,
  pathName 145..4241, `sizeof` 4244;
* `MessageType4`: sidLength 8, contentLength 12, sessionId 16..144,
  contentBuffer 145..4240, `sizeof` 4244.

`State` is taken as its four fields, `State.image` as the bytes they occupy.
-/

namespace Getd

open CLib

namespace Header

def messageType (m : Mem) : UInt8 := m 0
def messageLength (m : Mem) : Nat := m.u32 4

end Header

namespace MessageType0

def size : Nat := 48
def dnLength (m : Mem) : Nat := m.u32 8
def distinguishedName (m : Mem) : Mem := m.off 12

end MessageType0

namespace MessageType1

def size : Nat := 144
def sidLength (m : Mem) : Nat := m.u32 8
def sessionId (m : Mem) : Mem := m.off 12

end MessageType1

namespace MessageType2

def size : Nat := 272
def msgLength (m : Mem) : Nat := m.u32 8
def errorMessage (m : Mem) : Mem := m.off 12

end MessageType2

namespace MessageType3

def size : Nat := 4244
def sidLength (m : Mem) : Nat := m.u32 8
def pathLength (m : Mem) : Nat := m.u32 12
def sessionId (m : Mem) : Mem := m.off 16
def pathName (m : Mem) : Mem := m.off 145

end MessageType3

namespace MessageType4

def size : Nat := 4244
def sidLength (m : Mem) : Nat := m.u32 8
def contentLength (m : Mem) : Nat := m.u32 12
def sessionId (m : Mem) : Mem := m.off 16
def contentBuffer (m : Mem) : Mem := m.off 145

end MessageType4

namespace MessageType5

def size : Nat := 144
def sidLength (m : Mem) : Nat := m.u32 8
def sessionId (m : Mem) : Mem := m.off 12

end MessageType5

namespace MessageType6

def size : Nat := 144
def sidLength (m : Mem) : Nat := m.u32 8
def sessionId (m : Mem) : Mem := m.off 12

end MessageType6

/-- The session as getd keeps it between messages. -/
structure State where
  sessionId : Vector UInt8 129
  userName : Vector UInt8 33
  lastSent : UInt8
  lastRecieved : UInt8
  deriving DecidableEq

namespace State

/-- The memory at `&state`: the 164 bytes of the fields, then `beyond`. -/
def image (s : State) (beyond : Mem) : Mem := fun i =>
  if h : i < 129 then s.sessionId[i]
  else if h' : i - 129 < 33 then s.userName[i - 129]
  else if i = 162 then s.lastSent
  else if i = 163 then s.lastRecieved
  else beyond (i - 164)

def sid (s : State) : List UInt8 := s.sessionId.toList.takeWhile (· ≠ 0)

def user (s : State) : List UInt8 := s.userName.toList.takeWhile (· ≠ 0)

theorem sid_last : 128 < 129 := by decide

/-- The session id ends inside its array. -/
def Terminated (s : State) : Prop := s.sessionId[128] = 0

variable {s : State} {beyond : Mem}

theorem image_sessionId {i : Nat} (h : i < 129) : s.image beyond i = s.sessionId[i] := by
  simp only [image, dif_pos h]

theorem sid_ne_nul (s : State) : 0 ∉ s.sid := fun h => by
  simpa using List.mem_takeWhile_imp h

theorem Terminated.nul_mem (h : s.Terminated) : 0 ∈ s.sessionId.toList := by
  rw [Vector.mem_toList_iff, ← h]
  exact Vector.getElem_mem (by omega)

theorem spells_sid (h : 0 ∈ s.sessionId.toList) (beyond : Mem) : Spells (s.image beyond) s.sid := by
  refine spells_takeWhile (fun i hi => ?_) h
  rw [Vector.length_toList] at hi
  rw [image_sessionId hi, Vector.getElem_toList]

theorem sid_length_of_nul (h : 0 ∈ s.sessionId.toList) : s.sid.length < 129 := by
  have hp : s.sid <+: s.sessionId.toList := List.takeWhile_prefix _
  have hle := hp.length_le
  rw [Vector.length_toList] at hle
  refine Nat.lt_of_le_of_ne hle fun heq => sid_ne_nul s ?_
  rw [hp.eq_of_length (by rw [Vector.length_toList]; exact heq)]
  exact h

theorem Terminated.spells (h : s.Terminated) (beyond : Mem) : Spells (s.image beyond) s.sid :=
  spells_sid h.nul_mem beyond

theorem sid_length_le (h : s.Terminated) : s.sid.length ≤ 128 :=
  Nat.le_of_lt_succ (sid_length_of_nul h.nul_mem)

theorem sid_length_lt (h : s.Terminated) : s.sid.length < addrSpace :=
  Nat.lt_of_le_of_lt (sid_length_le h) (by decide)

theorem Terminated.cstr (h : s.Terminated) (beyond : Mem) : cstr (s.image beyond) = s.sid :=
  (h.spells beyond).cstr (Nat.le_of_lt (sid_length_lt h))

theorem Terminated.strlen (h : s.Terminated) (beyond : Mem) :
    strlen (s.image beyond) = s.sid.length :=
  (h.spells beyond).strlen (Nat.le_of_lt (sid_length_lt h))

theorem sid_congr {t : State} (h : t.sessionId = s.sessionId) : t.sid = s.sid := by
  simp only [sid, h]

theorem user_congr {t : State} (h : t.userName = s.userName) : t.user = s.user := by
  simp only [user, h]

theorem Terminated.congr {t : State} (hs : s.Terminated) (h : t.sessionId = s.sessionId) :
    t.Terminated := by
  unfold Terminated; rw [h]; exact hs

end State

/-! ## Replies as their receiver decodes them -/

/-- The fields of a reply: a string field up to its NUL, an error text and a
content up to the length that goes with it. -/
inductive Reply where
  | type1 (messageLength sidLength : Nat) (sessionId : List UInt8)
  | type2 (messageLength msgLength : Nat) (errorMessage : List UInt8)
  | type4 (messageLength sidLength contentLength : Nat) (sessionId content : List UInt8)
  | type5 (messageLength sidLength : Nat) (sessionId : List UInt8)
  deriving DecidableEq

def Reply.type : Reply → UInt8
  | type1 .. => 1
  | type2 .. => 2
  | type4 .. => 4
  | type5 .. => 5

/-- A 129-byte string field up to its NUL. -/
def sidField (m : Mem) : List UInt8 := (m.bytes 0 129).takeWhile (· ≠ 0)

theorem sidField_of_spells {m : Mem} {s : List UInt8} (h : Spells m s) (hs : s.length ≤ 128) :
    sidField m = s := by
  refine (spells_takeWhile (m := m) (fun i hi => ?_) ?_).unique h
  · rw [Mem.bytes_getElem, Nat.zero_add]
  · have hlt : s.length < (m.bytes 0 129).length := by rw [Mem.bytes_length]; omega
    have hmem : (m.bytes 0 129)[s.length] ∈ m.bytes 0 129 := List.getElem_mem hlt
    rwa [Mem.bytes_getElem, Nat.zero_add, h.nul] at hmem

/-- Decode the reply at `m`. -/
def Reply.decode (m : Mem) : Option Reply :=
  if Header.messageType m = 1 then
    some (.type1 (Header.messageLength m) (MessageType1.sidLength m)
      (sidField (MessageType1.sessionId m)))
  else if Header.messageType m = 2 then
    some (.type2 (Header.messageLength m) (MessageType2.msgLength m)
      ((MessageType2.errorMessage m).bytes 0 (MessageType2.msgLength m)))
  else if Header.messageType m = 4 then
    some (.type4 (Header.messageLength m) (MessageType4.sidLength m)
      (MessageType4.contentLength m) (sidField (MessageType4.sessionId m))
      ((MessageType4.contentBuffer m).bytes 0 (MessageType4.contentLength m)))
  else if Header.messageType m = 5 then
    some (.type5 (Header.messageLength m) (MessageType5.sidLength m)
      (sidField (MessageType5.sessionId m)))
  else none

end Getd
