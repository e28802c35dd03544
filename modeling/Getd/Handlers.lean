import Getd.Daemon

/-!
# Request handlers

`requestHandlers.c`. A handler takes the memory at its message pointer and the
process, and gives the process after it and the size it returns.
-/

namespace Getd

open CLib

/-! ## Builders -/

/-- Builds a type 2 error message from an error text (without its NUL). -/
def messageType2Builder (g : Daemon) (errorMsg : List UInt8) : Daemon × Nat :=
  let errorMsgLen := errorMsg.length
  let g := g.put 4 (le32 MessageType2.size)
  let g := g.put 0 [2]
  let g := g.put 8 (le32 errorMsgLen)
  let g := g.put 12 errorMsg
  let g := g.put (12 + (errorMsgLen + 1)) [0]
  (g, Header.messageLength g.outMessage.byte)

def messageType1Builder (e : Env) (g : Daemon) : Daemon × Nat :=
  let g := g.put 0 [1]
  let g := g.put 12 (cstr (g.sessionId e) ++ [0])
  let g := g.put 8 (le32 (strlen (g.sessionId e)))
  let g := g.put 4 (le32 MessageType1.size)
  let g := g.setLastSent 1
  (g, Header.messageLength g.outMessage.byte)

def messegeType4Builder (e : Env) (g : Daemon) : Daemon × Nat :=
  let g := g.setLastSent 4
  let g := g.put 0 [4]
  let count := (g.got 4096).length
  let g := g.fread 145 4096
  let g := g.put 12 (le32 count)
  let g := if MessageType4.contentLength g.outMessage.byte ≠ 4096 then g.getc else g
  let g := g.put 16 (cstr (g.sessionId e) ++ [0])
  let g := g.put 8 (le32 (strlen (MessageType4.sessionId g.outMessage.byte)))
  let g := g.put 4 (le32 MessageType4.size)
  (g, Header.messageLength g.outMessage.byte)

/-- Type 5 message: closes the file, ends the session. -/
def messegeType5Builder (e : Env) (g : Daemon) : Daemon × Nat :=
  let g := g.fclose
  let g := g.setLastSent 5
  let g := g.put 0 [5]
  let g := g.put 12 (cstr (g.sessionId e) ++ [0])
  let g := g.put 8 (le32 (strlen (MessageType5.sessionId g.outMessage.byte)))
  let g := g.put 4 (le32 MessageType5.size)
  (g, Header.messageLength g.outMessage.byte)

/-! ## Type 0 -/

/-- `strcpy` into a `char` array, taken as far as the array goes. -/
def strcpyField {n : Nat} (dst : Vector UInt8 n) (src : Mem) : Vector UInt8 n :=
  let s := cstr src ++ [0]
  Vector.ofFn fun i => if h : i.val < s.length then s[i.val] else dst[i.val]

/-- `strcpy(state->userName, src)`. It has no bound: what does not fit goes on
into `lastSent` and `lastRecieved` behind the array, and then out of `State`,
where nothing here sees it. -/
def State.copyName (s : State) (src : Mem) : State :=
  { s with
    userName := strcpyField s.userName src
    lastSent := (cstr src ++ [0]).getD 33 s.lastSent
    lastRecieved := (cstr src ++ [0]).getD 34 s.lastRecieved }

def possibleChars : List UInt8 :=
  chars "0123456789abcdefghijklmnopqrstuvwxyzABCDEFGHIJKLMNOPQRSTUVWXYZ" ++ [0]

/-- `(size_t)(((double)r) / RAND_MAX * (sizeof possibleChars - 1))`. For no `r`
does the rounding of `double` carry the product across an integer, so this is
the quotient rounded down. -/
def charIndex (r : Fin (RAND_MAX + 1)) : Nat :=
  r.val * (possibleChars.length - 1) / RAND_MAX

/-- The loop that fills `sessionId[n - 1]` down to `sessionId[0]`, one draw each. -/
def generate (g : Daemon) : Nat → Daemon
  | 0 => g
  | n + 1 =>
    generate { g with
      state := { g.state with
        sessionId := g.state.sessionId.setIfInBounds n
          (possibleChars.getD (charIndex (g.rand g.drawn)) 0) }
      drawn := g.drawn + 1 } n

/-- Stores the user name and generates the session id. -/
def newSession (m : Mem) (g : Daemon) : Daemon :=
  let g := { g with state := g.state.copyName (MessageType0.distinguishedName m) }
  let g := { g with state := { g.state with sessionId := g.state.sessionId.set 0 0 } }
  let g := generate g 128
  { g with state := { g.state with sessionId := g.state.sessionId.set 128 0 State.sid_last } }

def messageType0Handler (e : Env) (m : Mem) (g : Daemon) : Daemon × Nat :=
  let ver := type0Ver m
  if g.state.lastSent ≠ 5 ∧ g.state.lastSent ≠ 2 then
    messageType2Builder g (chars "1 session at a time")
  else if ver ≠ 0 then
    messageType2Builder (g.setLastSent 2) (chars "Corrupt Type 0 Message")
  else messageType1Builder e (newSession m g)

/-! ## Type 3 -/

/-- `messageType3->pathName`, as `fopen` reads it. -/
def pathOf (m : Mem) : List UInt8 := cstr (MessageType3.pathName m)

/-- Request from get to receive a file from getd. -/
def messageType3Handler (e : Env) (m : Mem) (g : Daemon) : Daemon × Nat :=
  if type3Ver m ≠ 0 then
    messageType2Builder (g.setLastSent 2) (chars "Corrupt Type 3 Message")
  else if strncmp (MessageType3.sessionId m) (g.sessionId e) 128 ≠ 0 then
    messageType2Builder (g.setLastSent 2) (chars "One session at a time")
  else if g.state.lastSent ≠ 1 then
    messageType2Builder (g.setLastSent 2) (chars "Invalid State")
  else
    let g := g.fopen e (pathOf m)
    if g.sendFile = none then
      messageType2Builder (g.setLastSent 2) (chars "Error Opening File")
    else
      let isReg := g.isReg
      let g := g.fstat
      if isReg = false then
        messageType2Builder (g.setLastSent 2) (chars "Invalid File Type")
      else messegeType4Builder e g

/-! ## Type 6 and the rest -/

/-- Acknowledgement from get that it received a type 4 message. -/
def messageType6Handler (e : Env) (m : Mem) (g : Daemon) : Daemon × Nat :=
  if strcmp (MessageType6.sessionId m) (g.sessionId e) ≠ 0 then
    messageType2Builder g (chars "One session at a time")
  else
    let g := g.setLastRecieved 6
    let ver := type6Ver m (g.sessionId e)
    if ver ≠ 0 then
      messageType2Builder (g.setLastSent 2) (chars "Corrupt Type 6 Messege")
    else if g.state.lastSent = 4 then
      let eof := g.atEof
      let g := g.feof
      if eof then messegeType5Builder e g else messegeType4Builder e g
    else if g.state.lastSent ≠ 5 then
      messageType2Builder (g.setLastSent 2) (chars "Invalid State")
    else (g, 0)

/-- `sprintf(error, "Invalid Message Type: \"%u\"", type)`. -/
def invalidType (type : UInt8) : List UInt8 :=
  chars ("Invalid Message Type: \"" ++ toString type.toNat ++ "\"")

def messageOtherHandler (type : UInt8) (g : Daemon) : Daemon × Nat :=
  messageType2Builder g (invalidType type)

end Getd
