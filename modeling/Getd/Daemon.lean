import Getd.Verify
import Getd.Lib.Stdio

/-!
# The process

What getd keeps between two calls: `state`, the receive buffer and
`outMessage` of `main.c`, `sendFile` of `requestHandlers.c`, and what the C
library keeps for it (the streams `fopen` returned, the draws of `rand`).
`trace` lists the calls on streams and the packets sent, oldest first.

A call on a `FILE *` that is NULL is undefined in C. Here it delivers nothing,
and the trace shows the pointer it was made with.
-/

namespace Getd

open CLib

def RAND_MAX : Nat := 2147483647

/-- What `fopen` finds under a path: whether `fstat` then says `S_ISREG`, the
contents, and the read errors to come. -/
structure File where
  isReg : Bool
  data : List UInt8
  faults : List (Option Nat)
  deriving DecidableEq

structure OpenFile where
  path : List UInt8
  isReg : Bool
  stream : Stream
  closed : Bool
  deriving DecidableEq

/-- What `nn_send` is given. -/
structure Packet where
  buf : Buf
  size : Nat

def Packet.bytes (p : Packet) : List UInt8 := p.buf.byte.bytes 0 p.size

def Packet.reply (p : Packet) : Option Reply := Reply.decode p.buf.byte

inductive Event where
  | fopen (path : List UInt8) (file : Option Nat)
  | fstat (file : Option Nat) (isReg : Bool)
  | fread (file : Option Nat) (got : List UInt8)
  | getc (file : Option Nat)
  | feof (file : Option Nat)
  | fclose (file : Option Nat)
  | send (packet : Packet)

/-- What a handler meets outside the process state: the memory behind `State`
and the outcome of `fopen` on every path. -/
structure Env where
  beyond : Mem
  fopen : List UInt8 → Option File

structure Daemon where
  state : State
  outMessage : Buf
  buffer : Mem
  sendFile : Option Nat
  streams : List OpenFile
  rand : Nat → Fin (RAND_MAX + 1)
  drawn : Nat
  trace : List Event

namespace Daemon

/-- The memory at `state->sessionId`. -/
def sessionId (g : Daemon) (e : Env) : Mem := g.state.image e.beyond

def setLastSent (g : Daemon) (t : UInt8) : Daemon :=
  { g with state := { g.state with lastSent := t } }

def setLastRecieved (g : Daemon) (t : UInt8) : Daemon :=
  { g with state := { g.state with lastRecieved := t } }

/-- Write into `outMessage` at offset `k`. -/
def put (g : Daemon) (k : Nat) (bs : List UInt8) : Daemon :=
  { g with outMessage := g.outMessage.write k bs }

def log (g : Daemon) (e : Event) : Daemon := { g with trace := g.trace ++ [e] }

/-! ## Calls on `sendFile` -/

/-- The stream `sendFile` points to. -/
def file (g : Daemon) : Option OpenFile := g.sendFile.bind fun h => g.streams[h]?

/-- The streams after a change to the one `sendFile` points to. -/
def onFile (g : Daemon) (f : OpenFile → OpenFile) : List OpenFile :=
  match g.sendFile with
  | none => g.streams
  | some h => g.streams.modify h f

/-- `sendFile = fopen(path, "r")`. -/
def fopen (g : Daemon) (e : Env) (path : List UInt8) : Daemon :=
  match e.fopen path with
  | none => { g with sendFile := none, trace := g.trace ++ [.fopen path none] }
  | some f =>
    { g with
      sendFile := some g.streams.length
      streams := g.streams ++ [⟨path, f.isReg, Stream.opened f.data f.faults, false⟩]
      trace := g.trace ++ [.fopen path (some g.streams.length)] }

/-- `S_ISREG` of `fstat(fileno(sendFile))`. -/
def isReg (g : Daemon) : Bool := (g.file.map OpenFile.isReg).getD false

def fstat (g : Daemon) : Daemon := g.log (.fstat g.sendFile g.isReg)

/-- The bytes `fread(_, 1, n, sendFile)` delivers. -/
def got (g : Daemon) (n : Nat) : List UInt8 :=
  (g.file.map fun f => (f.stream.fread n).1).getD []

/-- `fread(outMessage + k, 1, n, sendFile)`. -/
def fread (g : Daemon) (k n : Nat) : Daemon :=
  { g with
    outMessage := g.outMessage.store k (g.got n) g.sendFile
    streams := g.onFile fun f => { f with stream := (f.stream.fread n).2 }
    trace := g.trace ++ [.fread g.sendFile (g.got n)] }

def getc (g : Daemon) : Daemon :=
  { g with
    streams := g.onFile fun f => { f with stream := f.stream.getc }
    trace := g.trace ++ [.getc g.sendFile] }

def atEof (g : Daemon) : Bool := (g.file.map fun f => f.stream.eof).getD false

def feof (g : Daemon) : Daemon := g.log (.feof g.sendFile)

def fclose (g : Daemon) : Daemon :=
  { g with
    streams := g.onFile fun f => { f with closed := true }
    trace := g.trace ++ [.fclose g.sendFile] }

end Daemon

end Getd
