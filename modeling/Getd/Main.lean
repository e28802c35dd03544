import Getd.Handlers
import Getd.Lib.Machine

/-!
# The main loop

`main.c`. `handle` is the `switch` on the message type with the `nn_send` of
its branch, on the memory at the message. `iteration` is one round of the
loop: `nn_recv` into the 4000-byte buffer, then `handle` on the buffer and the
memory `past` it. `nn_recv` stores at most 4000 bytes of a datagram and leaves
the rest of the buffer, and on failure all of it, as it was. `main` ignores
what it returns.
-/

namespace Getd

open CLib

def nnSend (r : Daemon × Nat) : Daemon × Option Packet :=
  let packet : Packet := ⟨r.1.outMessage, r.2⟩
  (r.1.log (.send packet), some packet)

/-- The `switch` of the main loop. -/
def handle (e : Env) (m : Mem) (g : Daemon) : Daemon × Option Packet :=
  let mType := Header.messageType m
  if mType = 0 then nnSend (messageType0Handler e m g)
  else if mType = 3 then nnSend (messageType3Handler e m g)
  else if mType = 6 then
    let r := messageType6Handler e m g
    if r.2 ≠ 0 then nnSend r else (r.1, none)
  else nnSend (messageOtherHandler mType g)

/-- `nn_recv(socket, buffer, 4000, 0)`: a datagram, or `none` for -1. -/
def nnRecv (buffer : Mem) : Option (List UInt8) → Mem
  | none => buffer
  | some d => fun i => if i < min d.length 4000 then d.getD i 0 else buffer i

/-- What one round of the loop meets: what `nn_recv` delivers, the memory past
the buffer, and the surroundings of the handler. -/
structure Input where
  recv : Option (List UInt8)
  past : Mem
  env : Env

/-- The memory at the message: the buffer and what lies past it. -/
def view (buffer past : Mem) : Mem := fun i => if i < 4000 then buffer i else past (i - 4000)

/-- One round of the main loop. -/
def iteration (g : Daemon) (i : Input) : Daemon × Option Packet :=
  let g := { g with buffer := nnRecv g.buffer i.recv }
  handle i.env (view g.buffer i.past) g

theorem iteration_eq (g : Daemon) (i : Input) :
    iteration g i = handle i.env (view (nnRecv g.buffer i.recv) i.past)
      { g with buffer := nnRecv g.buffer i.recv } := rfl

def mainLoop : Mealy Daemon Input (Option Packet) := ⟨iteration⟩

theorem run_nil (g : Daemon) : mainLoop.run g [] = g := rfl

theorem run_cons (g : Daemon) (i : Input) (is : List Input) :
    mainLoop.run g (i :: is) = mainLoop.run (iteration g i).1 is := rfl

/-- The process at the start of the loop. `lastRecieved` and `lastSent` are
set; the rest of `State` and the two buffers hold what memory held, and `rand`
will give what it gives. -/
def boot (sessionId : Vector UInt8 129) (userName : Vector UInt8 33) (outMessage buffer : Mem)
    (rand : Nat → Fin (RAND_MAX + 1)) : Daemon where
  state := ⟨sessionId, userName, 5, 6⟩
  outMessage := ⟨outMessage, fun _ => none⟩
  buffer := buffer
  sendFile := none
  streams := []
  rand := rand
  drawn := 0
  trace := []

def Init (g : Daemon) : Prop :=
  ∃ sessionId userName outMessage buffer rand, g = boot sessionId userName outMessage buffer rand

/-- The process after some rounds of the loop. -/
def Reachable (g : Daemon) : Prop := mainLoop.Reach Init g

end Getd
