import Getd.Lib.Machine
import Getd.Nanomsg.Sipc

/-!
# The socket

`core/sock.c` with the `NN_PAIR` protocol, for a socket that is bound to an `ipc`
address. The worker thread and the user thread take the lock of the socket in
turn (`aio/ctx.c`). Whoever has it handles the events that were raised before it
is given up: while an event waits there is nothing else to do. That goes for
connections too, which are accepted while none waits. The listener that takes the
next one from within `nn_ctx_leave` is left out.
-/

namespace Nanomsg

open CLib

/-- `struct nn_sock`. `conns` are all connections accepted so far, `received` and
`sent` the messages that `nn_sock_recv` has given out and `nn_sock_send` has taken. -/
structure Sock where
  excl : Excl
  attached : List Nat
  queue : List (Nat × Event)
  conns : List Conn
  flagIn : Bool
  flagOut : Bool
  rcvfd : Bool
  sndfd : Bool
  received : List Msg
  sent : List Msg

namespace Sock

/-- What a function sees that works on the connection `c`. -/
def world (s : Sock) (c : Nat) (conn : Conn) : World := ⟨s.excl, s.attached, s.queue, c, conn⟩

def put (s : Sock) (w : World) : Sock :=
  { s with
    excl := w.excl, attached := w.attached, queue := w.queue
    conns := s.conns.set w.self w.conn }

def on (s : Sock) (c : Nat) (f : World → Except Assert World) : Except Assert Sock :=
  match s.conns[c]? with
  | none => .ok s
  | some conn => do return s.put (← f (s.world c conn))

end Sock

/-! ## Leaving the lock -/

/-- One half of `nn_sock_onleave`: a flag and its file descriptor follow the event. -/
def signal (event flag fd : Bool) : Except Assert (Bool × Bool) :=
  if event then .ok (if flag then (flag, fd) else (true, true))
  else if flag then if fd then .ok (false, false) else .error .efd
  else .ok (flag, fd)

/-- `nn_sock_onleave`. The events are those of `nn_xpair_events`. -/
def nnSockOnleave (s : Sock) : Except Assert Sock := do
  let (flagIn, rcvfd) ← signal s.excl.inpipe.isSome s.flagIn s.rcvfd
  let (flagOut, sndfd) ← signal s.excl.outpipe.isSome s.flagOut s.sndfd
  return { s with flagIn := flagIn, rcvfd := rcvfd, flagOut := flagOut, sndfd := sndfd }

/-- `nn_ctx_leave`, once no event is left. -/
def nnCtxLeave (s : Sock) : Except Assert Sock :=
  if s.queue = [] then nnSockOnleave s else .ok s

/-! ## The user thread -/

/-- `nn_excl_recv` in `nn_sock_recv`, and the message, `none` for `-EAGAIN`. -/
def sockRecv (io : Io) (s : Sock) : Except Assert (Sock × Option Msg) :=
  match s.excl.inpipe with
  | none => .ok (s, none)
  | some pipe =>
    match s.conns[pipe]? with
    | none => .ok (s, none)
    | some conn => do
      let (w, msg, release) ← nnPipeRecv io (s.world pipe conn)
      let x := if release then { w.excl with inpipe := none } else w.excl
      return ({ s.put { w with excl := x } with received := s.received ++ [msg] }, some msg)

/-- `nn_excl_send` in `nn_sock_send`, and whether the message was taken. -/
def sockSend (io : Io) (s : Sock) (msg : Msg) : Except Assert (Sock × Bool) :=
  match s.excl.outpipe with
  | none => .ok (s, false)
  | some pipe =>
    match s.conns[pipe]? with
    | none => .ok (s, false)
    | some conn => do
      let (w, release) ← nnPipeSend io (s.world pipe conn) msg
      let x := if release then { w.excl with outpipe := none } else w.excl
      return ({ s.put { w with excl := x } with sent := s.sent ++ [msg] }, true)

/-- A round of the loop of `nn_sock_recv`. All rounds but the first wait for a
signal, and set the flag for it again. -/
def nnSockRecv (io : Io) (s : Sock) (first : Bool) : Except Assert (Sock × Option Msg) :=
  if first then sockRecv io s
  else if s.rcvfd = false then .ok (s, none)
  else sockRecv io { s with flagIn := true }

/-- A round of the loop of `nn_sock_send`. -/
def nnSockSend (io : Io) (s : Sock) (msg : Msg) (first : Bool) : Except Assert (Sock × Bool) :=
  if first then sockSend io s msg
  else if s.sndfd = false then .ok (s, false)
  else sockSend io { s with flagOut := true } msg

/-! ## Steps -/

/-- What one of the threads does next. -/
inductive Action
  /-- Whoever has the lock handles the first event of the queue. -/
  | event
  /-- The worker accepts a connection. -/
  | accept
  | fdIn (c : Nat)
  | fdOut (c : Nat)
  | fdErr (c : Nat)
  | taskSend (c : Nat)
  | taskRecv (c : Nat)
  | taskStop (c : Nat)
  | timeout (c : Nat)
  | timerTask (c : Nat)
  /-- The user thread makes a round of `nn_sock_recv` or `nn_sock_send`. -/
  | recv (first : Bool)
  | send (msg : Msg) (first : Bool)

/-- What the worker does to a connection. -/
def work (io : Io) (s : Sock) : Action → Except Assert Sock
  | .fdIn c => s.on c (usockFdIn io)
  | .fdOut c => s.on c (usockFdOut io)
  | .fdErr c => s.on c usockFdErr
  | .taskSend c => s.on c fun w => .ok (usockTaskSend w)
  | .taskRecv c => s.on c fun w => .ok (usockTaskRecv w)
  | .taskStop c => s.on c usockTaskStop
  | .timeout c => s.on c timerTimeout
  | .timerTask c => s.on c timerStopTask
  | .accept => .ok { s with
      conns := s.conns ++ [acceptedConn]
      queue := s.queue ++ [(s.conns.length, .usock .aipc .accepted)] }
  | .recv first => do return (← nnSockRecv io s first).1
  | .send msg first => do return (← nnSockSend io s msg first).1
  | .event => .ok s

/-- The first event of the queue is handled. -/
def nnFsmEventProcess (io : Io) (s : Sock) : Except Assert Sock :=
  match s.queue with
  | [] => .ok s
  | (c, e) :: queue => ({ s with queue := queue }).on c fun w => process io w e

/-- A step of the socket. The lock keeps everything else out while events wait. -/
def stepSock (s : Sock) (i : Action × Io) : Except Assert Sock :=
  match s.queue, i.1 with
  | [], .event => .ok s
  | [], a => do nnCtxLeave (← work i.2 s a)
  | _ :: _, .event => do nnCtxLeave (← nnFsmEventProcess i.2 s)
  | _ :: _, _ => .ok s

/-- A socket that is bound and has no connection yet. -/
def boundSock : Sock := ⟨⟨none, none, none⟩, [], [], [], false, false, false, false, [], []⟩

end Nanomsg
