import Getd.Nanomsg.Wire

/-!
# What a connection is made of

An accepted connection of the `ipc` transport is a stack of state machines: the
OS socket (`aio/usock_posix.inc`), the exchange of protocol headers
(`transports/utils/streamhdr.c`) with its timer (`aio/timer.c`), the framing
(`transports/ipc/sipc.c`), the pipe (`core/pipe.c`) and the owner of them all
(`transports/ipc/aipc.c`). They call down and raise events upwards. The events
wait in the queue of the context (`aio/ctx.c`) and are handled before its lock
is given up.

`nn_fsm` keeps whether a machine runs, stops or is idle. That follows from the
state of the machine and is not kept here.
-/

namespace Nanomsg

abbrev Msg := List UInt8

/-! ## States -/

/-- The states an accepted `nn_usock` goes through. -/
inductive UsockState
  | accepted | active | removingFd | done | stopping | idle
  deriving DecidableEq

/-- The machine that gets the events of a `nn_usock`. -/
inductive Owner
  | aipc | sipc | streamhdr
  deriving DecidableEq

/-- `struct nn_usock`. `batch` is what is left of the batch buffer, `buf` what has
been stored for the current `nn_usock_recv` and `len` what it still waits for,
`iov` what `nn_usock_send` still has to send. `pollIn` and `pollOut` are what the
worker polls for, the tasks what waits in its queue. `rx` and `tx` are all bytes
that `recvmsg` has delivered and that `sendmsg` has taken. -/
structure Usock where
  state : UsockState
  owner : Owner
  batch : List UInt8
  buf : List UInt8
  len : Nat
  iov : List (List UInt8)
  pollIn : Bool
  pollOut : Bool
  taskSend : Bool
  taskRecv : Bool
  taskStop : Bool
  rx : List UInt8
  tx : List UInt8

inductive TimerState
  | idle | active | stopping
  deriving DecidableEq

/-- `struct nn_timer`, with the task that waits in the queue of the worker. -/
structure Timer where
  state : TimerState
  stopTask : Bool

inductive StreamhdrState
  | idle | sending | receiving | stoppingTimerError | stoppingTimerDone | done | stopping
  deriving DecidableEq

inductive SipcState
  | idle | protohdr | stoppingStreamhdr | active | shuttingDown | done | stopping
  deriving DecidableEq

/-- `instate` of `struct nn_sipc`, -1 at first. -/
inductive SipcInstate
  | unset | hdr | body | hasmsg
  deriving DecidableEq

inductive SipcOutstate
  | unset | idle | sending
  deriving DecidableEq

/-- `struct nn_sipc`. The header it receives and the message it sends are in the
buffers of the `nn_usock`. -/
structure Sipc where
  state : SipcState
  instate : SipcInstate
  outstate : SipcOutstate
  inmsg : Msg

inductive PipebaseState
  | idle | active | failed
  deriving DecidableEq

inductive PipeInstate
  | deactivated | idle | receiving | received | async
  deriving DecidableEq

inductive PipeOutstate
  | deactivated | idle | sending | sent | async
  deriving DecidableEq

/-- `struct nn_pipebase`. `recvd` and `sent` are the messages that `nn_pipe_recv`
has given out and that `nn_pipe_send` has taken. -/
structure Pipebase where
  state : PipebaseState
  instate : PipeInstate
  outstate : PipeOutstate
  recvd : List Msg
  sent : List Msg

inductive AipcState
  | accepting | active | stoppingSipc | stoppingUsock | done
  deriving DecidableEq

structure Conn where
  usock : Usock
  timer : Timer
  streamhdr : StreamhdrState
  sipc : Sipc
  pipebase : Pipebase
  aipc : AipcState

def acceptedConn : Conn where
  usock := ⟨.accepted, .aipc, [], [], 0, [], false, false, false, false, false, [], []⟩
  timer := ⟨.idle, false⟩
  streamhdr := .idle
  sipc := ⟨.idle, .unset, .unset, []⟩
  pipebase := ⟨.idle, .deactivated, .deactivated, [], []⟩
  aipc := .accepting

/-! ## Events -/

inductive UsockEvent
  | accepted | sent | received | shutdown | error | stopped
  deriving DecidableEq

inductive TimerEvent
  | timeout | stopped
  deriving DecidableEq

inductive StreamhdrEvent
  | ok | error | stopped
  deriving DecidableEq

inductive SipcEvent
  | error | stopped
  deriving DecidableEq

inductive PipeEvent
  | pipeIn | pipeOut
  deriving DecidableEq

/-- An event in the queue: who raised it, and for a `nn_usock` who gets it. -/
inductive Event
  | usock (owner : Owner) (type : UsockEvent)
  | timer (type : TimerEvent)
  | streamhdr (type : StreamhdrEvent)
  | sipc (type : SipcEvent)
  | pipe (type : PipeEvent)
  deriving DecidableEq

/-- The `struct nn_fsm_event` an event is raised with. -/
inductive Item
  | usockEstablished | usockSent | usockReceived | usockError | usockStopped
  | timerDone | timerStopped | streamhdrDone | streamhdrStopped | sipcDone | sipcStopped
  | pipeIn | pipeOut
  deriving DecidableEq

def Event.item : Event → Item
  | usock _ .accepted => .usockEstablished
  | usock _ .sent => .usockSent
  | usock _ .received => .usockReceived
  | usock _ .shutdown => .usockError
  | usock _ .error => .usockError
  | usock _ .stopped => .usockStopped
  | timer .timeout => .timerDone
  | timer .stopped => .timerStopped
  | streamhdr .ok => .streamhdrDone
  | streamhdr .error => .streamhdrDone
  | streamhdr .stopped => .streamhdrStopped
  | sipc .error => .sipcDone
  | sipc .stopped => .sipcStopped
  | pipe .pipeIn => .pipeIn
  | pipe .pipeOut => .pipeOut

/-! ## The lock -/

/-- The assertions. One that fails ends the process. -/
inductive Assert
  /-- `nn_queue_push`: the item is in no queue. -/
  | queuePush
  /-- `nn_fsm_bad_state`, `nn_fsm_bad_source`, `nn_fsm_bad_action`. -/
  | fsmBad
  /-- `nn_usock_send_raw`: no more was sent than there was. -/
  | usockSendRaw
  /-- `nn_sipc_handler`: `inhdr[0]` is `NN_SIPC_MSG_NORMAL`. -/
  | sipcMsgNormal
  /-- `nn_sipc_handler`: an `instate` that receives. -/
  | sipcInstate
  /-- `nn_sipc_handler`: `outstate` is `NN_SIPC_OUTSTATE_SENDING`. -/
  | sipcSending
  /-- `nn_sipc_send`: the state is active and `outstate` idle. -/
  | sipcSend
  /-- `nn_sipc_recv`: the state is active and `instate` has a message. -/
  | sipcRecv
  /-- `nn_pipebase_start`, `nn_pipebase_received`, `nn_pipebase_sent`, `nn_pipe_send`,
  `nn_pipe_recv`: the states of the pipe. -/
  | pipebase
  /-- `nn_excl_rm`, `nn_excl_in`, `nn_excl_out`. -/
  | excl
  /-- `nn_efd_unsignal`: there was a signal. -/
  | efd
  deriving DecidableEq

/-- `struct nn_excl`: the pipe that is attached, and whether it can be received
from and sent to. -/
structure Excl where
  pipe : Option Nat
  inpipe : Option Nat
  outpipe : Option Nat
  deriving DecidableEq

/-- What a function called under the lock works on: the protocol's part of the
socket, the pipes it has accepted so far, the queue of the context, and the
connection at hand with its number. -/
structure World where
  excl : Excl
  attached : List Nat
  queue : List (Nat × Event)
  self : Nat
  conn : Conn

/-- What the kernel answers to a `recvmsg`: bytes, nothing yet, or an error. No
bytes at all is the end of the stream. -/
inductive Recvmsg
  | data (bytes : List UInt8)
  | again
  | error

/-- What the kernel answers to a `sendmsg`: how much it took, nothing yet, or an
error. -/
inductive Sendmsg
  | took (nbytes : Nat)
  | again
  | error

structure Io where
  recvmsg : Recvmsg
  sendmsg : Sendmsg

namespace World

/-- `nn_fsm_raise`. -/
def raise (w : World) (e : Event) : Except Assert World :=
  if (w.self, e.item) ∈ w.queue.map fun p => (p.1, p.2.item) then .error .queuePush
  else .ok { w with queue := w.queue ++ [(w.self, e)] }

def usock (w : World) : Usock := w.conn.usock

def setUsock (w : World) (u : Usock) : World := { w with conn := { w.conn with usock := u } }

def setTimer (w : World) (t : Timer) : World := { w with conn := { w.conn with timer := t } }

def setStreamhdr (w : World) (s : StreamhdrState) : World :=
  { w with conn := { w.conn with streamhdr := s } }

def setSipc (w : World) (s : Sipc) : World := { w with conn := { w.conn with sipc := s } }

def setPipebase (w : World) (p : Pipebase) : World :=
  { w with conn := { w.conn with pipebase := p } }

def setAipc (w : World) (s : AipcState) : World := { w with conn := { w.conn with aipc := s } }

/-- Whether the event waits in the queue (`nn_fsm_event_active`). -/
def queued (w : World) (e : Event) : Bool := (w.self, e) ∈ w.queue

end World

end Nanomsg
