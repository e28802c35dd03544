import Getd.Nanomsg.Pipe

/-!
# The state machines of a connection

`aio/timer.c`, `transports/utils/streamhdr.c`, `transports/ipc/sipc.c` and
`transports/ipc/aipc.c`. A connection first exchanges protocol headers, for at
most a second. Then its pipe is offered to the socket, and frames go in both
directions: a byte `NN_SIPC_MSG_NORMAL`, the size in eight bytes and the message.

The listener (`bipc.c` and the listening states of `usock`) is left out, with what
`aipc` tells it: a connection that is done stays as it is.
-/

namespace Nanomsg

open CLib

def NN_PAIR : UInt16 := 16

def NN_SIPC_MSG_NORMAL : UInt8 := 1

/-- `rcvmaxsize` of a socket on which `NN_RCVMAXSIZE` was not set. -/
def rcvmaxsize : Nat := 1024 * 1024

/-! ## The timer -/

def nnTimerStart (w : World) : Except Assert World :=
  if w.conn.timer.state ≠ .idle then .error .fsmBad
  else .ok (w.setTimer { w.conn.timer with state := .active })

def nnTimerStop (w : World) : Except Assert World :=
  if w.conn.timer.state ≠ .active then .ok w
  else if w.conn.timer.stopTask then .error .queuePush
  else .ok (w.setTimer ⟨.stopping, true⟩)

def nnTimerIsidle (w : World) : Bool := w.conn.timer.state = .idle && !w.queued (.timer .stopped)

/-- `NN_WORKER_TIMER_TIMEOUT`. -/
def timerTimeout (w : World) : Except Assert World :=
  match w.conn.timer.state with
  | .active => w.raise (.timer .timeout)
  | .stopping | .idle => .ok w

/-- The worker comes to `stop_task`. -/
def timerStopTask (w : World) : Except Assert World :=
  if w.conn.timer.stopTask = false then .ok w
  else
    match w.conn.timer.state with
    | .stopping => (w.setTimer ⟨.idle, false⟩).raise (.timer .stopped)
    | .active | .idle => .error .fsmBad

/-! ## The protocol headers -/

/-- The header that is sent: the socket is a `NN_PAIR`. -/
def protohdr : List UInt8 := [0, 83, 80, 0] ++ nnPuts NN_PAIR ++ [0, 0]

/-- What is asked of the header that is received. `nn_xpair_ispeer` takes a
`NN_PAIR` for a peer. -/
def protohdrOk (hdr : List UInt8) : Bool :=
  hdr.take 4 = [0, 83, 80, 0] && nnGets (hdr.drop 4) = NN_PAIR

/-- What `nn_streamhdr_handler` is fed. -/
inductive StreamhdrInput
  | usock (type : UsockEvent)
  | timer (type : TimerEvent)

def nnStreamhdrStart (io : Io) (w : World) : Except Assert World :=
  if w.conn.streamhdr ≠ .idle then .error .fsmBad
  else do
    let w ← nnTimerStart (w.setUsock { w.usock with owner := .streamhdr })
    let w ← nnUsockSend io w [protohdr]
    return w.setStreamhdr .sending

/-- The way out on an error. -/
def streamhdrError (w : World) : Except Assert World := do
  let w ← nnTimerStop w
  return w.setStreamhdr .stoppingTimerError

/-- The owner gets the socket back. -/
def streamhdrDone (w : World) (e : StreamhdrEvent) : Except Assert World :=
  ((w.setUsock { w.usock with owner := .sipc }).setStreamhdr .done).raise (.streamhdr e)

/-- The end of `nn_streamhdr_shutdown`. -/
def streamhdrStopping (w : World) : Except Assert World :=
  if nnTimerIsidle w then (w.setStreamhdr .idle).raise (.streamhdr .stopped) else .ok w

def nnStreamhdrHandler (io : Io) (w : World) (input : StreamhdrInput) : Except Assert World :=
  match w.conn.streamhdr, input with
  | .sending, .usock .sent => do
    let w ← nnUsockRecv io w protohdr.length
    return w.setStreamhdr .receiving
  | .sending, .usock .shutdown => .ok w
  | .sending, .usock .error => streamhdrError w
  | .sending, .timer .timeout => streamhdrError w
  | .receiving, .usock .received =>
    if protohdrOk w.usock.buf then do
      let w ← nnTimerStop w
      return w.setStreamhdr .stoppingTimerDone
    else streamhdrError w
  | .receiving, .usock .shutdown => .ok w
  | .receiving, .usock .error => streamhdrError w
  | .receiving, .timer .timeout => streamhdrError w
  | .stoppingTimerError, .usock _ => .ok w
  | .stoppingTimerError, .timer .stopped => streamhdrDone w .error
  | .stoppingTimerDone, .usock _ => .ok w
  | .stoppingTimerDone, .timer .stopped => streamhdrDone w .ok
  | .stopping, _ => streamhdrStopping w
  | _, _ => .error .fsmBad

def nnStreamhdrStop (w : World) : Except Assert World :=
  match w.conn.streamhdr with
  | .idle | .stopping => .ok w
  | .sending | .receiving | .stoppingTimerError | .stoppingTimerDone | .done => do
    let w ← nnTimerStop w
    streamhdrStopping (w.setStreamhdr .stopping)

def nnStreamhdrIsidle (w : World) : Bool :=
  w.conn.streamhdr = .idle && !w.queued (.streamhdr .stopped)

/-! ## The frames -/

/-- What `nn_sipc_handler` is fed. -/
inductive SipcInput
  | usock (type : UsockEvent)
  | streamhdr (type : StreamhdrEvent)

def nnSipcStart (io : Io) (w : World) : Except Assert World :=
  if w.conn.sipc.state ≠ .idle then .error .fsmBad
  else do
    let w ← nnStreamhdrStart io (w.setUsock { w.usock with owner := .sipc })
    return w.setSipc { w.conn.sipc with state := .protohdr }

/-- The end of `nn_sipc_shutdown`. -/
def sipcStopping (w : World) : Except Assert World :=
  if nnStreamhdrIsidle w then
    ((w.setUsock { w.usock with owner := .aipc }).setSipc
      { w.conn.sipc with state := .idle }).raise (.sipc .stopped)
  else .ok w

def nnSipcStop (w : World) : Except Assert World :=
  match w.conn.sipc.state with
  | .idle | .stopping => .ok w
  | .protohdr | .stoppingStreamhdr | .active | .shuttingDown | .done => do
    let w ← nnPipebaseStop w
    let w ← nnStreamhdrStop w
    sipcStopping (w.setSipc { w.conn.sipc with state := .stopping })

/-- The connection is given up. -/
def sipcError (w : World) : Except Assert World :=
  (w.setSipc { w.conn.sipc with state := .done }).raise (.sipc .error)

/-- The size of the message, in the header of its frame. -/
def hdrSize (inhdr : List UInt8) : Nat := (nnGetll (inhdr.drop 1)).toNat

/-- `NN_USOCK_RECEIVED` in the active state. -/
def sipcReceived (io : Io) (w : World) : Except Assert World :=
  match w.conn.sipc.instate with
  | .hdr =>
    let inhdr := w.usock.buf
    if inhdr.head? ≠ some NN_SIPC_MSG_NORMAL then .error .sipcMsgNormal
    else
      let size := hdrSize inhdr
      if rcvmaxsize < size then sipcError w
      else if size = 0 then
        nnPipebaseReceived (w.setSipc { w.conn.sipc with instate := .hasmsg, inmsg := [] })
      else nnUsockRecv io (w.setSipc { w.conn.sipc with instate := .body }) size
  | .body =>
    nnPipebaseReceived (w.setSipc { w.conn.sipc with instate := .hasmsg, inmsg := w.usock.buf })
  | .unset | .hasmsg => .error .sipcInstate

/-- `NN_USOCK_SENT` in the active state. -/
def sipcSent (w : World) : Except Assert World :=
  if w.conn.sipc.outstate ≠ .sending then .error .sipcSending
  else nnPipebaseSent (w.setSipc { w.conn.sipc with outstate := .idle })

def nnSipcHandler (io : Io) (w : World) (input : SipcInput) : Except Assert World :=
  match w.conn.sipc.state, input with
  | .protohdr, .streamhdr .ok => do
    let w ← nnStreamhdrStop w
    return w.setSipc { w.conn.sipc with state := .stoppingStreamhdr }
  | .protohdr, .streamhdr .error => sipcError w
  | .stoppingStreamhdr, .streamhdr .stopped => do
    let (w, started) ← nnPipebaseStart w
    if started then
      let w ← nnUsockRecv io (w.setSipc { w.conn.sipc with instate := .hdr }) 9
      return w.setSipc { w.conn.sipc with outstate := .idle, state := .active }
    else sipcError w
  | .active, .usock .sent => sipcSent w
  | .active, .usock .received => sipcReceived io w
  | .active, .usock .shutdown => do
    let w ← nnPipebaseStop w
    return w.setSipc { w.conn.sipc with state := .shuttingDown }
  | .active, .usock .error => do
    let w ← nnPipebaseStop w
    sipcError w
  | .shuttingDown, .usock .error => sipcError w
  | .stopping, _ => sipcStopping w
  | _, _ => .error .fsmBad

/-- The frame of a message. -/
def frame (msg : Msg) : List UInt8 :=
  NN_SIPC_MSG_NORMAL :: nnPutll (UInt64.ofNat msg.length) ++ msg

/-- `nn_sipc_send`. The header `sphdr` of the protocol is empty. -/
def nnSipcSend (io : Io) (w : World) (msg : Msg) : Except Assert World :=
  if w.conn.sipc.state ≠ .active ∨ w.conn.sipc.outstate ≠ .idle then .error .sipcSend
  else do
    let outhdr := NN_SIPC_MSG_NORMAL :: nnPutll (UInt64.ofNat msg.length)
    let w ← nnUsockSend io w [outhdr, [], msg]
    return w.setSipc { w.conn.sipc with outstate := .sending }

/-- `nn_sipc_recv`, and the message. -/
def nnSipcRecv (io : Io) (w : World) : Except Assert (World × Msg) :=
  if w.conn.sipc.state ≠ .active ∨ w.conn.sipc.instate ≠ .hasmsg then .error .sipcRecv
  else do
    let msg := w.conn.sipc.inmsg
    let w ← nnUsockRecv io (w.setSipc { w.conn.sipc with instate := .hdr, inmsg := [] }) 9
    return (w, msg)

/-! ## The pipe, from the socket -/

/-- `nn_pipe_send`, and whether it returns `NN_PIPEBASE_RELEASE`. -/
def nnPipeSend (io : Io) (w : World) (msg : Msg) : Except Assert (World × Bool) :=
  if w.conn.pipebase.outstate ≠ .idle then .error .pipebase
  else do
    let p := { w.conn.pipebase with outstate := .sending, sent := w.conn.pipebase.sent ++ [msg] }
    let w ← nnSipcSend io (w.setPipebase p) msg
    match w.conn.pipebase.outstate with
    | .sent => return (w.setPipebase { w.conn.pipebase with outstate := .idle }, false)
    | .sending => return (w.setPipebase { w.conn.pipebase with outstate := .async }, true)
    | .deactivated | .idle | .async => .error .pipebase

/-- `nn_pipe_recv`, the message, and whether it returns `NN_PIPEBASE_RELEASE`. -/
def nnPipeRecv (io : Io) (w : World) : Except Assert (World × Msg × Bool) :=
  if w.conn.pipebase.instate ≠ .idle then .error .pipebase
  else do
    let (w, msg) ← nnSipcRecv io (w.setPipebase { w.conn.pipebase with instate := .receiving })
    let p := { w.conn.pipebase with recvd := w.conn.pipebase.recvd ++ [msg] }
    match w.conn.pipebase.instate with
    | .received => return (w.setPipebase { p with instate := .idle }, msg, false)
    | .receiving => return (w.setPipebase { p with instate := .async }, msg, true)
    | .deactivated | .idle | .async => .error .pipebase

/-! ## The owner -/

/-- What `nn_aipc_handler` is fed. -/
inductive AipcInput
  | usock (type : UsockEvent)
  | sipc (type : SipcEvent)

def nnAipcHandler (io : Io) (w : World) (input : AipcInput) : Except Assert World :=
  match w.conn.aipc, input with
  | .accepting, .usock .accepted => do
    let w ← nnSipcStart io (w.setUsock { w.usock with state := .active })
    return w.setAipc .active
  | .active, .sipc .error => do
    let w ← nnSipcStop w
    return w.setAipc .stoppingSipc
  | .stoppingSipc, .sipc .stopped => do
    let w ← nnUsockStop w
    return w.setAipc .stoppingUsock
  | .stoppingUsock, .usock .shutdown => .ok w
  | .stoppingUsock, .usock .stopped => .ok (w.setAipc .done)
  | _, _ => .error .fsmBad

/-! ## Events -/

/-- `nn_fsm_event_process`: the event is fed to the machine it is for. The events
of a pipe go to `nn_sock_handler`. -/
def process (io : Io) (w : World) : Event → Except Assert World
  | .usock .aipc e => nnAipcHandler io w (.usock e)
  | .usock .sipc e => nnSipcHandler io w (.usock e)
  | .usock .streamhdr e => nnStreamhdrHandler io w (.usock e)
  | .timer e => nnStreamhdrHandler io w (.timer e)
  | .streamhdr e => nnSipcHandler io w (.streamhdr e)
  | .sipc e => nnAipcHandler io w (.sipc e)
  | .pipe .pipeIn => do return { w with excl := ← nnExclIn w.excl w.self }
  | .pipe .pipeOut => do return { w with excl := ← nnExclOut w.excl w.self }

end Nanomsg
