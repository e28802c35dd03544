import Getd.Nanomsg.Conn

/-!
# The socket of a connection

`aio/usock_posix.inc`, for a socket that has been accepted. A receive is first
served from what an earlier `recvmsg` left in the batch buffer, and a large one
then reads past that buffer. What cannot be done at once goes on when the worker
sees the socket ready.
-/

namespace Nanomsg

def NN_USOCK_BATCH_SIZE : Nat := 2048

/-- `nn_usock_recv_raw`: what it stores in the buffer of `length` bytes, or
`none` for `-ECONNRESET`. -/
def nnUsockRecvRaw (io : Io) (u : Usock) (length : Nat) : Usock × Option (List UInt8) :=
  let first := u.batch.take length
  let rest := length - first.length
  if u.batch ≠ [] ∧ rest = 0 then ({ u with batch := u.batch.drop length }, some first)
  else
    let u := { u with batch := u.batch.drop length }
    let direct := NN_USOCK_BATCH_SIZE < rest
    match io.recvmsg with
    | .error => (u, none)
    | .again => (if direct then u else { u with batch := [] }, some first)
    | .data bytes =>
      let bytes := bytes.take (if direct then rest else NN_USOCK_BATCH_SIZE)
      if bytes = [] then (u, none)
      else
        let u := { u with rx := u.rx ++ bytes }
        if direct then (u, some (first ++ bytes))
        else ({ u with batch := bytes.drop rest }, some (first ++ bytes.take rest))

/-- The loop of `nn_usock_send_raw` over the iovecs, and whether it has come to
their end. -/
def iovAdvance : List (List UInt8) → Nat → Except Assert (List (List UInt8) × Bool)
  | iov, 0 => .ok (iov, iov = [])
  | [], _ + 1 => .error .usockSendRaw
  | base :: iov, nbytes + 1 =>
    if base.length ≤ nbytes + 1 then
      if iov = [] then
        if nbytes + 1 = base.length then .ok ([], true) else .error .usockSendRaw
      else iovAdvance iov (nbytes + 1 - base.length)
    else .ok (base.drop (nbytes + 1) :: iov, false)

/-- `nn_usock_send_raw`: whether all is sent, or `none` for `-ECONNRESET`. -/
def nnUsockSendRaw (io : Io) (u : Usock) : Except Assert (Usock × Option Bool) :=
  match io.sendmsg with
  | .error => .ok (u, none)
  | .again => do
    let (iov, all) ← iovAdvance u.iov 0
    return ({ u with iov := iov }, some all)
  | .took nbytes => do
    let nbytes := min nbytes u.iov.flatten.length
    let (iov, all) ← iovAdvance u.iov nbytes
    return ({ u with iov := iov, tx := u.tx ++ u.iov.flatten.take nbytes }, some all)

def nnUsockAsyncStop (w : World) : Except Assert World :=
  if w.usock.taskStop then .error .queuePush
  else (w.setUsock { w.usock with taskStop := true }).raise (.usock w.usock.owner .shutdown)

/-- `nn_fsm_action (&self->fsm, NN_USOCK_ACTION_ERROR)`. -/
def nnUsockActionError (w : World) : Except Assert World :=
  match w.usock.state with
  | .active => nnUsockAsyncStop (w.setUsock { w.usock with state := .removingFd })
  | .removingFd | .done | .stopping => .ok w
  | .accepted | .idle => .error .fsmBad

def nnUsockSend (io : Io) (w : World) (iov : List (List UInt8)) : Except Assert World :=
  if w.usock.state ≠ .active then nnUsockActionError w
  else do
    let (u, rc) ← nnUsockSendRaw io { w.usock with iov := iov.filter (· ≠ []) }
    match rc with
    | some true => (w.setUsock u).raise (.usock u.owner .sent)
    | none => nnUsockActionError (w.setUsock u)
    | some false =>
      if u.taskSend then .error .queuePush else .ok (w.setUsock { u with taskSend := true })

def nnUsockRecv (io : Io) (w : World) (len : Nat) : Except Assert World :=
  if w.usock.state ≠ .active then nnUsockActionError w
  else
    match nnUsockRecvRaw io w.usock len with
    | (u, none) => nnUsockActionError (w.setUsock u)
    | (u, some bytes) =>
      let u := { u with buf := bytes, len := len - bytes.length }
      if bytes.length = len then (w.setUsock u).raise (.usock u.owner .received)
      else if u.taskRecv then .error .queuePush
      else .ok (w.setUsock { u with taskRecv := true })

def nnUsockStop (w : World) : Except Assert World :=
  match w.usock.state with
  | .idle | .stopping => .ok w
  | .done => (w.setUsock { w.usock with state := .idle }).raise (.usock w.usock.owner .stopped)
  | .accepted => (w.setUsock { w.usock with state := .idle }).raise (.usock w.usock.owner .stopped)
  | .removingFd => .ok (w.setUsock { w.usock with state := .stopping })
  | .active => do
    let w ← nnUsockAsyncStop w
    return w.setUsock { w.usock with state := .stopping }

/-! ## The worker -/

/-- The socket is closed on an error of the connection. -/
def usockError (w : World) : Except Assert World :=
  (w.setUsock { w.usock with state := .done }).raise (.usock w.usock.owner .error)

/-- `NN_WORKER_FD_IN`, when the worker polls for it. -/
def usockFdIn (io : Io) (w : World) : Except Assert World :=
  if w.usock.pollIn = false then .ok w
  else
    match w.usock.state with
    | .active =>
      match nnUsockRecvRaw io w.usock w.usock.len with
      | (u, none) => usockError (w.setUsock u)
      | (u, some bytes) =>
        let u := { u with buf := u.buf ++ bytes, len := u.len - bytes.length }
        if u.len = 0 then
          (w.setUsock { u with pollIn := false }).raise (.usock u.owner .received)
        else .ok (w.setUsock u)
    | .removingFd | .stopping | .accepted | .done | .idle => .ok w

/-- `NN_WORKER_FD_OUT`, when the worker polls for it. -/
def usockFdOut (io : Io) (w : World) : Except Assert World :=
  if w.usock.pollOut = false then .ok w
  else
    match w.usock.state with
    | .active => do
      let (u, rc) ← nnUsockSendRaw io w.usock
      match rc with
      | some true => (w.setUsock { u with pollOut := false }).raise (.usock u.owner .sent)
      | some false => .ok (w.setUsock u)
      | none => usockError (w.setUsock u)
    | .removingFd | .stopping | .accepted | .done | .idle => .ok w

/-- `NN_WORKER_FD_ERR`. -/
def usockFdErr (w : World) : Except Assert World :=
  match w.usock.state with
  | .active => usockError w
  | .removingFd | .stopping | .accepted | .done | .idle => .ok w

/-- The worker comes to `task_send`. -/
def usockTaskSend (w : World) : World :=
  if w.usock.taskSend then w.setUsock { w.usock with taskSend := false, pollOut := true } else w

/-- The worker comes to `task_recv`. -/
def usockTaskRecv (w : World) : World :=
  if w.usock.taskRecv then w.setUsock { w.usock with taskRecv := false, pollIn := true } else w

/-- The worker comes to `task_stop`. -/
def usockTaskStop (w : World) : Except Assert World :=
  if w.usock.taskStop = false then .ok w
  else
    let w := w.setUsock { w.usock with taskStop := false }
    match w.usock.state with
    | .removingFd => usockError w
    | .stopping => (w.setUsock { w.usock with state := .idle }).raise (.usock w.usock.owner .stopped)
    | .done => .ok w
    | .active | .accepted | .idle => .error .fsmBad

end Nanomsg
