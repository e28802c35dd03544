import Getd.Lib.Checked
import Getd.Nanomsg.Sipc

/-!
# What a function posts

A connection posts a task at most once and knows of each whether it is there: `taskSend`,
`taskRecv` and `taskStop` of its `nn_usock` and `stopTask` of its timer. Everything that is
done to a connection under the lock may post tasks and takes none out (`process_posts`), but
for the worker when it comes to one (`Done`).
-/

namespace Nanomsg

open CLib

variable {w u : World} {io : Io}

/-- The tasks that a connection can have in the queues of the worker. -/
inductive ConnTask
  | send | recv | stop | timerStop
  deriving DecidableEq

/-- Whether a task is there, as the connection knows. -/
def Conn.posted (conn : Conn) : ConnTask → Bool
  | .send => conn.usock.taskSend
  | .recv => conn.usock.taskRecv
  | .stop => conn.usock.taskStop
  | .timerStop => conn.timer.stopTask

/-- A timer is started first and stopped then. -/
def TimerState.rank : TimerState → Nat
  | .idle => 0
  | .active => 1
  | .stopping => 2

/-- No task of the connection has been taken out, and its timer has not gone back. -/
structure Later (w w' : World) : Prop where
  self : w'.self = w.self
  posted : ∀ k, w.conn.posted k = true → w'.conn.posted k = true
  timer : w.conn.timer.state.rank ≤ w'.conn.timer.state.rank

theorem Later.refl (w : World) : Later w w := ⟨rfl, fun _ h => h, Nat.le_refl _⟩

theorem Later.trans {v : World} (h : Later w u) (h' : Later u v) : Later w v :=
  ⟨h'.self.trans h.self, fun k hk => h'.posted k (h.posted k hk),
    Nat.le_trans h.timer h'.timer⟩

def Posts {α : Type} (p : α → World) (w : World) (r : Except Assert α) : Prop :=
  ∀ a, r = .ok a → Later w (p a)

abbrev PostsTo (w : World) (r : Except Assert World) : Prop := Posts id w r

theorem Posts.ok {α : Type} {p : α → World} {a : α} (h : Later w (p a)) : Posts p w (.ok a) :=
  fun _ hb => by cases hb; exact h

theorem Posts.error {α : Type} {p : α → World} {e : Assert} : Posts p w (.error e) := nofun

theorem Posts.bind {α β : Type} {p : α → World} {q : β → World} {r : Except Assert α}
    {f : α → Except Assert β} (h : Posts p w r) (hf : ∀ a, Posts q (p a) (f a)) :
    Posts q w (r >>= f) := fun b hb => by
  cases r with
  | error e => cases hb
  | ok a => exact (h a rfl).trans (hf a b hb)

theorem Posts.from {α : Type} {p : α → World} {r : Except Assert α} (h : Posts p u r)
    (hl : Later w u) : Posts p w r := fun a ha => hl.trans (h a ha)

theorem raise_posts (w : World) (e : Event) : PostsTo w (w.raise e) := by
  unfold World.raise
  split
  · exact .error
  · exact .ok ⟨rfl, fun _ h => h, Nat.le_refl _⟩

theorem later_setStreamhdr (w : World) (s : StreamhdrState) : Later w (w.setStreamhdr s) :=
  ⟨rfl, fun k h => by cases k <;> exact h, Nat.le_refl _⟩

theorem later_setSipc (w : World) (s : Sipc) : Later w (w.setSipc s) :=
  ⟨rfl, fun k h => by cases k <;> exact h, Nat.le_refl _⟩

theorem later_setPipebase (w : World) (p : Pipebase) : Later w (w.setPipebase p) :=
  ⟨rfl, fun k h => by cases k <;> exact h, Nat.le_refl _⟩

theorem later_setAipc (w : World) (s : AipcState) : Later w (w.setAipc s) :=
  ⟨rfl, fun k h => by cases k <;> exact h, Nat.le_refl _⟩

theorem later_setTimer {t : Timer} (h : w.conn.timer.stopTask = true → t.stopTask = true)
    (hrank : w.conn.timer.state.rank ≤ t.state.rank) : Later w (w.setTimer t) := by
  refine ⟨rfl, fun k hk => ?_, hrank⟩
  cases k with
  | timerStop => exact h hk
  | send | recv | stop => exact hk

theorem later_setUsock {v : Usock} (hs : w.usock.taskSend = true → v.taskSend = true)
    (hr : w.usock.taskRecv = true → v.taskRecv = true)
    (ht : w.usock.taskStop = true → v.taskStop = true) : Later w (w.setUsock v) := by
  refine ⟨rfl, fun k hk => ?_, Nat.le_refl _⟩
  cases k with
  | timerStop => exact hk
  | send => exact hs hk
  | recv => exact hr hk
  | stop => exact ht hk

theorem later_give (w : World) (o : Owner) : Later w (w.setUsock { w.usock with owner := o }) :=
  later_setUsock id id id

/-! ## The socket of a connection -/

theorem nnUsockAsyncStop_posts (w : World) : PostsTo w (nnUsockAsyncStop w) := by
  unfold nnUsockAsyncStop
  split
  · exact .error
  · exact (raise_posts _ _).from (later_setUsock id id fun _ => rfl)

theorem nnUsockActionError_posts (w : World) : PostsTo w (nnUsockActionError w) := by
  unfold nnUsockActionError
  split
  · exact (nnUsockAsyncStop_posts _).from (later_setUsock id id id)
  · exact .ok (.refl w)
  · exact .ok (.refl w)
  · exact .ok (.refl w)
  · exact .error
  · exact .error

theorem nnUsockSendRaw_tasks {u u' : Usock} {rc : Option Bool}
    (h : nnUsockSendRaw io u = .ok (u', rc)) :
    u'.taskSend = u.taskSend ∧ u'.taskRecv = u.taskRecv ∧ u'.taskStop = u.taskStop := by
  unfold nnUsockSendRaw at h
  cases hio : io.sendmsg with
  | error =>
    rw [hio] at h
    cases h
    exact ⟨rfl, rfl, rfl⟩
  | again =>
    rw [hio] at h
    dsimp only at h
    cases hadv : iovAdvance u.iov 0 with
    | error e => rw [hadv] at h; cases h
    | ok r =>
      rw [hadv] at h
      cases h
      exact ⟨rfl, rfl, rfl⟩
  | took n =>
    rw [hio] at h
    dsimp only at h
    cases hadv : iovAdvance u.iov (min n u.iov.flatten.length) with
    | error e => rw [hadv] at h; cases h
    | ok r =>
      rw [hadv] at h
      cases h
      exact ⟨rfl, rfl, rfl⟩

theorem nnUsockRecvRaw_tasks (io : Io) (u : Usock) (n : Nat) :
    (nnUsockRecvRaw io u n).1.taskSend = u.taskSend ∧ (nnUsockRecvRaw io u n).1.taskRecv = u.taskRecv ∧
      (nnUsockRecvRaw io u n).1.taskStop = u.taskStop := by
  unfold nnUsockRecvRaw
  dsimp only
  split
  · exact ⟨rfl, rfl, rfl⟩
  split
  · exact ⟨rfl, rfl, rfl⟩
  · split <;> exact ⟨rfl, rfl, rfl⟩
  · split <;> split <;> exact ⟨rfl, rfl, rfl⟩

theorem later_of_tasks {v : Usock} (h : v.taskSend = w.usock.taskSend ∧
    v.taskRecv = w.usock.taskRecv ∧ v.taskStop = w.usock.taskStop) : Later w (w.setUsock v) :=
  later_setUsock (fun hs => h.1.trans hs) (fun hr => h.2.1.trans hr) fun ht => h.2.2.trans ht

theorem nnUsockSend_posts (w : World) (iov : List (List UInt8)) : PostsTo w (nnUsockSend io w iov) := by
  unfold nnUsockSend
  split
  · exact nnUsockActionError_posts w
  cases hraw : nnUsockSendRaw io { w.usock with iov := iov.filter (· ≠ []) } with
  | error e => exact .error
  | ok r =>
    obtain ⟨u, rc⟩ := r
    have htasks := nnUsockSendRaw_tasks hraw
    rw [ok_bind]
    dsimp only
    split
    · exact (raise_posts _ _).from (later_of_tasks htasks)
    · exact (nnUsockActionError_posts _).from (later_of_tasks htasks)
    · split
      · exact .error
      · exact .ok (later_setUsock (fun _ => rfl) (fun h => htasks.2.1.trans h)
          fun h => htasks.2.2.trans h)

theorem nnUsockRecv_posts (w : World) (len : Nat) : PostsTo w (nnUsockRecv io w len) := by
  unfold nnUsockRecv
  split
  · exact nnUsockActionError_posts w
  have htasks := nnUsockRecvRaw_tasks io w.usock len
  generalize nnUsockRecvRaw io w.usock len = r at htasks
  obtain ⟨u, rc⟩ := r
  cases rc with
  | none => exact (nnUsockActionError_posts _).from (later_of_tasks htasks)
  | some bytes =>
    dsimp only
    split
    · exact (raise_posts _ _).from (later_of_tasks htasks)
    split
    · exact .error
    · exact .ok (later_setUsock (fun h => htasks.1.trans h) (fun _ => rfl)
        fun h => htasks.2.2.trans h)

theorem nnUsockStop_posts (w : World) : PostsTo w (nnUsockStop w) := by
  unfold nnUsockStop
  split
  · exact .ok (.refl w)
  · exact .ok (.refl w)
  · exact (raise_posts _ _).from (later_setUsock id id id)
  · exact (raise_posts _ _).from (later_setUsock id id id)
  · exact .ok (later_setUsock id id id)
  · exact (nnUsockAsyncStop_posts w).bind fun v => .ok (later_setUsock id id id)

theorem usockError_posts (w : World) : PostsTo w (usockError w) :=
  (raise_posts _ _).from (later_setUsock id id id)

theorem usockFdErr_posts (w : World) : PostsTo w (usockFdErr w) := by
  unfold usockFdErr
  split
  · exact usockError_posts w
  all_goals exact .ok (.refl w)

theorem usockFdIn_posts (w : World) : PostsTo w (usockFdIn io w) := by
  unfold usockFdIn
  split
  · exact .ok (.refl w)
  split
  · have htasks := nnUsockRecvRaw_tasks io w.usock w.usock.len
    generalize nnUsockRecvRaw io w.usock w.usock.len = r at htasks
    obtain ⟨u, rc⟩ := r
    cases rc with
    | none => exact (usockError_posts _).from (later_of_tasks htasks)
    | some bytes =>
      dsimp only
      split
      · exact (raise_posts _ _).from (later_of_tasks htasks)
      · exact .ok (later_of_tasks htasks)
  all_goals exact .ok (.refl w)

theorem usockFdOut_posts (w : World) : PostsTo w (usockFdOut io w) := by
  unfold usockFdOut
  split
  · exact .ok (.refl w)
  split
  · cases hraw : nnUsockSendRaw io w.usock with
    | error e => exact .error
    | ok r =>
      obtain ⟨u, rc⟩ := r
      have htasks := nnUsockSendRaw_tasks hraw
      rw [ok_bind]
      dsimp only
      split
      · exact (raise_posts _ _).from (later_of_tasks htasks)
      · exact .ok (later_of_tasks htasks)
      · exact (usockError_posts _).from (later_of_tasks htasks)
  all_goals exact .ok (.refl w)

/-! ## The machines above it -/

theorem nnTimerStart_posts (w : World) : PostsTo w (nnTimerStart w) := by
  unfold nnTimerStart
  split
  · exact .error
  · next hidle => exact .ok (later_setTimer id (not_not.mp hidle ▸ Nat.zero_le _))

theorem nnTimerStop_posts (w : World) : PostsTo w (nnTimerStop w) := by
  unfold nnTimerStop
  split
  · exact .ok (.refl w)
  next hactive =>
    split
    · exact .error
    · exact .ok (later_setTimer (fun _ => rfl) (not_not.mp hactive ▸ Nat.le_succ 1))

theorem timerTimeout_posts (w : World) : PostsTo w (timerTimeout w) := by
  unfold timerTimeout
  split
  · exact raise_posts w _
  · exact .ok (.refl w)
  · exact .ok (.refl w)

theorem nnStreamhdrStart_posts (w : World) : PostsTo w (nnStreamhdrStart io w) := by
  unfold nnStreamhdrStart
  split
  · exact .error
  refine ((nnTimerStart_posts _).from (later_give w .streamhdr)).bind fun v => ?_
  exact (nnUsockSend_posts v _).bind fun v => .ok (later_setStreamhdr v _)

theorem streamhdrError_posts (w : World) : PostsTo w (streamhdrError w) :=
  (nnTimerStop_posts w).bind fun v => .ok (later_setStreamhdr v _)

theorem streamhdrDone_posts (w : World) (e : StreamhdrEvent) : PostsTo w (streamhdrDone w e) :=
  (raise_posts _ _).from ((later_give w .sipc).trans (later_setStreamhdr _ _))

theorem streamhdrStopping_posts (w : World) : PostsTo w (streamhdrStopping w) := by
  unfold streamhdrStopping
  split
  · exact (raise_posts _ _).from (later_setStreamhdr w _)
  · exact .ok (.refl w)

theorem nnStreamhdrHandler_posts (w : World) (input : StreamhdrInput) :
    PostsTo w (nnStreamhdrHandler io w input) := by
  unfold nnStreamhdrHandler
  split
  case h_1 => exact (nnUsockRecv_posts w _).bind fun v => .ok (later_setStreamhdr v _)
  case h_5 =>
    split
    · exact (nnTimerStop_posts w).bind fun v => .ok (later_setStreamhdr v _)
    · exact streamhdrError_posts w
  all_goals first
    | exact .ok (.refl w)
    | exact streamhdrError_posts w
    | exact streamhdrDone_posts w _
    | exact streamhdrStopping_posts w
    | exact .error

theorem nnStreamhdrStop_posts (w : World) : PostsTo w (nnStreamhdrStop w) := by
  have hstop : PostsTo w (nnTimerStop w >>= fun v => streamhdrStopping (v.setStreamhdr .stopping)) :=
    (nnTimerStop_posts w).bind fun v =>
      (streamhdrStopping_posts _).from (later_setStreamhdr v _)
  unfold nnStreamhdrStop
  split
  all_goals first
    | exact .ok (.refl w)
    | exact hstop

theorem nnPipebaseStart_posts (w : World) : Posts Prod.fst w (nnPipebaseStart w) := by
  unfold nnPipebaseStart
  split
  · exact .error
  dsimp only
  split
  · exact .ok (later_setPipebase w _)
  · next x _ =>
    have hlater : Later w { w.setPipebase { w.conn.pipebase with
        state := .active, instate := .async, outstate := .idle } with
        excl := x, attached := w.attached ++ [w.self] } :=
      ⟨rfl, fun k h => by cases k <;> exact h, Nat.le_refl _⟩
    exact ((raise_posts _ _).from hlater).bind fun v => .ok (a := (v, true)) (.refl v)

theorem nnPipebaseStop_posts (w : World) : PostsTo w (nnPipebaseStop w) := by
  unfold nnPipebaseStop
  dsimp only
  split
  · cases nnExclRm w.excl with
    | error e => exact .error
    | ok x => exact .ok ⟨rfl, fun k h => by cases k <;> exact h, Nat.le_refl _⟩
  · exact .ok (later_setPipebase w _)

theorem nnPipebaseReceived_posts (w : World) : PostsTo w (nnPipebaseReceived w) := by
  unfold nnPipebaseReceived
  split
  · exact .ok (later_setPipebase w _)
  · exact (raise_posts _ _).from (later_setPipebase w _)
  all_goals exact .error

theorem nnPipebaseSent_posts (w : World) : PostsTo w (nnPipebaseSent w) := by
  unfold nnPipebaseSent
  split
  · exact .ok (later_setPipebase w _)
  · exact (raise_posts _ _).from (later_setPipebase w _)
  all_goals exact .error

theorem nnSipcStart_posts (w : World) : PostsTo w (nnSipcStart io w) := by
  unfold nnSipcStart
  split
  · exact .error
  · exact ((nnStreamhdrStart_posts _).from (later_give w .sipc)).bind fun v =>
      .ok (later_setSipc v _)

theorem sipcStopping_posts (w : World) : PostsTo w (sipcStopping w) := by
  unfold sipcStopping
  split
  · exact (raise_posts _ _).from ((later_give w .aipc).trans (later_setSipc _ _))
  · exact .ok (.refl w)

theorem nnSipcStop_posts (w : World) : PostsTo w (nnSipcStop w) := by
  have hstop : PostsTo w (nnPipebaseStop w >>= fun v => nnStreamhdrStop v >>= fun v =>
      sipcStopping (v.setSipc { v.conn.sipc with state := .stopping })) :=
    (nnPipebaseStop_posts w).bind fun v => (nnStreamhdrStop_posts v).bind fun v =>
      (sipcStopping_posts _).from (later_setSipc v _)
  unfold nnSipcStop
  split
  all_goals first
    | exact .ok (.refl w)
    | exact hstop

theorem sipcError_posts (w : World) : PostsTo w (sipcError w) :=
  (raise_posts _ _).from (later_setSipc w _)

theorem sipcReceived_posts (w : World) : PostsTo w (sipcReceived io w) := by
  unfold sipcReceived
  split
  · dsimp only
    split
    · exact .error
    split
    · exact sipcError_posts w
    split
    · exact (nnPipebaseReceived_posts _).from (later_setSipc w _)
    · exact (nnUsockRecv_posts _ _).from (later_setSipc w _)
  · exact (nnPipebaseReceived_posts _).from (later_setSipc w _)
  all_goals exact .error

theorem sipcSent_posts (w : World) : PostsTo w (sipcSent w) := by
  unfold sipcSent
  split
  · exact .error
  · exact (nnPipebaseSent_posts _).from (later_setSipc w _)

theorem nnSipcHandler_posts (w : World) (input : SipcInput) : PostsTo w (nnSipcHandler io w input) := by
  unfold nnSipcHandler
  split
  · exact (nnStreamhdrStop_posts w).bind fun v => .ok (later_setSipc v _)
  · exact sipcError_posts w
  · refine (nnPipebaseStart_posts w).bind fun v => ?_
    dsimp only
    split
    · exact ((nnUsockRecv_posts _ _).from (later_setSipc v.1 _)).bind fun v =>
        .ok (later_setSipc v _)
    · exact sipcError_posts v.1
  · exact sipcSent_posts w
  · exact sipcReceived_posts w
  · exact (nnPipebaseStop_posts w).bind fun v => .ok (later_setSipc v _)
  · exact (nnPipebaseStop_posts w).bind fun v => sipcError_posts v
  · exact sipcError_posts w
  · exact sipcStopping_posts w
  · exact .error

theorem nnSipcSend_posts (w : World) (msg : Msg) : PostsTo w (nnSipcSend io w msg) := by
  unfold nnSipcSend
  split
  · exact .error
  · exact (nnUsockSend_posts w _).bind fun v => .ok (later_setSipc v _)

theorem nnSipcRecv_posts (w : World) : Posts Prod.fst w (nnSipcRecv io w) := by
  unfold nnSipcRecv
  split
  · exact .error
  · exact ((nnUsockRecv_posts _ _).from (later_setSipc w _)).bind fun v => .ok (.refl v)

theorem nnPipeSend_posts (w : World) (msg : Msg) : Posts Prod.fst w (nnPipeSend io w msg) := by
  unfold nnPipeSend
  split
  · exact .error
  refine ((nnSipcSend_posts _ msg).from (later_setPipebase w _)).bind fun v => ?_
  dsimp only
  split
  · exact .ok (later_setPipebase v _)
  · exact .ok (later_setPipebase v _)
  all_goals exact .error

theorem nnPipeRecv_posts (w : World) : Posts Prod.fst w (nnPipeRecv io w) := by
  unfold nnPipeRecv
  split
  · exact .error
  refine ((nnSipcRecv_posts _).from (later_setPipebase w _)).bind fun v => ?_
  dsimp only
  split
  · exact .ok (later_setPipebase v.1 _)
  · exact .ok (later_setPipebase v.1 _)
  all_goals exact .error

theorem nnAipcHandler_posts (w : World) (input : AipcInput) : PostsTo w (nnAipcHandler io w input) := by
  unfold nnAipcHandler
  split
  · have hlater : Later w (w.setUsock { w.usock with state := .active }) := later_setUsock id id id
    exact ((nnSipcStart_posts _).from hlater).bind fun v => .ok (later_setAipc v _)
  · exact (nnSipcStop_posts w).bind fun v => .ok (later_setAipc v _)
  · exact (nnUsockStop_posts w).bind fun v => .ok (later_setAipc v _)
  · exact .ok (.refl w)
  · exact .ok (later_setAipc w _)
  · exact .error

theorem process_posts (w : World) (e : Event) : PostsTo w (process io w e) := by
  cases e with
  | usock owner e =>
    cases owner with
    | aipc => exact nnAipcHandler_posts w _
    | sipc => exact nnSipcHandler_posts w _
    | streamhdr => exact nnStreamhdrHandler_posts w _
  | timer e => exact nnStreamhdrHandler_posts w _
  | streamhdr e => exact nnSipcHandler_posts w _
  | sipc e => exact nnAipcHandler_posts w _
  | pipe e =>
    cases e with
    | pipeIn =>
      show PostsTo w (nnExclIn w.excl w.self >>= fun x => pure { w with excl := x })
      cases nnExclIn w.excl w.self with
      | error e => exact .error
      | ok x => exact .ok ⟨rfl, fun _ h => h, Nat.le_refl _⟩
    | pipeOut =>
      show PostsTo w (nnExclOut w.excl w.self >>= fun x => pure { w with excl := x })
      cases nnExclOut w.excl w.self with
      | error e => exact .error
      | ok x => exact .ok ⟨rfl, fun _ h => h, Nat.le_refl _⟩

/-! ## The worker comes to a task -/

/-- The worker has come to the task `k` of the connection, and no other is taken out. The
timer is idle again when it has come to its `stop_task`. -/
structure Done (k : ConnTask) (w w' : World) : Prop where
  self : w'.self = w.self
  done : w'.conn.posted k = false
  posted : ∀ j, j ≠ k → w.conn.posted j = true → w'.conn.posted j = true
  timer : w'.conn.timer.state =
    if k = .timerStop ∧ w.conn.posted k then .idle else w.conn.timer.state

theorem raise_conn {e : Event} (h : w.raise e = .ok u) : u.self = w.self ∧ u.conn = w.conn := by
  unfold World.raise at h
  split at h
  · cases h
  · cases h
    exact ⟨rfl, rfl⟩

theorem Done.raise {k : ConnTask} {v : World} {e : Event} (h : Done k w v)
    (hr : v.raise e = .ok u) : Done k w u := by
  obtain ⟨hself, hconn⟩ := raise_conn hr
  exact ⟨hself.trans h.self, hconn ▸ h.done, hconn ▸ h.posted, hconn ▸ h.timer⟩

theorem Done.none {k : ConnTask} (h : w.conn.posted k = false) : Done k w w := by
  refine ⟨rfl, h, fun _ _ h => h, ?_⟩
  rw [h, if_neg nofun]

theorem taskSend_done (w : World) : Done .send w (usockTaskSend w) := by
  unfold usockTaskSend
  split
  · exact ⟨rfl, rfl, fun j hj h => by cases j with
      | send => exact absurd rfl hj
      | recv | stop | timerStop => exact h, rfl⟩
  · next hno => exact .none (eq_false_of_ne_true hno)

theorem taskRecv_done (w : World) : Done .recv w (usockTaskRecv w) := by
  unfold usockTaskRecv
  split
  · exact ⟨rfl, rfl, fun j hj h => by cases j with
      | recv => exact absurd rfl hj
      | send | stop | timerStop => exact h, rfl⟩
  · next hno => exact .none (eq_false_of_ne_true hno)

theorem taskStop_done (h : usockTaskStop w = .ok u) : Done .stop w u := by
  have hout (state : UsockState) :
      Done .stop w (w.setUsock { w.usock with taskStop := false, state := state }) :=
    ⟨rfl, rfl, fun j hj h => by cases j with
      | stop => exact absurd rfl hj
      | send | recv | timerStop => exact h, rfl⟩
  unfold usockTaskStop at h
  split at h
  · next hno =>
    cases h
    exact .none hno
  dsimp only at h
  split at h
  · exact (hout .done).raise h
  · exact (hout .idle).raise h
  · cases h
    exact hout w.usock.state
  all_goals cases h

theorem timerTask_done (h : timerStopTask w = .ok u) : Done .timerStop w u := by
  unfold timerStopTask at h
  split at h
  · next hno =>
    cases h
    exact .none hno
  next hposted =>
    have hout : Done .timerStop w (w.setTimer ⟨.idle, false⟩) := by
      refine ⟨rfl, rfl, fun j hj h => ?_, (if_pos ⟨rfl, eq_true_of_ne_false hposted⟩).symm⟩
      cases j with
      | timerStop => exact absurd rfl hj
      | send | recv | stop => exact h
    split at h
    · exact hout.raise h
    all_goals cases h

end Nanomsg
