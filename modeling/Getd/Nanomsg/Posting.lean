import Mathlib.Data.List.Nodup
import Getd.Nanomsg.Posts
import Getd.Nanomsg.Stream
import Getd.Nanomsg.Tasks

/-!
# The tasks of the connections

The socket beside the queues of its worker, which comes to the tasks in the order in which
they were posted. In every run the fields of the connections say which tasks are in the
queues (`posting_right`).
-/

namespace Nanomsg

open CLib

variable {w u : World} {io : Io}

/-! ## The steps of the socket -/

def Sock.posted (s : Sock) (t : Nat × ConnTask) : Bool := (s.conns[t.1]?).any (·.posted t.2)

def Sock.timer (s : Sock) (c : Nat) : TimerState := (s.conns[c]?).elim .idle (·.timer.state)

/-- The task that the worker comes to. -/
def Action.task : Action → Option (Nat × ConnTask)
  | .taskSend c => some (c, .send)
  | .taskRecv c => some (c, .recv)
  | .taskStop c => some (c, .stop)
  | .timerTask c => some (c, .timerStop)
  | _ => none

variable {s s' : Sock} {c : Nat} {f : World → Except Assert World} {t : Nat × ConnTask}

/-- What a function does to its connection is what is done to the socket. -/
theorem on_ok (h : s.on c f = .ok s') : s' = s ∧ s.conns[c]? = none ∨
    ∃ conn w, s.conns[c]? = some conn ∧ f (s.world c conn) = .ok w ∧ s' = s.put w := by
  unfold Sock.on at h
  split at h
  · next hnone =>
    cases h
    exact .inl ⟨rfl, hnone⟩
  · next conn hconn =>
    cases hf : f (s.world c conn) with
    | error e =>
      rw [hf] at h
      cases h
    | ok w =>
      rw [hf] at h
      cases h
      exact .inr ⟨conn, w, hconn, hf, rfl⟩

theorem posted_put {conn : Conn} {w : World} (hconn : s.conns[c]? = some conn) (hself : w.self = c)
    (k : ConnTask) : (s.put w).posted (c, k) = w.conn.posted k := by
  have hlt : c < s.conns.length := (List.getElem?_eq_some_iff.mp hconn).1
  simp only [Sock.posted, Sock.put, hself, List.getElem?_set_self hlt, Option.any_some]

theorem posted_put_ne {w : World} (hne : t.1 ≠ w.self) : (s.put w).posted t = s.posted t := by
  simp only [Sock.posted, Sock.put, List.getElem?_set_ne (Ne.symm hne)]

theorem timer_put {conn : Conn} {w : World} (hconn : s.conns[c]? = some conn) (hself : w.self = c) :
    (s.put w).timer c = w.conn.timer.state := by
  have hlt : c < s.conns.length := (List.getElem?_eq_some_iff.mp hconn).1
  simp only [Sock.timer, Sock.put, hself, List.getElem?_set_self hlt, Option.elim_some]

theorem timer_put_ne {w : World} {d : Nat} (hne : d ≠ w.self) : (s.put w).timer d = s.timer d := by
  simp only [Sock.timer, Sock.put, List.getElem?_set_ne (Ne.symm hne)]

/-- What a turn may do to the tasks and timers: it posts some tasks, and takes out at most
one, `done`. -/
structure TaskTurn (s s' : Sock) (done : Option (Nat × ConnTask)) : Prop where
  posted : ∀ t, s.posted t = true → done ≠ some t → s'.posted t = true
  out : ∀ t, done = some t → s'.posted t = false
  timer : ∀ c, done ≠ some (c, .timerStop) → (s.timer c).rank ≤ (s'.timer c).rank
  idle : ∀ c, done = some (c, .timerStop) →
    s'.timer c = if s.posted (c, .timerStop) then .idle else s.timer c

theorem posted_conn {conn : Conn} (hconn : s.conns[c]? = some conn) (k : ConnTask) :
    s.posted (c, k) = conn.posted k := by
  unfold Sock.posted
  rw [hconn]
  rfl

theorem timer_conn {conn : Conn} (hconn : s.conns[c]? = some conn) :
    s.timer c = conn.timer.state := by
  unfold Sock.timer
  rw [hconn]
  rfl

theorem put_later {conn : Conn} {w : World} (hconn : s.conns[c]? = some conn)
    (h : Later (s.world c conn) w) : TaskTurn s (s.put w) none := by
  have hself : w.self = c := h.self
  refine ⟨fun t ht _ => ?_, nofun, fun d _ => ?_, nofun⟩
  · obtain ⟨d, k⟩ := t
    by_cases hd : d = c
    · subst hd
      rw [posted_put hconn hself]
      exact h.posted k ((posted_conn hconn k).symm.trans ht)
    · exact (posted_put_ne (hself.symm ▸ hd)).trans ht
  · by_cases hd : d = c
    · subst hd
      rw [timer_put hconn hself, timer_conn hconn]
      exact h.timer
    · exact Nat.le_of_eq (congrArg TimerState.rank (timer_put_ne (hself.symm ▸ hd)).symm)

theorem put_done {conn : Conn} {w : World} {k : ConnTask} (hconn : s.conns[c]? = some conn)
    (h : Done k (s.world c conn) w) : TaskTurn s (s.put w) (some (c, k)) := by
  have hself : w.self = c := h.self
  refine ⟨fun t ht hne => ?_, fun t ht => ?_, fun d hne => ?_, fun d hd => ?_⟩
  · obtain ⟨d, j⟩ := t
    by_cases hd : d = c
    · subst hd
      rw [posted_put hconn hself]
      exact h.posted j (fun heq => hne (heq ▸ rfl)) ((posted_conn hconn j).symm.trans ht)
    · exact (posted_put_ne (hself.symm ▸ hd)).trans ht
  · cases ht
    exact (posted_put hconn hself k).trans h.done
  · by_cases hd : d = c
    · subst hd
      have hk : k ≠ .timerStop := fun heq => hne (heq ▸ rfl)
      rw [timer_put hconn hself, timer_conn hconn, h.timer, if_neg fun hand => hk hand.1]
      exact Nat.le_refl _
    · exact Nat.le_of_eq (congrArg TimerState.rank (timer_put_ne (hself.symm ▸ hd)).symm)
  · cases hd
    rw [timer_put hconn hself, h.timer, timer_conn hconn, posted_conn hconn]
    simp only [true_and]
    rfl

theorem posted_congr (h : s'.conns = s.conns) : s'.posted = s.posted := by
  funext t
  unfold Sock.posted
  rw [h]

theorem timer_congr (h : s'.conns = s.conns) : s'.timer = s.timer := by
  funext c
  unfold Sock.timer
  rw [h]

theorem TaskTurn.of_conns (h : s'.conns = s.conns) : TaskTurn s s' none :=
  ⟨fun _ ht _ => posted_congr h ▸ ht, nofun, fun _ _ => timer_congr h ▸ Nat.le_refl _, nofun⟩

theorem on_posted (hf : ∀ w, PostsTo w (f w)) (h : s.on c f = .ok s') : TaskTurn s s' none := by
  rcases on_ok h with ⟨rfl, -⟩ | ⟨conn, w, hconn, hw, rfl⟩
  · exact .of_conns rfl
  · exact put_later hconn (hf _ w hw)

theorem on_done {k : ConnTask} (hf : ∀ w u, f w = .ok u → Done k w u) (h : s.on c f = .ok s') :
    TaskTurn s s' (some (c, k)) := by
  rcases on_ok h with ⟨rfl, hnone⟩ | ⟨conn, w, hconn, hw, rfl⟩
  · have hno : s'.posted (c, k) = false := by
      unfold Sock.posted
      rw [hnone]
      rfl
    refine ⟨fun _ ht _ => ht, fun t ht => ?_, fun _ _ => Nat.le_refl _, fun d hd => ?_⟩
    · cases ht
      exact hno
    · cases hd
      rw [hno]
      rfl
  · exact put_done hconn (hf _ w hw)

theorem TaskTurn.conns {s'' : Sock} {done : Option (Nat × ConnTask)} (h : TaskTurn s s' done)
    (hc : s''.conns = s'.conns) : TaskTurn s s'' done :=
  ⟨posted_congr hc ▸ h.posted, posted_congr hc ▸ h.out, timer_congr hc ▸ h.timer,
    timer_congr hc ▸ h.idle⟩

theorem TaskTurn.of_same {s'' : Sock} (h : TaskTurn s'' s' none) (hc : s''.conns = s.conns) :
    TaskTurn s s' none :=
  ⟨posted_congr hc ▸ h.posted, nofun, timer_congr hc ▸ h.timer, nofun⟩

theorem nnCtxLeave_conns (h : nnCtxLeave s = .ok s') : s'.conns = s.conns := by
  unfold nnCtxLeave at h
  split at h
  · unfold nnSockOnleave at h
    cases hin : signal s.excl.inpipe.isSome s.flagIn s.rcvfd with
    | error e =>
      rw [hin] at h
      cases h
    | ok i =>
      cases hout : signal s.excl.outpipe.isSome s.flagOut s.sndfd with
      | error e =>
        rw [hin, ok_bind, hout] at h
        cases h
      | ok o =>
        rw [hin, ok_bind, hout] at h
        cases h
        rfl
  · cases h
    rfl

theorem sockRecv_posted {msg : Option Msg} (h : sockRecv io s = .ok (s', msg)) :
    TaskTurn s s' none := by
  unfold sockRecv at h
  split at h
  · cases h
    exact .of_conns rfl
  split at h
  · cases h
    exact .of_conns rfl
  next pipe _ _ conn hconn =>
    cases hr : nnPipeRecv io (s.world pipe conn) with
    | error e =>
      rw [hr] at h
      cases h
    | ok r =>
      rw [hr] at h
      cases h
      exact (put_later hconn (nnPipeRecv_posts _ r hr)).conns rfl

theorem sockSend_posted {msg : Msg} {taken : Bool} (h : sockSend io s msg = .ok (s', taken)) :
    TaskTurn s s' none := by
  unfold sockSend at h
  split at h
  · cases h
    exact .of_conns rfl
  split at h
  · cases h
    exact .of_conns rfl
  next pipe _ _ conn hconn =>
    cases hr : nnPipeSend io (s.world pipe conn) msg with
    | error e =>
      rw [hr] at h
      cases h
    | ok r =>
      rw [hr] at h
      cases h
      exact (put_later hconn (nnPipeSend_posts _ msg r hr)).conns rfl

theorem nnSockRecv_posted {first : Bool} {msg : Option Msg}
    (h : nnSockRecv io s first = .ok (s', msg)) : TaskTurn s s' none := by
  unfold nnSockRecv at h
  split at h
  · exact sockRecv_posted h
  split at h
  · cases h
    exact .of_conns rfl
  · exact (sockRecv_posted h).of_same rfl

theorem nnSockSend_posted {first taken : Bool} {msg : Msg}
    (h : nnSockSend io s msg first = .ok (s', taken)) : TaskTurn s s' none := by
  unfold nnSockSend at h
  split at h
  · exact sockSend_posted h
  split at h
  · cases h
    exact .of_conns rfl
  · exact (sockSend_posted h).of_same rfl

theorem accept_posted : TaskTurn s { s with
    conns := s.conns ++ [acceptedConn]
    queue := s.queue ++ [(s.conns.length, .usock .aipc .accepted)] } none := by
  refine ⟨fun t ht _ => ?_, nofun, fun c _ => ?_, nofun⟩
  · unfold Sock.posted at ht ⊢
    have hlt : t.1 < s.conns.length := by
      by_contra hge
      rw [List.getElem?_eq_none (Nat.le_of_not_lt hge)] at ht
      cases ht
    rwa [List.getElem?_append_left hlt]
  · unfold Sock.timer
    by_cases hlt : c < s.conns.length
    · rw [List.getElem?_append_left hlt]
    · rw [List.getElem?_eq_none (Nat.le_of_not_lt hlt)]
      exact Nat.zero_le _

theorem work_posted {a : Action} (h : work io s a = .ok s') : TaskTurn s s' a.task := by
  cases a with
  | event => cases h; exact .of_conns rfl
  | accept => cases h; exact accept_posted
  | fdIn c => exact on_posted usockFdIn_posts h
  | fdOut c => exact on_posted usockFdOut_posts h
  | fdErr c => exact on_posted usockFdErr_posts h
  | timeout c => exact on_posted timerTimeout_posts h
  | taskSend c =>
    exact on_done (f := fun w => .ok (usockTaskSend w)) (fun w u hu => by
      cases hu
      exact taskSend_done w) h
  | taskRecv c =>
    exact on_done (f := fun w => .ok (usockTaskRecv w)) (fun w u hu => by
      cases hu
      exact taskRecv_done w) h
  | taskStop c => exact on_done (fun w u => taskStop_done) h
  | timerTask c => exact on_done (fun w u => timerTask_done) h
  | recv first =>
    cases hr : nnSockRecv io s first with
    | error e =>
      simp only [work, hr] at h
      cases h
    | ok r =>
      simp only [work, hr, ok_bind] at h
      cases h
      exact nnSockRecv_posted hr
  | send msg first =>
    cases hr : nnSockSend io s msg first with
    | error e =>
      simp only [work, hr] at h
      cases h
    | ok r =>
      simp only [work, hr, ok_bind] at h
      cases h
      exact nnSockSend_posted hr

theorem leave_ok {r : Except Assert Sock} (h : r >>= nnCtxLeave = .ok s') :
    ∃ u, r = .ok u ∧ s'.conns = u.conns := by
  cases r with
  | error e => cases h
  | ok u => exact ⟨u, rfl, nnCtxLeave_conns h⟩

/-- The task that a step comes to. -/
def Sock.comes (s : Sock) (a : Action) : Option (Nat × ConnTask) :=
  if s.queue = [] then a.task else none

theorem stepSock_posted {a : Action} (h : stepSock s (a, io) = .ok s') :
    TaskTurn s s' (s.comes a) := by
  unfold Sock.comes
  by_cases hq : s.queue = []
  · rw [if_pos hq]
    rcases stepSock_quiet hq a io with ⟨rfl, heq⟩ | heq
    · cases heq.symm.trans h
      exact .of_conns rfl
    · obtain ⟨u, hu, hconns⟩ := leave_ok (heq.symm.trans h)
      exact (work_posted hu).conns hconns
  · rw [if_neg hq]
    rcases stepSock_busy hq a io with ⟨-, heq⟩ | ⟨-, heq⟩
    · cases heq.symm.trans h
      exact .of_conns rfl
    · obtain ⟨u, hu, hconns⟩ := leave_ok (heq.symm.trans h)
      unfold nnFsmEventProcess at hu
      split at hu
      · cases hu
        exact .of_conns hconns
      · next c e queue _ =>
        have hturn : TaskTurn s u none := (on_posted (fun w => process_posts w e) hu).of_same rfl
        exact hturn.conns hconns

/-! ## The queues of the worker -/

def ConnTask.all : List ConnTask := [.send, .recv, .stop, .timerStop]

/-- The tasks that a step posts. -/
def Sock.posts (s s' : Sock) : List (Nat × ConnTask) :=
  ((List.range s'.conns.length).product ConnTask.all).filter fun t => s'.posted t && !s.posted t

theorem posted_lt (h : s.posted t = true) : t.1 < s.conns.length := by
  by_contra hge
  unfold Sock.posted at h
  rw [List.getElem?_eq_none (Nat.le_of_not_lt hge)] at h
  cases h

theorem mem_posts : t ∈ s.posts s' ↔ s'.posted t = true ∧ s.posted t = false := by
  have hall : t.2 ∈ ConnTask.all := by cases t.2 <;> decide
  unfold Sock.posts
  rw [List.mem_filter, List.pair_mem_product, List.mem_range, Bool.and_eq_true, Bool.not_eq_true']
  exact ⟨fun h => h.2, fun h => ⟨⟨posted_lt h.1, hall⟩, h⟩⟩

theorem posts_nodup (s s' : Sock) : (s.posts s').Nodup :=
  (List.nodup_range.product (by decide)).filter _

/-- Tasks that are in no queue are posted one after the other. -/
theorem execute_all {α : Type} [DecidableEq α] {ts : List α} (hn : ts.Nodup) : ∀ {q : TaskLists α},
    (∀ t ∈ ts, t ∉ q.tasks ∧ t ∉ q.taken) →
      taskLists.run q (ts.map .execute) = .ok { q with tasks := q.tasks ++ ts } := by
  induction ts with
  | nil =>
    intro q _
    rw [List.append_nil]
    rfl
  | cons t ts ih =>
    intro q hout
    obtain ⟨hnot, hn'⟩ := List.nodup_cons.mp hn
    have hno := hout t List.mem_cons_self
    have hstep : taskLists.step q (.execute t) = .ok { q with tasks := q.tasks ++ [t] } :=
      if_neg (not_or.mpr hno)
    rw [List.map_cons, Checked.run_cons_ok hstep, ih hn' fun u hu => ?_, List.append_assoc]
    · rfl
    · have hu' := hout u (List.mem_cons_of_mem _ hu)
      refine ⟨fun hmem => ?_, hu'.2⟩
      rcases List.mem_append.mp hmem with hmem | hmem
      · exact hu'.1 hmem
      · exact hnot (List.mem_singleton.mp hmem ▸ hu)

/-- The fields of the connections say what is in the queues. -/
structure Beside (s : Sock) (q : TaskLists (Nat × ConnTask)) : Prop where
  posted : ∀ t, s.posted t = true ↔ t ∈ q.tasks ∨ t ∈ q.taken
  nodup : (q.taken ++ q.tasks).Nodup

variable {q : TaskLists (Nat × ConnTask)}

theorem posts_beside {done : Option (Nat × ConnTask)} (h : TaskTurn s s' done)
    (hq : ∀ t, t ∈ q.tasks ∨ t ∈ q.taken ↔ s.posted t = true ∧ done ≠ some t)
    (hn : (q.taken ++ q.tasks).Nodup) :
    taskLists.run q ((s.posts s').map .execute) = .ok { q with tasks := q.tasks ++ s.posts s' } ∧
      Beside s' { q with tasks := q.tasks ++ s.posts s' } := by
  have hout : ∀ t ∈ s.posts s', t ∉ q.tasks ∧ t ∉ q.taken := fun t ht => by
    have hno : s.posted t = false := (mem_posts.mp ht).2
    refine not_or.mp fun hmem => ?_
    rw [((hq t).mp hmem).1] at hno
    cases hno
  refine ⟨execute_all (posts_nodup s s') hout, ⟨fun t => ?_, ?_⟩⟩
  · constructor
    · intro hp
      cases hold : s.posted t with
      | false => exact .inl (List.mem_append_right _ (mem_posts.mpr ⟨hp, hold⟩))
      | true =>
        have hne : done ≠ some t := fun heq => by
          rw [h.out t heq] at hp
          cases hp
        exact ((hq t).mpr ⟨hold, hne⟩).imp_left (List.mem_append_left _)
    · rintro (hmem | hmem)
      · rcases List.mem_append.mp hmem with hmem | hmem
        · obtain ⟨hold, hne⟩ := (hq t).mp (.inl hmem)
          exact h.posted t hold hne
        · exact (mem_posts.mp hmem).1
      · obtain ⟨hold, hne⟩ := (hq t).mp (.inr hmem)
        exact h.posted t hold hne
  · show (q.taken ++ (q.tasks ++ s.posts s')).Nodup
    rw [← List.append_assoc]
    refine hn.append (posts_nodup s s') fun t hmem hpost => ?_
    have hno := hout t hpost
    rcases List.mem_append.mp hmem with hmem | hmem
    · exact hno.2 hmem
    · exact hno.1 hmem

theorem Beside.take (h : Beside s q) : ∃ q', q.step .take = .ok q' ∧ Beside s q' := by
  by_cases hnil : q.taken = []
  · refine ⟨{ q with taken := q.tasks, tasks := [] }, if_neg (not_not.mpr hnil), fun t => ?_, ?_⟩
    · rw [h.posted t, hnil, or_comm]
    · have hn := h.nodup
      rw [hnil] at hn
      exact (List.append_nil q.tasks).symm ▸ hn
  · exact ⟨q, if_pos hnil, h⟩

/-- The worker comes to the first task of its queue. -/
theorem Beside.next {rest : List (Nat × ConnTask)} (h : Beside s q) (ht : q.taken = t :: rest) :
    ∃ q', q.step .next = .ok q' ∧ (q'.taken ++ q'.tasks).Nodup ∧
      ∀ u, u ∈ q'.tasks ∨ u ∈ q'.taken ↔ s.posted u = true ∧ some t ≠ some u := by
  have hn := h.nodup
  rw [ht, List.cons_append, List.nodup_cons, List.mem_append, not_or] at hn
  refine ⟨⟨q.tasks, rest, q.done ++ [t]⟩, ?_, hn.2, fun u => ?_⟩
  · simp only [TaskLists.step, ht]
  rw [h.posted u, ht, List.mem_cons, ne_eq, Option.some.injEq]
  constructor
  · rintro (hu | hu)
    · exact ⟨.inl hu, fun heq => hn.1.2 (heq ▸ hu)⟩
    · exact ⟨.inr (.inr hu), fun heq => hn.1.1 (heq ▸ hu)⟩
  · rintro ⟨hu | rfl | hu, hne⟩
    · exact .inl hu
    · exact absurd rfl hne
    · exact .inr hu

/-! ## The socket and its worker -/

/-- The socket, and the tasks of its connections in the queues of the worker. -/
structure Posting where
  sock : Sock
  tasks : TaskLists (Nat × ConnTask)

/-- The assertion of `nn_queue_push` is one of the socket's. -/
def onQueues (q : TaskLists (Nat × ConnTask)) (ops : List (TaskOp (Nat × ConnTask))) :
    Except Assert (TaskLists (Nat × ConnTask)) :=
  match taskLists.run q ops with
  | .ok q => .ok q
  | .error _ => .error .queuePush

/-- The worker takes over the tasks that wait (`none`), or there is a step of the socket. -/
def Posting.step (p : Posting) : Option (Action × Io) → Except Assert Posting
  | none => do return { p with tasks := ← onQueues p.tasks [.take] }
  | some (a, io) =>
    match p.sock.comes a with
    | none => do
      let s ← stepSock p.sock (a, io)
      return ⟨s, ← onQueues p.tasks ((p.sock.posts s).map .execute)⟩
    | some t =>
      -- it is the turn of the first task and of no other
      if p.tasks.taken.head? ≠ some t then .ok p
      else do
        let s ← stepSock p.sock (a, io)
        return ⟨s, ← onQueues p.tasks (.next :: (p.sock.posts s).map .execute)⟩

def posting : Checked Posting (Option (Action × Io)) Assert := ⟨Posting.step⟩

def boundPosting : Posting := ⟨boundSock, [], [], []⟩

/-- Each half is in a state that its own runs lead to, and the fields say what is in the
queues. -/
structure Posting.Agrees (p : Posting) : Prop where
  sock : ∃ is, socket.run boundSock is = .ok p.sock
  tasks : ∃ ops, taskLists.run ⟨[], [], []⟩ ops = .ok p.tasks
  beside : Beside p.sock p.tasks

theorem onQueues_ok {q' : TaskLists (Nat × ConnTask)} {ops : List (TaskOp (Nat × ConnTask))}
    (h : taskLists.run q ops = .ok q') : onQueues q ops = .ok q' := by
  unfold onQueues
  rw [h]

variable {p : Posting}

/-- A step of the socket, and what it does to the queues. -/
theorem Posting.Agrees.sock_step (h : p.Agrees) {a : Action} (ops : List (TaskOp (Nat × ConnTask)))
    (hops : ∀ s', TaskTurn p.sock s' (p.sock.comes a) → ∃ q',
      taskLists.run p.tasks (ops ++ (p.sock.posts s').map .execute) = .ok q' ∧ Beside s' q') :
    (∃ p', (stepSock p.sock (a, io) >>= fun s => onQueues p.tasks
        (ops ++ (p.sock.posts s).map .execute) >>= fun q => pure (Posting.mk s q)) = .ok p' ∧
        p'.Agrees) ∨
      (stepSock p.sock (a, io) >>= fun s => onQueues p.tasks
        (ops ++ (p.sock.posts s).map .execute) >>= fun q => pure (Posting.mk s q)) =
          .error .sipcMsgNormal := by
  obtain ⟨is, his⟩ := h.sock
  obtain ⟨js, hjs⟩ := h.tasks
  cases hstep : stepSock p.sock (a, io) with
  | error e =>
    rcases stepSock_good (run_good his) (a, io) with ⟨t, ht, -⟩ | ⟨hfail, -⟩
    · cases ht.symm.trans hstep
    · cases hfail.symm.trans hstep
      exact .inr rfl
  | ok s' =>
    obtain ⟨q', hq', hbeside⟩ := hops s' (stepSock_posted hstep)
    refine .inl ⟨⟨s', q'⟩, ?_, ⟨is ++ [(a, io)], ?_⟩, ⟨_, Checked.run_trans hjs hq'⟩, hbeside⟩
    · rw [ok_bind, onQueues_ok hq', ok_bind]
      rfl
    · exact Checked.run_trans his (Checked.run_cons_ok hstep)

theorem Posting.Agrees.step (h : p.Agrees) (i : Option (Action × Io)) :
    (∃ p', p.step i = .ok p' ∧ p'.Agrees) ∨ p.step i = .error .sipcMsgNormal := by
  rcases i with _ | ⟨a, io⟩
  · obtain ⟨q', hq', hbeside⟩ := h.beside.take
    obtain ⟨ops, hops⟩ := h.tasks
    have hrun : taskLists.run p.tasks [.take] = .ok q' := Checked.run_cons_ok hq'
    refine .inl ⟨⟨p.sock, q'⟩, ?_, h.sock, ⟨_, Checked.run_trans hops hrun⟩, hbeside⟩
    simp only [Posting.step, onQueues_ok hrun, ok_bind, pure_eq_ok]
  cases hcomes : p.sock.comes a with
  | none =>
    simp only [Posting.step, hcomes]
    refine h.sock_step [] fun s' hturn => ⟨_, posts_beside hturn (fun t => ?_) h.beside.nodup⟩
    rw [h.beside.posted t, hcomes]
    exact (and_iff_left nofun).symm
  | some t =>
    simp only [Posting.step, hcomes]
    split
    · exact .inl ⟨p, rfl, h⟩
    next hhead =>
      obtain ⟨rest, hrest⟩ := List.head?_eq_some_iff.mp (not_not.mp hhead)
      obtain ⟨q, hnext, hnodup, hmem⟩ := h.beside.next hrest
      refine h.sock_step [.next] fun s' hturn => ?_
      obtain ⟨hrun, hbeside⟩ := posts_beside (hcomes ▸ hturn) hmem hnodup
      exact ⟨_, (Checked.run_cons_ok hnext).trans hrun, hbeside⟩

theorem boundPosting_agrees : boundPosting.Agrees := by
  refine ⟨⟨[], rfl⟩, ⟨[], rfl⟩, fun t => ?_, List.nodup_nil⟩
  have hno : boundSock.posted t = false := rfl
  simp only [boundPosting, hno, Bool.false_eq_true, List.not_mem_nil, or_self]

/-- The header cannot be sent at once. -/
example : ((posting.run boundPosting
    [some (.accept, calm), some (.event, ⟨.again, .again⟩)]).toOption.map fun p =>
      p.tasks.tasks) = some [(0, .send)] := rfl

/-- **The tasks of the connections.** Whatever the socket and its worker do, the queues of the
code hold the tasks that the fields of the connections say, and none is posted twice. -/
theorem posting_right (is : List (Option (Action × Io))) :
    (∃ p, posting.run boundPosting is = .ok p ∧ (∃ js, socket.run boundSock js = .ok p.sock) ∧
      ∃ ops w, (worker ops.length).run idle ops = .ok w ∧ Stores w p.tasks ∧
        ∀ t, p.sock.posted t = true ↔ w.next t ≠ .out) ∨
    posting.run boundPosting is = .error .sipcMsgNormal := by
  rcases Checked.run_keeps (M := posting) (fun p i h => h.step i) boundPosting_agrees is with
    ⟨p, hrun, hsock, ⟨ops, hops⟩, hbeside⟩ | hfail
  · have hright := links_right ops
    rw [hops] at hright
    cases hw : (worker ops.length).run idle ops with
    | error e =>
      rw [hw] at hright
      exact hright.elim
    | ok w =>
      rw [hw] at hright
      have hst : Stores w p.tasks := hright
      refine .inl ⟨p, hrun, hsock, ops, w, hw, hst, fun t => ?_⟩
      rw [hbeside.posted t]
      constructor
      · rintro (ht | ht)
        · exact seg_mem_ne_out hst.tasks.links ht
        · exact seg_mem_ne_out hst.taken.links ht
      · intro hout
        by_contra hno
        obtain ⟨htasks, htaken⟩ := not_or.mp hno
        exact hout (hst.out t htasks htaken)
  · exact .inr hfail

end Nanomsg
