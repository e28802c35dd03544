import Getd.Lib.Checked
import Getd.Nanomsg.Queue

/-!
# The tasks of a worker

`aio/worker_posix.inc` keeps its tasks in a queue. The worker takes all that wait over into
a queue of its own and runs them one after the other. `nn_worker_cancel` looks for a task
only where it waited.
-/

namespace Nanomsg

open CLib

variable {α : Type} [DecidableEq α] {next : α → Link α} {fuel : Nat}

/-- The tasks of `struct nn_worker`. `taken` is the queue that `nn_worker_routine` works off,
and `done` are the tasks it has handed to their owners. -/
structure Tasks (α : Type) where
  next : α → Link α
  tasks : Queue α
  taken : Queue α
  done : List α

inductive TaskOp (α : Type)
  /-- `nn_worker_execute`. -/
  | execute (task : α)
  /-- `nn_worker_cancel`. -/
  | cancel (task : α)
  /-- `nn_worker_routine` has no task left and takes those that wait. -/
  | take
  /-- It comes to its next task. -/
  | next
  deriving DecidableEq

def Tasks.step (fuel : Nat) (s : Tasks α) : TaskOp α → Except Fault (Tasks α)
  | .execute task => do
    let (next, tasks) ← nnQueuePush s.next s.tasks task
    return { s with next := next, tasks := tasks }
  | .cancel task => do
    let (next, tasks) ← nnQueueRemove fuel s.next s.tasks task
    return { s with next := next, tasks := tasks }
  | .take =>
    if s.taken.head ≠ .null then .ok s else .ok { s with taken := s.tasks, tasks := nnQueueInit }
  | .next => do
    let (next, taken, item) ← nnQueuePop s.next s.taken
    match item with
    | none => return { s with taken := nnQueueInit }
    | some task => return { s with next := next, taken := taken, done := s.done ++ [task] }

/-- What the tasks are: those that wait, those that are taken and those that are done. -/
structure TaskLists (α : Type) where
  tasks : List α
  taken : List α
  done : List α

/-- A task is posted once at a time. It can be cancelled until it is taken. -/
def TaskLists.step (t : TaskLists α) : TaskOp α → Except Fault (TaskLists α)
  | .execute task =>
    if task ∈ t.tasks ∨ task ∈ t.taken then .error .assertion
    else .ok { t with tasks := t.tasks ++ [task] }
  | .cancel task => .ok { t with tasks := t.tasks.erase task }
  | .take => if t.taken ≠ [] then .ok t else .ok { t with taken := t.tasks, tasks := [] }
  | .next =>
    match t.taken with
    | [] => .ok t
    | task :: taken => .ok { t with taken := taken, done := t.done ++ [task] }

/-- The two queues hold the two lists. -/
structure Stores (s : Tasks α) (t : TaskLists α) : Prop where
  tasks : Holds s.next s.tasks t.tasks
  taken : Holds s.next s.taken t.taken
  apart : ∀ a, a ∈ t.tasks → a ∉ t.taken
  out : ∀ a, a ∉ t.tasks → a ∉ t.taken → s.next a = .out
  done : s.done = t.done

variable {s : Tasks α} {t : TaskLists α}

theorem execute_stores (h : Stores s t) (task : α) :
    Checked.Agree Stores (s.step fuel (.execute task)) (t.step (.execute task)) := by
  by_cases hmem : task ∈ t.tasks ∨ task ∈ t.taken
  · have hin : s.next task ≠ .out := hmem.elim (seg_mem_ne_out h.tasks.links)
      (seg_mem_ne_out h.taken.links)
    have hfail : s.step fuel (.execute task) = .error .assertion := by
      simp only [Tasks.step, nnQueuePush, hin, ne_eq, not_false_eq_true, if_true]
      rfl
    rw [hfail, TaskLists.step, if_pos hmem]
    rfl
  · have hno := not_or.mp hmem
    obtain ⟨next, tasks, hpush, hholds, hsame⟩ := push_holds h.tasks (h.out task hno.1 hno.2)
    have hstep : s.step fuel (.execute task) = .ok { s with next := next, tasks := tasks } := by
      simp only [Tasks.step, hpush, ok_bind]
      rfl
    rw [hstep, TaskLists.step, if_neg hmem]
    refine ⟨hholds, h.taken.frame fun a ha => hsame a ?_, fun a ha => ?_, fun a ha ha' => ?_, h.done⟩
    · rw [List.mem_append, not_or, List.mem_singleton]
      exact ⟨fun hmem => h.apart a hmem ha, fun heq => hno.2 (heq ▸ ha)⟩
    · rcases List.mem_append.mp ha with ha | ha
      · exact h.apart a ha
      · exact List.mem_singleton.mp ha ▸ hno.2
    · exact (hsame a ha).trans (h.out a (fun hmem => ha (List.mem_append_left _ hmem)) ha')

theorem cancel_stores (h : Stores s t) (task : α) (hfuel : t.tasks.length < fuel) :
    ∃ s', s.step fuel (.cancel task) = .ok s' ∧
      Stores s' { t with tasks := t.tasks.erase task } := by
  by_cases hmem : task ∈ t.tasks
  · obtain ⟨next, tasks, hremove, hholds, hout, hsame⟩ := remove_holds h.tasks hmem hfuel
    refine ⟨{ s with next := next, tasks := tasks }, ?_, hholds,
      h.taken.frame fun a ha => hsame a fun hmem => h.apart a hmem ha, fun a ha => ?_,
      fun a ha ha' => ?_, h.done⟩
    · simp only [Tasks.step, hremove, ok_bind]
      rfl
    · exact h.apart a (List.mem_of_mem_erase ha)
    · by_cases heq : a = task
      · exact heq ▸ hout
      · have hmem' : a ∉ t.tasks := fun hmem => ha ((List.mem_erase_of_ne heq).mpr hmem)
        exact (hsame a hmem').trans (h.out a hmem' ha')
  · refine ⟨s, ?_, ?_⟩
    · simp only [Tasks.step, remove_absent h.tasks hmem hfuel, ok_bind]
      rfl
    · rw [List.erase_of_not_mem hmem]
      exact h

theorem step_stores (h : Stores s t) (hfuel : t.tasks.length < fuel) (op : TaskOp α) :
    Checked.Agree Stores (s.step fuel op) (t.step op) := by
  cases op with
  | execute task => exact execute_stores h task
  | cancel task =>
    obtain ⟨s', hstep, hs'⟩ := cancel_stores h task hfuel
    rw [hstep]
    exact hs'
  | take =>
    have hhead : s.taken.head = .null ↔ t.taken = [] := by rw [h.taken.head, Link.first_eq_null]
    by_cases hnil : t.taken = []
    · rw [Tasks.step, if_neg (not_not.mpr (hhead.mpr hnil)), TaskLists.step, if_neg (not_not.mpr hnil)]
      refine ⟨init_holds _, h.tasks, fun _ => nofun, fun a _ ha => h.out a ha ?_, h.done⟩
      rw [hnil]
      exact List.not_mem_nil
    · rw [Tasks.step, if_pos fun heq => hnil (hhead.mp heq), TaskLists.step, if_pos hnil]
      exact h
  | next =>
    cases htaken : t.taken with
    | nil =>
      have hpop := pop_nil (htaken ▸ h.taken)
      have hstep : s.step fuel .next = .ok { s with taken := nnQueueInit } := by
        simp only [Tasks.step, hpop, ok_bind]
        rfl
      have hstay : t.step .next = .ok t := by simp only [TaskLists.step, htaken]
      rw [hstep, hstay]
      exact ⟨h.tasks, htaken ▸ init_holds _, h.apart, h.out, h.done⟩
    | cons task taken =>
      obtain ⟨q, hpop, hholds⟩ := pop_cons (htaken ▸ h.taken)
      have hstep : s.step fuel .next = .ok { s with
          next := Function.update s.next task .out, taken := q, done := s.done ++ [task] } := by
        simp only [Tasks.step, hpop, ok_bind]
        rfl
      have hnext : t.step .next = .ok { t with taken := taken, done := t.done ++ [task] } := by
        simp only [TaskLists.step, htaken]
      have hnot : task ∉ t.tasks := fun hmem => h.apart task hmem (htaken ▸ List.mem_cons_self)
      rw [hstep, hnext]
      refine ⟨h.tasks.frame fun a ha => ?_, hholds, fun a ha hmem => ?_, fun a ha ha' => ?_,
        congrArg (· ++ [task]) h.done⟩
      · exact Function.update_of_ne (fun heq : a = task => hnot (heq ▸ ha)) _ _
      · exact h.apart a ha (htaken ▸ List.mem_cons_of_mem _ hmem)
      · by_cases heq : a = task
        · subst heq
          exact Function.update_self _ _ _
        · refine (Function.update_of_ne heq _ _).trans (h.out a ha ?_)
          rw [htaken, List.mem_cons, not_or]
          exact ⟨heq, ha'⟩

/-! ## Runs -/

def worker (fuel : Nat) : Checked (Tasks α) (TaskOp α) Fault := ⟨Tasks.step fuel⟩

def taskLists : Checked (TaskLists α) (TaskOp α) Fault := ⟨TaskLists.step⟩

def idle : Tasks α := ⟨fun _ => .out, nnQueueInit, nnQueueInit, []⟩

omit [DecidableEq α] in
theorem idle_stores : Stores (idle : Tasks α) ⟨[], [], []⟩ :=
  ⟨init_holds _, init_holds _, nofun, fun _ _ _ => rfl, rfl⟩

def posted (ops : List (TaskOp α)) : List α :=
  ops.filterMap fun
    | .execute task => some task
    | _ => none

def TaskLists.all (t : TaskLists α) : List α := t.done ++ t.taken ++ t.tasks

/-- A step posts at the end, or takes something out. -/
theorem step_all {t' : TaskLists α} {op : TaskOp α} (h : t.step op = .ok t') :
    (∃ task, op = .cancel task ∧ t'.all = t.done ++ t.taken ++ t.tasks.erase task) ∨
      t'.all = t.all ++ posted [op] := by
  cases op with
  | execute task =>
    rw [TaskLists.step] at h
    split at h
    · cases h
    · cases h
      exact .inr (List.append_assoc _ _ _).symm
  | cancel task =>
    cases h
    exact .inl ⟨task, rfl, rfl⟩
  | take =>
    rw [TaskLists.step] at h
    split at h
    · cases h
      exact .inr (List.append_nil _).symm
    · rename_i hnil
      cases h
      refine .inr ?_
      show t.done ++ t.tasks ++ [] = t.done ++ t.taken ++ t.tasks ++ []
      rw [not_not.mp hnil, List.append_nil t.done]
  | next =>
    cases htaken : t.taken with
    | nil =>
      simp only [TaskLists.step, htaken] at h
      cases h
      exact .inr (List.append_nil _).symm
    | cons task taken =>
      simp only [TaskLists.step, htaken] at h
      cases h
      refine .inr ?_
      show t.done ++ [task] ++ taken ++ t.tasks = t.done ++ t.taken ++ t.tasks ++ []
      rw [htaken, List.append_nil, List.append_assoc t.done]
      rfl

theorem step_sublist {t' : TaskLists α} {op : TaskOp α} (h : t.step op = .ok t') :
    t'.all.Sublist (t.all ++ posted [op]) := by
  rcases step_all h with ⟨task, rfl, heq⟩ | heq
  · rw [heq]
    exact ((List.Sublist.refl _).append List.erase_sublist).trans (List.sublist_append_left _ _)
  · exact heq ▸ List.Sublist.refl _

theorem step_count {t' : TaskLists α} {op : TaskOp α} (h : t.step op = .ok t') {task : α}
    (hkept : op ≠ .cancel task) : t'.all.count task = t.all.count task + (posted [op]).count task := by
  rcases step_all h with ⟨other, rfl, heq⟩ | heq
  · have hne : task ≠ other := fun h => hkept (h ▸ rfl)
    rw [heq, List.count_append, List.count_erase_of_ne hne, ← List.count_append]
    rfl
  · rw [heq, List.count_append]

omit [DecidableEq α] in
theorem posted_cons (op : TaskOp α) (ops : List (TaskOp α)) :
    posted (op :: ops) = posted [op] ++ posted ops := by
  rw [posted, posted, posted, ← List.filterMap_append]
  rfl

theorem run_sublist {ops : List (TaskOp α)} {t' : TaskLists α} (h : taskLists.run t ops = .ok t') :
    t'.all.Sublist (t.all ++ posted ops) := by
  refine Checked.run_induction (P := fun t ops => t'.all.Sublist (t.all ++ posted ops)) ?_ ?_ h
  · exact List.sublist_append_left _ _
  · intro t op u ops hop ih
    rw [posted_cons, ← List.append_assoc]
    exact ih.trans ((step_sublist hop).append (List.Sublist.refl _))

/-- A task that is not cancelled stays. -/
theorem run_count {ops : List (TaskOp α)} {t' : TaskLists α} (h : taskLists.run t ops = .ok t')
    {task : α} (hkept : .cancel task ∉ ops) :
    t'.all.count task = t.all.count task + (posted ops).count task := by
  refine Checked.run_induction (P := fun t ops => .cancel task ∉ ops →
    t'.all.count task = t.all.count task + (posted ops).count task) (fun _ => rfl) ?_ h hkept
  intro t op u ops hop ih hkept
  rw [List.mem_cons, not_or] at hkept
  rw [posted_cons, ih hkept.2, step_count hop (Ne.symm hkept.1), List.count_append, Nat.add_assoc]

theorem step_length {t' : TaskLists α} {op : TaskOp α} (h : t.step op = .ok t') :
    t'.tasks.length ≤ t.tasks.length + 1 := by
  cases op with
  | execute task =>
    rw [TaskLists.step] at h
    split at h
    · cases h
    · cases h
      exact Nat.le_of_eq List.length_append
  | cancel task =>
    cases h
    exact Nat.le_succ_of_le List.erase_sublist.length_le
  | take =>
    rw [TaskLists.step] at h
    split at h
    · cases h
      exact Nat.le_succ _
    · cases h
      exact Nat.zero_le _
  | next =>
    cases htaken : t.taken with
    | nil =>
      simp only [TaskLists.step, htaken] at h
      cases h
      exact Nat.le_succ _
    | cons task taken =>
      simp only [TaskLists.step, htaken] at h
      cases h
      exact Nat.le_succ _

/-- The queues hold the lists, when the loop is given a round more than there are steps. -/
theorem run_stores (ops : List (TaskOp α)) {fuel : Nat} (hfuel : ops.length ≤ fuel) :
    Checked.Agree Stores ((worker fuel).run idle ops) (taskLists.run ⟨[], [], []⟩ ops) :=
  Checked.run_agree Stores (fun t => t.tasks.length) (fun _ _ op h hlen => step_stores h hlen op)
    (fun _ _ _ h => step_length h) idle_stores (Nat.le_trans (Nat.le_of_eq (Nat.zero_add _)) hfuel)

/-- **The links are right.** Whatever is posted, cancelled and taken in whatever order, the code
does on its links what the lists say. No link is followed that is no pointer, no loop runs on,
and the assertion fails only when a task is posted that is in one of the queues. -/
theorem links_right (ops : List (TaskOp α)) :
    Checked.Agree Stores ((worker ops.length).run idle ops) (taskLists.run ⟨[], [], []⟩ ops) :=
  run_stores ops (Nat.le_refl _)

/-- **In the order they were posted.** The worker runs the tasks in that order, each no more
often than it was posted. One that is never cancelled has been run as often as that when both
queues are empty. -/
theorem run_in_order {ops : List (TaskOp α)} (h : (worker ops.length).run idle ops = .ok s) :
    s.done.Sublist (posted ops) ∧ (s.tasks.head = .null → s.taken.head = .null →
      ∀ task, .cancel task ∉ ops → s.done.count task = (posted ops).count task) := by
  have hagree := run_stores ops (Nat.le_refl _)
  rw [h] at hagree
  obtain ⟨t, ht, hst⟩ := hagree.ok
  rw [hst.done]
  refine ⟨?_, fun htasks htaken task hkept => ?_⟩
  · have hall := run_sublist ht
    refine List.Sublist.trans ?_ hall
    show t.done.Sublist (t.done ++ t.taken ++ t.tasks)
    rw [List.append_assoc]
    exact List.sublist_append_left _ _
  · have hcount := run_count ht hkept
    rw [hst.tasks.head, Link.first_eq_null] at htasks
    rw [hst.taken.head, Link.first_eq_null] at htaken
    have hall : t.all = t.done := by
      rw [TaskLists.all, htasks, htaken, List.append_nil, List.append_nil]
    rw [hall] at hcount
    exact hcount.trans (Nat.zero_add _)

def cancelling : List (TaskOp Nat) :=
  [.execute 0, .execute 1, .take, .execute 2, .next, .cancel 1, .next, .take, .next]

def cancelled : Tasks Nat := ((worker cancelling.length).run idle cancelling).toOption.getD idle

theorem cancelled_run : (worker cancelling.length).run idle cancelling = .ok cancelled :=
  ok_getD rfl _

theorem run_in_order_cancelling : cancelled.done = [0, 1, 2] ∧ cancelled.done.Sublist (posted cancelling) ∧
    cancelled.done.count 2 = (posted cancelling).count 2 :=
  ⟨rfl, (run_in_order cancelled_run).1, (run_in_order cancelled_run).2 rfl rfl 2 (by decide)⟩

/-- **Too late to cancel.** `nn_worker_cancel` takes a task out, and the assertion of
`nn_queue_item_term` on it holds, if and only if the worker has not taken it over. -/
theorem cancel_iff {ops : List (TaskOp α)} {fuel : Nat} (hfuel : ops.length < fuel)
    (h : (worker fuel).run idle ops = .ok s) (task : α) : ∃ s' t,
      s.step fuel (.cancel task) = .ok s' ∧ taskLists.run ⟨[], [], []⟩ ops = .ok t ∧
        s.taken.head = Link.first .null t.taken ∧ (s'.next task = .out ↔ task ∉ t.taken) := by
  have hagree := run_stores ops (Nat.le_of_lt hfuel)
  rw [h] at hagree
  obtain ⟨t, ht, hst⟩ := hagree.ok
  have hlen : t.tasks.length ≤ 0 + ops.length :=
    Checked.run_size (fun t => t.tasks.length) (fun _ _ _ h => step_length h) ht
  obtain ⟨s', hcancel, hs'⟩ := cancel_stores hst task (by omega : t.tasks.length < fuel)
  refine ⟨s', t, hcancel, ht, hst.taken.head, ?_⟩
  constructor
  · exact fun hout => hs'.taken.notMem hout
  · exact fun hno => hs'.out task hst.tasks.nodup.not_mem_erase hno

theorem cancel_iff_taken : ∃ s s', (worker 9).run idle [.execute 0, .execute 1, .take] = .ok s ∧
    s.step 9 (.cancel 1) = .ok s' ∧ s'.next 1 ≠ .out := by
  have hrun : (worker 9).run idle [.execute 0, .execute 1, .take] = .ok _ := ok_getD (by rfl) idle
  obtain ⟨s', t, hcancel, ht, -, hiff⟩ := cancel_iff (show 3 < 9 by decide) hrun (1 : Nat)
  refine ⟨_, s', hrun, hcancel, fun hout => hiff.mp hout ?_⟩
  cases ht
  exact List.mem_cons_of_mem _ List.mem_cons_self

end Nanomsg
