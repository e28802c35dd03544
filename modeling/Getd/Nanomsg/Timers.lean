import Getd.Lib.Checked
import Getd.Lib.Schedule
import Getd.Nanomsg.Lists

/-!
# Timers

`aio/timerset.c` keeps the timeouts of a worker in a list, the earliest first.
`nn_worker_routine` asks it again and again for a timeout that is due, until there is none.
-/

namespace Nanomsg

open CLib

variable {α : Type} [DecidableEq α] {as bs : List α} {a : α}

/-! ## The timeouts -/

/-- `struct nn_timerset`, with the instants at which its handles are due. -/
structure Timerset (α : Type) where
  links : Links α
  timeouts : NnList α
  timeout : α → Nat

/-- `nn_clock_ms () + timeout` in 64 bits. -/
def dueAt (now : Nat) (timeout : Int) : Nat := ((now + timeout) % 18446744073709551616).toNat

/-- The loop of `nn_timerset_add`, for so many rounds at most. -/
def addLoop (s : Timerset α) (due : Nat) : Nat → Link α → Except Fault (Link α)
  | 0, _ => .error .loop
  | n + 1, it =>
    match it with
    | .null => .ok .null
    | .out => .error .pointer
    | .node a =>
      if due < s.timeout a then .ok (.node a)
      else if s.links.next a = .out then .error .assertion
      else addLoop s due n (s.links.next a)

def nnTimersetAdd (fuel now : Nat) (s : Timerset α) (timeout : Int) (hndl : α) :
    Except Fault (Timerset α × Bool) := do
  let s := { s with timeout := Function.update s.timeout hndl (dueAt now timeout) }
  let it ← addLoop s (s.timeout hndl) fuel s.timeouts.first
  let first := decide (s.timeouts.first = it)
  let (links, timeouts) ← nnListInsert s.links s.timeouts hndl it
  return ({ s with links := links, timeouts := timeouts }, first)

def nnTimersetRm (s : Timerset α) (hndl : α) : Except Fault (Timerset α × Bool) :=
  if s.links.prev hndl = .out then .ok (s, false)
  else do
    let first := decide (s.timeouts.first = .node hndl)
    let (links, timeouts) ← nnListErase s.links s.timeouts hndl
    return ({ s with links := links, timeouts := timeouts }, first)

def nnTimersetEvent (now : Nat) (s : Timerset α) : Except Fault (Timerset α × Option α) :=
  match s.timeouts.first with
  | .null => .ok (s, none)
  | .out => .error .pointer
  | .node first =>
    if s.timeout first > now then .ok (s, none)
    else do
      let (links, timeouts) ← nnListErase s.links s.timeouts first
      return ({ s with links := links, timeouts := timeouts }, some first)

inductive TimerOp (α : Type)
  /-- `nn_worker_add_timer`. -/
  | add (now : Nat) (timeout : Int) (hndl : α)
  /-- `nn_worker_rm_timer`. -/
  | rm (hndl : α)
  /-- `nn_worker_routine` asks for a timeout. -/
  | event (now : Nat)
  deriving DecidableEq

/-- A timeout that was handed out, when it was due and when that was. -/
structure Firing (α : Type) where
  hndl : α
  due : Nat
  now : Nat
  deriving DecidableEq

/-- The timeouts of a worker. `first` is whether the last call found that the first of them
changed, and `fired` are those that were handed out. -/
structure Timers (α : Type) where
  set : Timerset α
  first : Bool
  fired : List (Firing α)

def Timers.step (fuel : Nat) (s : Timers α) : TimerOp α → Except Fault (Timers α)
  | .add now timeout hndl => do
    let (set, first) ← nnTimersetAdd fuel now s.set timeout hndl
    return { s with set := set, first := first }
  | .rm hndl => do
    let (set, first) ← nnTimersetRm s.set hndl
    return { s with set := set, first := first }
  | .event now => do
    let (set, hndl) ← nnTimersetEvent now s.set
    match hndl with
    | none => return { s with set := set }
    | some hndl => return { s with set := set, fired := s.fired ++ [⟨hndl, s.set.timeout hndl, now⟩] }

/-! ## What the timeouts are -/

/-- What waits, the earliest first. -/
structure Schedule (α : Type) where
  waiting : List (α × Nat)
  first : Bool
  fired : List (Firing α)

def Schedule.hndls (t : Schedule α) : List α := t.waiting.map Prod.fst

def Schedule.step (t : Schedule α) : TimerOp α → Except Fault (Schedule α)
  | .add now timeout hndl =>
    if hndl ∈ t.hndls then .error .assertion
    else
      let waiting := insertDue hndl (dueAt now timeout) t.waiting
      .ok { t with waiting := waiting, first := decide ((waiting.map Prod.fst).head? = some hndl) }
  | .rm hndl => .ok { t with
      waiting := t.waiting.filter fun x => x.1 ≠ hndl
      first := decide (t.hndls.head? = some hndl) }
  | .event now =>
    match t.waiting with
    | [] => .ok t
    | (hndl, due) :: waiting =>
      if due > now then .ok t
      else .ok { t with waiting := waiting, fired := t.fired ++ [⟨hndl, due, now⟩] }

/-- The list holds what waits, and the handles know when they are due. -/
structure Times (s : Timers α) (t : Schedule α) : Prop where
  chained : Chained s.set.links s.set.timeouts t.hndls
  timeout : ∀ x ∈ t.waiting, s.set.timeout x.1 = x.2
  first : s.first = t.first
  fired : s.fired = t.fired

variable {xs : List (α × Nat)} {s : Timers α} {t : Schedule α} {fuel now : Nat} {timeout : Int} {hndl : α}

/-- The loop stops at the first that is due later. -/
theorem addLoop_eq (set : Timerset α) (h : Seg set.links.next .null as) (due : Nat)
    (hfuel : as.length < fuel) : addLoop set due fuel (Link.first .null as) =
      .ok (Link.first .null (as.dropWhile fun a => set.timeout a ≤ due)) := by
  induction as generalizing fuel with
  | nil =>
    obtain ⟨fuel, rfl⟩ := Nat.exists_eq_succ_of_ne_zero (Nat.ne_of_gt hfuel)
    rfl
  | cons a as ih =>
    obtain ⟨fuel, rfl⟩ := Nat.exists_eq_succ_of_ne_zero (Nat.ne_of_gt (Nat.zero_lt_of_lt hfuel))
    by_cases hdue : set.timeout a ≤ due
    · rw [List.dropWhile_cons, if_pos (decide_eq_true hdue)]
      simp only [addLoop, Link.first_cons, Nat.not_lt.mpr hdue, h.1, Link.first_ne_out, if_false]
      exact ih h.2 (Nat.lt_of_succ_lt_succ hfuel)
    · rw [List.dropWhile_cons, if_neg (by simpa using hdue)]
      simp only [addLoop, Link.first_cons, Nat.lt_of_not_le hdue, if_true]

omit [DecidableEq α] in
theorem dropWhile_fst {f : α → Nat} (hf : ∀ x ∈ xs, f x.1 = x.2) (due : Nat) :
    (xs.map Prod.fst).dropWhile (fun a => f a ≤ due) =
      (xs.dropWhile fun x => x.2 ≤ due).map Prod.fst := by
  induction xs with
  | nil => rfl
  | cons x xs ih =>
    rw [List.map_cons, List.dropWhile_cons, List.dropWhile_cons, hf x List.mem_cons_self]
    split
    · exact ih fun y hy => hf y (List.mem_cons_of_mem _ hy)
    · rfl

theorem add_waiting (h : Times s t) (hfuel : t.waiting.length < fuel) (hmem : hndl ∈ t.hndls) :
    s.step fuel (.add now timeout hndl) = .error .assertion := by
  have hprev : s.set.links.prev hndl ≠ .out :=
    seg_mem_ne_out h.chained.prev (List.mem_reverse.mpr hmem)
  have hlen : t.hndls.length < fuel := by
    rw [Schedule.hndls, List.length_map]
    exact hfuel
  have hloop := addLoop_eq
    { s.set with timeout := Function.update s.set.timeout hndl (dueAt now timeout) } h.chained.next
    (dueAt now timeout) hlen
  rw [← h.chained.first] at hloop
  simp only [Timers.step, nnTimersetAdd, Function.update_self, hloop, ok_bind, nnListInsert, hprev, ne_eq,
    not_false_eq_true, if_true]
  rfl

omit [DecidableEq α] in
/-- The new item is the first of the list if there was none before the place it is put at. -/
theorem first_inserted (hnd : (as ++ bs).Nodup) (ha : a ∉ as) :
    Link.first .null (as ++ bs) = Link.first .null bs ↔ (as ++ a :: bs).head? = some a := by
  cases as with
  | nil => exact iff_of_true rfl rfl
  | cons c as =>
    refine iff_of_false (fun heq => ?_) fun heq => ha ?_
    · exact List.disjoint_of_nodup_append hnd List.mem_cons_self (Link.mem_of_first heq.symm)
    · rw [Option.some.inj heq]
      exact List.mem_cons_self

theorem add_times (h : Times s t) (hfuel : t.waiting.length < fuel) (hmem : hndl ∉ t.hndls)
    (now : Nat) (timeout : Int) :
    ∃ s' t', s.step fuel (.add now timeout hndl) = .ok s' ∧ t.step (.add now timeout hndl) = .ok t' ∧
      Times s' t' := by
  have hlen : t.hndls.length < fuel := by
    rw [Schedule.hndls, List.length_map]
    exact hfuel
  have hother : ∀ x ∈ t.waiting, Function.update s.set.timeout hndl (dueAt now timeout) x.1 = x.2 :=
    fun x hx => by
      have hne : x.1 ≠ hndl := fun heq => hmem (heq ▸ List.mem_map_of_mem hx)
      rw [Function.update_of_ne hne]
      exact h.timeout x hx
  have hloop := addLoop_eq
    { s.set with timeout := Function.update s.set.timeout hndl (dueAt now timeout) } h.chained.next
    (dueAt now timeout) hlen
  rw [Schedule.hndls, dropWhile_fst hother, ← Schedule.hndls, ← h.chained.first] at hloop
  have hsplit : t.hndls = (t.waiting.takeWhile fun x => x.2 ≤ dueAt now timeout).map Prod.fst ++
      (t.waiting.dropWhile fun x => x.2 ≤ dueAt now timeout).map Prod.fst := by
    rw [← List.map_append, List.takeWhile_append_dropWhile, Schedule.hndls]
  have hadd : (insertDue hndl (dueAt now timeout) t.waiting).map Prod.fst =
      (t.waiting.takeWhile fun x => x.2 ≤ dueAt now timeout).map Prod.fst ++
        hndl :: (t.waiting.dropWhile fun x => x.2 ≤ dueAt now timeout).map Prod.fst := List.map_append
  generalize (t.waiting.takeWhile fun x => x.2 ≤ dueAt now timeout).map Prod.fst = as at hsplit hadd
  generalize (t.waiting.dropWhile fun x => x.2 ≤ dueAt now timeout).map Prod.fst = bs
    at hsplit hadd hloop
  have hchained := h.chained
  rw [hsplit] at hchained hmem
  obtain ⟨links, timeouts, hinsert, hlist⟩ := insert_chained hchained hmem
  have hstep : s.step fuel (.add now timeout hndl) = .ok { s with
      set := ⟨links, timeouts, Function.update s.set.timeout hndl (dueAt now timeout)⟩
      first := decide (s.set.timeouts.first = Link.first .null bs) } := by
    simp only [Timers.step, nnTimersetAdd, Function.update_self, hloop, ok_bind, hinsert]
    rfl
  refine ⟨_, _, hstep, if_neg (hsplit ▸ hmem), ?_, fun x hx => ?_, ?_, h.fired⟩
  · show Chained links timeouts ((insertDue hndl (dueAt now timeout) t.waiting).map Prod.fst)
    rwa [hadd]
  · rcases mem_insertDue.mp hx with rfl | hx
    · exact Function.update_self _ _ _
    · exact hother x hx
  · refine decide_eq_decide.mpr ?_
    rw [hadd, hchained.first]
    exact first_inserted hchained.nodup fun has => hmem (List.mem_append_left _ has)

theorem nodup_split (h : (xs.map Prod.fst).Nodup) (hmem : hndl ∈ xs.map Prod.fst) : ∃ ys due zs,
    xs = ys ++ (hndl, due) :: zs ∧ (xs.filter fun x => x.1 ≠ hndl) = ys ++ zs := by
  obtain ⟨x, hx, rfl⟩ := List.mem_map.mp hmem
  obtain ⟨ys, zs, rfl⟩ := List.append_of_mem hx
  rw [List.map_append, List.map_cons] at h
  obtain ⟨hnot, -⟩ := List.nodup_cons.mp (List.nodup_middle.mp h)
  rw [← List.map_append] at hnot
  have hne : ∀ y ∈ ys ++ zs, y.1 ≠ x.1 := fun y hy heq => hnot (heq ▸ List.mem_map_of_mem hy)
  refine ⟨ys, x.2, zs, rfl, ?_⟩
  have hself : ¬ decide (x.1 ≠ x.1) = true := by simp
  rw [List.filter_append, List.filter_cons, if_neg hself, ← List.filter_append]
  exact List.filter_eq_self.mpr fun y hy => decide_eq_true (hne y hy)

theorem rm_times (h : Times s t) : ∃ s' t', s.step fuel (.rm hndl) = .ok s' ∧
    t.step (.rm hndl) = .ok t' ∧ Times s' t' := by
  have hfirst : decide (s.set.timeouts.first = .node hndl) = decide (t.hndls.head? = some hndl) :=
    decide_eq_decide.mpr (h.chained.first ▸ Link.first_eq_node)
  by_cases hmem : hndl ∈ t.hndls
  · obtain ⟨ys, due, zs, hsplit, hfilter⟩ := nodup_split h.chained.nodup hmem
    have hchained := h.chained
    have hprev : s.set.links.prev hndl ≠ .out :=
      seg_mem_ne_out hchained.prev (List.mem_reverse.mpr hmem)
    rw [Schedule.hndls, hsplit, List.map_append, List.map_cons] at hchained
    obtain ⟨links, timeouts, herase, hlist⟩ := erase_chained hchained
    have hstep : s.step fuel (.rm hndl) = .ok { s with
        set := { s.set with links := links, timeouts := timeouts }
        first := decide (s.set.timeouts.first = .node hndl) } := by
      simp only [Timers.step, nnTimersetRm, hprev, if_false, herase, ok_bind]
      rfl
    refine ⟨_, _, hstep, rfl, ?_, fun x hx => ?_, hfirst, h.fired⟩
    · show Chained links timeouts ((t.waiting.filter fun x => x.1 ≠ hndl).map Prod.fst)
      rwa [hfilter, List.map_append]
    · exact h.timeout x (List.mem_filter.mp hx).1
  · have hstep : s.step fuel (.rm hndl) = .ok { s with first := false } := by
      simp only [Timers.step, nnTimersetRm, (h.chained.out hndl hmem).1, if_true, ok_bind]
      rfl
    have hfilter : (t.waiting.filter fun x => x.1 ≠ hndl) = t.waiting :=
      List.filter_eq_self.mpr fun x hx =>
        decide_eq_true fun heq => hmem (heq ▸ List.mem_map_of_mem hx)
    refine ⟨_, _, hstep, rfl, ?_, fun x hx => ?_, ?_, h.fired⟩
    · show Chained s.set.links s.set.timeouts ((t.waiting.filter fun x => x.1 ≠ hndl).map Prod.fst)
      rw [hfilter]
      exact h.chained
    · exact h.timeout x (List.mem_filter.mp hx).1
    · exact (decide_eq_false fun heq => hmem (List.mem_of_head? heq)).symm

/-- The first timeout is handed out, if it is due. -/
theorem event_times (h : Times s t) (fuel now : Nat) : ∃ s' t', s.step fuel (.event now) = .ok s' ∧
    t.step (.event now) = .ok t' ∧ Times s' t' := by
  have hfirst := h.chained.first
  cases hwaiting : t.waiting with
  | nil =>
    rw [Schedule.hndls, hwaiting] at hfirst
    refine ⟨s, t, ?_, ?_, h⟩
    · simp only [Timers.step, nnTimersetEvent, hfirst, List.map_nil, Link.first_nil, ok_bind]
      rfl
    · simp only [Schedule.step, hwaiting]
  | cons x waiting =>
    obtain ⟨hndl, due⟩ := x
    have htimeout : s.set.timeout hndl = due := h.timeout _ (hwaiting ▸ List.mem_cons_self)
    rw [Schedule.hndls, hwaiting, List.map_cons, Link.first_cons] at hfirst
    by_cases hdue : due > now
    · refine ⟨s, t, ?_, ?_, h⟩
      · simp only [Timers.step, nnTimersetEvent, hfirst, htimeout, hdue, if_true, ok_bind]
        rfl
      · simp only [Schedule.step, hwaiting, hdue, if_true]
    · have hchained : Chained s.set.links s.set.timeouts ([] ++ hndl :: waiting.map Prod.fst) := by
        have hall := h.chained
        rwa [Schedule.hndls, hwaiting] at hall
      obtain ⟨links, timeouts, herase, hlist⟩ := erase_chained hchained
      have hstep : s.step fuel (.event now) = .ok { s with
          set := { s.set with links := links, timeouts := timeouts }
          fired := s.fired ++ [⟨hndl, due, now⟩] } := by
        simp only [Timers.step, nnTimersetEvent, hfirst, htimeout, hdue, if_false, herase, ok_bind,
          pure_eq_ok]
      have hnext : t.step (.event now) = .ok { t with
          waiting := waiting, fired := t.fired ++ [⟨hndl, due, now⟩] } := by
        simp only [Schedule.step, hwaiting, hdue, if_false]
      refine ⟨_, _, hstep, hnext, hlist, fun x hx => ?_, h.first, ?_⟩
      · exact h.timeout x (hwaiting ▸ List.mem_cons_of_mem _ hx)
      · exact congrArg (· ++ [⟨hndl, due, now⟩]) h.fired

/-! ## Runs -/

def timerset (fuel : Nat) : Checked (Timers α) (TimerOp α) Fault := ⟨Timers.step fuel⟩

def schedule : Checked (Schedule α) (TimerOp α) Fault := ⟨Schedule.step⟩

def noTimers : Timers α := ⟨⟨⟨fun _ => .out, fun _ => .out⟩, nnListInit, fun _ => 0⟩, false, []⟩

omit [DecidableEq α] in
theorem noTimers_times : Times (noTimers : Timers α) ⟨[], false, []⟩ :=
  ⟨⟨List.nodup_nil, rfl, rfl, trivial, trivial, fun _ _ => ⟨rfl, rfl⟩⟩, nofun, rfl, rfl⟩

theorem step_times (h : Times s t) (hfuel : t.waiting.length < fuel) (op : TimerOp α) :
    Checked.Agree Times (s.step fuel op) (t.step op) := by
  cases op with
  | add now timeout hndl =>
    by_cases hmem : hndl ∈ t.hndls
    · rw [add_waiting h hfuel hmem, Schedule.step, if_pos hmem]
      rfl
    · obtain ⟨s', t', hs, ht, h'⟩ := add_times h hfuel hmem now timeout
      rw [hs, ht]
      exact h'
  | rm hndl =>
    obtain ⟨s', t', hs, ht, h'⟩ := rm_times h
    rw [hs, ht]
    exact h'
  | event now =>
    obtain ⟨s', t', hs, ht, h'⟩ := event_times h fuel now
    rw [hs, ht]
    exact h'

/-- What a step does to the timeouts that wait and to those that were handed out. -/
theorem schedule_cases {t' : Schedule α} {op : TimerOp α} (h : t.step op = .ok t') :
    (∃ now timeout hndl, op = .add now timeout hndl ∧ t'.fired = t.fired ∧
        t'.waiting = insertDue hndl (dueAt now timeout) t.waiting) ∨
      (∃ hndl, op = .rm hndl ∧ t'.fired = t.fired ∧
        t'.waiting = t.waiting.filter fun x => x.1 ≠ hndl) ∨
      ∃ now, op = .event now ∧ (t' = t ∧ (∀ x, t.waiting.head? = some x → now < x.2) ∨
        ∃ x, t.waiting = x :: t'.waiting ∧ x.2 ≤ now ∧ t'.fired = t.fired ++ [⟨x.1, x.2, now⟩]) := by
  cases op with
  | add now timeout hndl =>
    rw [Schedule.step] at h
    split at h
    · cases h
    · cases h
      exact .inl ⟨now, timeout, hndl, rfl, rfl, rfl⟩
  | rm hndl =>
    cases h
    exact .inr (.inl ⟨hndl, rfl, rfl, rfl⟩)
  | event now =>
    refine .inr (.inr ⟨now, rfl, ?_⟩)
    cases hwaiting : t.waiting with
    | nil =>
      simp only [Schedule.step, hwaiting] at h
      cases h
      exact .inl ⟨rfl, nofun⟩
    | cons x waiting =>
      obtain ⟨hndl, due⟩ := x
      by_cases hdue : due > now
      · simp only [Schedule.step, hwaiting, hdue, if_true] at h
        cases h
        exact .inl ⟨rfl, fun x hx => Option.some.inj hx ▸ hdue⟩
      · simp only [Schedule.step, hwaiting, hdue, if_false] at h
        cases h
        exact .inr ⟨(hndl, due), rfl, Nat.le_of_not_lt hdue, rfl⟩

theorem waiting_length {t' : Schedule α} {op : TimerOp α} (h : t.step op = .ok t') :
    t'.waiting.length ≤ t.waiting.length + 1 := by
  rcases schedule_cases h with ⟨now, timeout, hndl, -, -, hw⟩ | ⟨hndl, -, -, hw⟩ | ⟨now, -, hw⟩
  · rw [hw, insertDue_perm.length_eq]
    rfl
  · rw [hw]
    exact Nat.le_succ_of_le (List.length_filter_le _ _)
  · rcases hw with ⟨rfl, -⟩ | ⟨x, hw, -⟩
    · exact Nat.le_succ _
    · rw [hw, List.length_cons]
      omega

/-- The list holds what waits, when the loop is given as many rounds as there are steps. -/
theorem run_times (ops : List (TimerOp α)) (hfuel : ops.length ≤ fuel) :
    Checked.Agree Times ((timerset fuel).run noTimers ops) (schedule.run ⟨[], false, []⟩ ops) :=
  Checked.run_agree Times (fun t => t.waiting.length) (fun _ _ op h hlen => step_times h hlen op)
    (fun _ _ _ h => waiting_length h) noTimers_times
    (Nat.le_trans (Nat.le_of_eq (Nat.zero_add _)) hfuel)

/-- **The timeouts are right.** Whatever is added, taken out and handed out in whatever order,
the code does on its links what the schedule says. No link is followed that is no pointer, no
loop runs on, and the assertion fails only when a timeout is added that waits already. -/
theorem timers_right (ops : List (TimerOp α)) :
    Checked.Agree Times ((timerset ops.length).run noTimers ops) (schedule.run ⟨[], false, []⟩ ops) :=
  run_times ops (Nat.le_refl _)

/-! ## The order they are handed out in -/

/-- The clock does not go back, and no timeout is due before it is added. -/
def Clocked : Nat → List (TimerOp α) → Prop
  | _, [] => True
  | now, .add t timeout _ :: ops => now ≤ t ∧ t ≤ dueAt t timeout ∧ Clocked t ops
  | now, .rm _ :: ops => Clocked now ops
  | now, .event t :: ops => now ≤ t ∧ Clocked t ops

/-- What was handed out was in order, and it was due by `now` and before all that waits. -/
structure Ordered (now : Nat) (t : Schedule α) : Prop where
  sorted : Sorted t.waiting
  fired : t.fired.Pairwise fun f g => f.due ≤ g.due
  past : ∀ f ∈ t.fired, f.due ≤ now
  apart : ∀ f ∈ t.fired, ∀ x ∈ t.waiting, f.due ≤ x.2

theorem step_sorted {t' : Schedule α} {op : TimerOp α} (h : Sorted t.waiting) (ht : t.step op = .ok t') :
    Sorted t'.waiting := by
  rcases schedule_cases ht with ⟨now, timeout, hndl, -, -, hw⟩ | ⟨hndl, -, -, hw⟩ | ⟨now, -, hw⟩
  · exact hw ▸ h.insertDue
  · exact hw ▸ List.Pairwise.filter _ h
  · rcases hw with ⟨rfl, -⟩ | ⟨x, hw, -⟩
    · exact h
    · rw [hw] at h
      exact (List.pairwise_cons.mp h).2

theorem step_early {t' : Schedule α} {op : TimerOp α} (h : ∀ f ∈ t.fired, f.due ≤ f.now)
    (ht : t.step op = .ok t') : ∀ f ∈ t'.fired, f.due ≤ f.now := by
  rcases schedule_cases ht with ⟨_, _, _, -, hf, -⟩ | ⟨_, -, hf, -⟩ | ⟨now, -, hw⟩
  · exact hf ▸ h
  · exact hf ▸ h
  · rcases hw with ⟨rfl, -⟩ | ⟨x, -, hdue, hf⟩
    · exact h
    · intro f hmem
      rw [hf] at hmem
      rcases List.mem_append.mp hmem with hmem | hmem
      · exact h f hmem
      · exact List.mem_singleton.mp hmem ▸ hdue

omit [DecidableEq α] in
theorem Ordered.later {now' : Nat} (h : Ordered now t) (hle : now ≤ now') : Ordered now' t :=
  ⟨h.sorted, h.fired, fun f hf => Nat.le_trans (h.past f hf) hle, h.apart⟩

theorem step_ordered {t' : Schedule α} {op : TimerOp α} {ops : List (TimerOp α)} (h : Ordered now t)
    (hclock : Clocked now (op :: ops)) (ht : t.step op = .ok t') :
    ∃ now', Ordered now' t' ∧ Clocked now' ops := by
  have hsorted := step_sorted h.sorted ht
  rcases schedule_cases ht with ⟨now', timeout, hndl, rfl, hf, hw⟩ | ⟨hndl, rfl, hf, hw⟩ | ⟨now', rfl, hw⟩
  · obtain ⟨hle, hdue, hclock⟩ := hclock
    have hpast := (h.later hle).past
    refine ⟨now', ⟨hsorted, hf ▸ h.fired, hf ▸ hpast, fun f hmem x hx => ?_⟩, hclock⟩
    rw [hf] at hmem
    rw [hw] at hx
    rcases mem_insertDue.mp hx with rfl | hx
    · exact Nat.le_trans (hpast f hmem) hdue
    · exact h.apart f hmem x hx
  · refine ⟨now, ⟨hsorted, hf ▸ h.fired, hf ▸ h.past, fun f hmem x hx => ?_⟩, hclock⟩
    rw [hf] at hmem
    rw [hw] at hx
    exact h.apart f hmem x (List.mem_filter.mp hx).1
  · obtain ⟨hle, hclock⟩ := hclock
    refine ⟨now', ?_, hclock⟩
    rcases hw with ⟨rfl, -⟩ | ⟨x, hw, hdue, hf⟩
    · exact h.later hle
    · have hx : x ∈ t.waiting := hw ▸ List.mem_cons_self
      have hrest := (List.pairwise_cons.mp (hw ▸ h.sorted : Sorted (x :: t'.waiting))).1
      refine ⟨hsorted, ?_, fun f hmem => ?_, fun f hmem y hy => ?_⟩
      · rw [hf]
        refine List.pairwise_append.mpr ⟨h.fired, List.pairwise_singleton _ _, fun f hmem g hg => ?_⟩
        rw [List.mem_singleton.mp hg]
        exact h.apart f hmem x hx
      · rw [hf] at hmem
        rcases List.mem_append.mp hmem with hmem | hmem
        · exact (h.later hle).past f hmem
        · exact List.mem_singleton.mp hmem ▸ hdue
      · rw [hf] at hmem
        rcases List.mem_append.mp hmem with hmem | hmem
        · exact h.apart f hmem y (hw ▸ List.mem_cons_of_mem _ hy)
        · rw [List.mem_singleton.mp hmem]
          exact hrest y hy

theorem run_ordered {ops : List (TimerOp α)} {t' : Schedule α} (h : Ordered now t)
    (hclock : Clocked now ops) (hrun : schedule.run t ops = .ok t') : ∃ now', Ordered now' t' := by
  refine Checked.run_induction (P := fun t ops => ∀ now, Ordered now t → Clocked now ops →
    ∃ now', Ordered now' t') (fun now h _ => ⟨now, h⟩) ?_ hrun now h hclock
  intro t op u ops hop ih now h hclock
  obtain ⟨now', hu, hclock'⟩ := step_ordered h hclock hop
  exact ih now' hu hclock'

/-! ## How often -/

def added (ops : List (TimerOp α)) : List α :=
  ops.filterMap fun
    | .add _ _ hndl => some hndl
    | _ => none

def Schedule.all (t : Schedule α) : List α := t.fired.map Firing.hndl ++ t.hndls

theorem step_kept {t' : Schedule α} {op : TimerOp α} (h : t.step op = .ok t') (hkept : op ≠ .rm hndl) :
    t'.all.count hndl = t.all.count hndl + (added [op]).count hndl := by
  rcases schedule_cases h with ⟨now', timeout, other, rfl, hf, hw⟩ | ⟨other, rfl, hf, hw⟩ | ⟨now', rfl, hw⟩
  · have hperm : t'.hndls.Perm (other :: t.hndls) := by
      rw [Schedule.hndls, hw]
      exact insertDue_perm.map Prod.fst
    rw [Schedule.all, Schedule.all, hf, List.count_append, hperm.count_eq, List.count_append,
      Nat.add_assoc, List.count_cons, added]
    simp only [List.filterMap_cons, List.filterMap_nil, List.count_cons, List.count_nil, Nat.zero_add]
  · have hne : hndl ≠ other := fun heq => hkept (heq ▸ rfl)
    have hfilter : t'.hndls = t.hndls.filter fun a => a ≠ other := by
      rw [Schedule.hndls, hw, Schedule.hndls, List.filter_map]
      rfl
    have hcount : t'.hndls.count hndl = t.hndls.count hndl := by
      rw [hfilter]
      exact List.count_filter (p := fun a => a ≠ other) (decide_eq_true hne)
    rw [Schedule.all, Schedule.all, hf, List.count_append, hcount, List.count_append]
    rfl
  · rcases hw with ⟨rfl, -⟩ | ⟨x, hw, -, hf⟩
    · rfl
    · rw [Schedule.all, Schedule.all, Schedule.hndls, Schedule.hndls, hf, hw, List.map_append,
        List.map_cons, List.append_assoc]
      rfl

omit [DecidableEq α] in
theorem added_cons (op : TimerOp α) (ops : List (TimerOp α)) :
    added (op :: ops) = added [op] ++ added ops := by
  rw [added, added, added, ← List.filterMap_append]
  rfl

/-- A timeout that is not taken out is handed out or waits. -/
theorem run_kept {ops : List (TimerOp α)} {t' : Schedule α} (h : schedule.run t ops = .ok t')
    (hkept : .rm hndl ∉ ops) : t'.all.count hndl = t.all.count hndl + (added ops).count hndl := by
  refine Checked.run_induction (P := fun t ops => .rm hndl ∉ ops →
    t'.all.count hndl = t.all.count hndl + (added ops).count hndl) (fun _ => rfl) ?_ h hkept
  intro t op u ops hop ih hkept
  rw [List.mem_cons, not_or] at hkept
  rw [added_cons, ih hkept.2, step_kept hop (Ne.symm hkept.1), List.count_append, Nat.add_assoc]

theorem step_kept_le {t' : Schedule α} {op : TimerOp α} (h : t.step op = .ok t') (hndl : α) :
    t'.all.count hndl ≤ t.all.count hndl + (added [op]).count hndl := by
  by_cases hkept : op = .rm hndl
  · subst hkept
    cases h
    have hsub : ((t.waiting.filter fun x => x.1 ≠ hndl).map Prod.fst).Sublist t.hndls :=
      List.filter_sublist.map Prod.fst
    exact ((List.Sublist.refl (t.fired.map Firing.hndl)).append hsub).count_le hndl
  · exact Nat.le_of_eq (step_kept h hkept)

theorem run_kept_le {ops : List (TimerOp α)} {t' : Schedule α} (h : schedule.run t ops = .ok t')
    (hndl : α) : t'.all.count hndl ≤ t.all.count hndl + (added ops).count hndl := by
  refine Checked.run_induction (P := fun t ops =>
    t'.all.count hndl ≤ t.all.count hndl + (added ops).count hndl) (Nat.le_refl _) ?_ h
  intro t op u ops hop ih
  have hle := step_kept_le hop hndl
  rw [added_cons, List.count_append]
  omega

/-- **In the order they are due.** No timeout is handed out early, and none more often than it
was added. When the clock does not go back they are handed out in the order in which they are
due. One that is never taken out has been handed out as often as it was added when none waits. -/
theorem fired_in_order {ops : List (TimerOp α)} (h : (timerset ops.length).run noTimers ops = .ok s) :
    (∀ f ∈ s.fired, f.due ≤ f.now) ∧
      (∀ hndl, (s.fired.map Firing.hndl).count hndl ≤ (added ops).count hndl) ∧
      (Clocked 0 ops → s.fired.Pairwise fun f g => f.due ≤ g.due) ∧
      (s.set.timeouts.first = .null → ∀ hndl, .rm hndl ∉ ops →
        (s.fired.map Firing.hndl).count hndl = (added ops).count hndl) := by
  have hagree := run_times ops (Nat.le_refl _)
  rw [h] at hagree
  obtain ⟨t, ht, hst⟩ := hagree.ok
  rw [hst.fired]
  refine ⟨?_, fun hndl => ?_, fun hclock => ?_, fun hfirst hndl hkept => ?_⟩
  · exact Checked.run_invariant (I := fun t : Schedule α => ∀ f ∈ t.fired, f.due ≤ f.now)
      (fun _ _ _ hearly hstep => step_early hearly hstep)
      (fun _ hf => absurd hf List.not_mem_nil) ht
  · have hle := run_kept_le ht hndl
    rw [Schedule.all, List.count_append] at hle
    exact Nat.le_trans (Nat.le_add_right _ _) (Nat.le_trans hle (Nat.le_of_eq (Nat.zero_add _)))
  · have hnone : Ordered 0 (⟨[], false, []⟩ : Schedule α) := ⟨.nil, .nil, nofun, nofun⟩
    obtain ⟨now, hordered⟩ := run_ordered hnone hclock ht
    exact hordered.fired
  · have hcount := run_kept ht hkept
    rw [hst.chained.first, Link.first_eq_null] at hfirst
    rw [Schedule.all, hfirst, List.append_nil] at hcount
    exact hcount.trans (Nat.zero_add _)

def timing : List (TimerOp Nat) :=
  [.add 0 30 0, .add 0 10 1, .add 5 5 2, .add 6 1 3, .rm 3, .event 12, .event 12, .event 12, .event 40]

def timed : Timers Nat := ((timerset timing.length).run noTimers timing).toOption.getD noTimers

theorem timed_run : (timerset timing.length).run noTimers timing = .ok timed := ok_getD rfl _

theorem fired_in_order_timing : timed.fired = [⟨1, 10, 12⟩, ⟨2, 10, 12⟩, ⟨0, 30, 40⟩] ∧
    (timed.fired.Pairwise fun f g => f.due ≤ g.due) ∧
      (timed.fired.map Firing.hndl).count 2 = (added timing).count 2 := by
  obtain ⟨-, -, hordered, hall⟩ := fired_in_order timed_run
  refine ⟨rfl, hordered ?_, hall rfl 2 (by decide)⟩
  simp only [timing, Clocked]
  decide

/-! ## All that are due -/

def nnTimersetHndlIsactive (s : Timerset α) (hndl : α) : Bool := decide (s.links.prev hndl ≠ .out)

theorem isactive_iff (h : Times s t) : nnTimersetHndlIsactive s.set hndl = true ↔ hndl ∈ t.hndls := by
  constructor
  · intro hactive
    by_contra hmem
    exact of_decide_eq_true hactive (h.chained.out hndl hmem).1
  · exact fun hmem => decide_eq_true (seg_mem_ne_out h.chained.prev (List.mem_reverse.mpr hmem))

theorem run_events (h : Times s t) (now n : Nat) : ∃ s' t',
    (timerset fuel).run s (List.replicate n (.event now)) = .ok s' ∧
      schedule.run t (List.replicate n (.event now)) = .ok t' ∧ Times s' t' := by
  induction n generalizing s t with
  | zero => exact ⟨s, t, rfl, rfl, h⟩
  | succ n ih =>
    obtain ⟨s', t', hs, ht, h'⟩ := event_times h fuel now
    obtain ⟨s'', t'', hs', ht', h''⟩ := ih h'
    refine ⟨s'', t'', ?_, ?_, h''⟩
    · exact (Checked.run_cons_ok (show (timerset fuel).step s (.event now) = .ok s' from hs)).trans hs'
    · exact (Checked.run_cons_ok (show schedule.step t (.event now) = .ok t' from ht)).trans ht'

/-- What the schedule hands out until nothing is due. -/
theorem schedule_drain {n : Nat} (now : Nat)
    (hn : (t.waiting.takeWhile fun x => x.2 ≤ now).length ≤ n) :
    schedule.run t (List.replicate n (.event now)) = .ok { t with
      waiting := t.waiting.dropWhile fun x => x.2 ≤ now
      fired := t.fired ++ (t.waiting.takeWhile fun x => x.2 ≤ now).map fun x => ⟨x.1, x.2, now⟩ } := by
  induction n generalizing t with
  | zero =>
    have hnil := List.eq_nil_of_length_eq_zero (Nat.le_zero.mp hn)
    have hall := List.takeWhile_append_dropWhile (p := fun x : α × Nat => x.2 ≤ now) (l := t.waiting)
    rw [hnil, List.nil_append] at hall
    rw [hnil, hall, List.map_nil, List.append_nil]
    rfl
  | succ n ih =>
    cases hwaiting : t.waiting with
    | nil =>
      have hstep : schedule.step t (.event now) = .ok t := by
        simp only [schedule, Schedule.step, hwaiting]
      rw [List.replicate_succ, Checked.run_cons_ok hstep, ih (by simp [hwaiting]), hwaiting]
    | cons x waiting =>
      obtain ⟨hndl, due⟩ := x
      by_cases hdue : due ≤ now
      · have hstep : schedule.step t (.event now) = .ok { t with
            waiting := waiting, fired := t.fired ++ [⟨hndl, due, now⟩] } := by
          simp only [schedule, Schedule.step, hwaiting, Nat.not_lt.mpr hdue, if_false]
        rw [hwaiting, List.takeWhile_cons, if_pos (decide_eq_true hdue), List.length_cons] at hn
        rw [List.replicate_succ, Checked.run_cons_ok hstep, ih (Nat.le_of_succ_le_succ hn),
          List.takeWhile_cons, List.dropWhile_cons, if_pos (decide_eq_true hdue),
          if_pos (decide_eq_true hdue), List.map_cons, List.append_assoc]
        rfl
      · have hstep : schedule.step t (.event now) = .ok t := by
          simp only [schedule, Schedule.step, hwaiting, Nat.lt_of_not_le hdue, if_true]
        have hnone : (t.waiting.takeWhile fun x => x.2 ≤ now) = [] := by
          rw [hwaiting, List.takeWhile_cons, if_neg (by simpa using hdue)]
        rw [List.replicate_succ, Checked.run_cons_ok hstep,
          ih (hnone ▸ Nat.zero_le _), hwaiting]

/-- **All that are due, and no others.** When the worker asks until there is none, it has been
handed out every timeout that was due, each once and the earliest first, and these are the ones
that are no longer active. -/
theorem due_fired {ops : List (TimerOp α)} {n : Nat} (hfuel : ops.length ≤ fuel)
    (h : (timerset fuel).run noTimers ops = .ok s) (now : Nat) (hn : ops.length ≤ n) : ∃ s' fs,
      (timerset fuel).run s (List.replicate n (.event now)) = .ok s' ∧ s'.fired = s.fired ++ fs ∧
        (fs.map Firing.hndl).Nodup ∧ (fs.Pairwise fun f g => f.due ≤ g.due) ∧ ∀ hndl,
          (hndl ∈ fs.map Firing.hndl ↔
            nnTimersetHndlIsactive s.set hndl = true ∧ s.set.timeout hndl ≤ now) ∧
          (nnTimersetHndlIsactive s'.set hndl = true ↔
            nnTimersetHndlIsactive s.set hndl = true ∧ now < s.set.timeout hndl) := by
  have hagree := run_times ops hfuel
  rw [h] at hagree
  obtain ⟨t, ht, hst⟩ := hagree.ok
  have hnil : Sorted (⟨[], false, []⟩ : Schedule α).waiting := .nil
  have hsorted : Sorted t.waiting := Checked.run_invariant (I := fun t : Schedule α => Sorted t.waiting)
    (fun _ _ _ hs hstep => step_sorted hs hstep) hnil ht
  have hlen : t.waiting.length ≤ 0 + ops.length :=
    Checked.run_size (fun t => t.waiting.length) (fun _ _ _ h => waiting_length h) ht
  have hdrain := schedule_drain (t := t) now
    (Nat.le_trans (List.takeWhile_sublist _).length_le (show t.waiting.length ≤ n by omega))
  obtain ⟨s', t', hs', ht', hst'⟩ := run_events hst now n
  obtain rfl := Except.ok.inj (ht'.symm.trans hdrain)
  have hwaits : ∀ hndl (p : Nat → Prop), (∃ due, (hndl, due) ∈ t.waiting ∧ p due) ↔
      nnTimersetHndlIsactive s.set hndl = true ∧ p (s.set.timeout hndl) := fun hndl p => by
    rw [isactive_iff hst]
    constructor
    · rintro ⟨due, hx, hp⟩
      exact ⟨List.mem_map_of_mem hx, (hst.timeout _ hx).symm ▸ hp⟩
    · rintro ⟨hmem, hp⟩
      obtain ⟨x, hx, rfl⟩ := List.mem_map.mp hmem
      exact ⟨x.2, hx, hst.timeout _ hx ▸ hp⟩
  refine ⟨s', _, hs', hst'.fired.trans (congrArg (· ++ _) hst.fired.symm), ?_, ?_, fun hndl => ⟨?_, ?_⟩⟩
  · rw [List.map_map]
    exact ((List.takeWhile_sublist _).map Prod.fst).nodup hst.chained.nodup
  · exact List.pairwise_map.mpr (List.Pairwise.sublist (List.takeWhile_sublist _) hsorted)
  · rw [← hwaits hndl fun due => due ≤ now, List.map_map, List.mem_map]
    constructor
    · rintro ⟨x, hx, rfl⟩
      exact ⟨x.2, hsorted.mem_takeWhile.mp hx⟩
    · rintro ⟨due, hx⟩
      exact ⟨(hndl, due), hsorted.mem_takeWhile.mpr hx, rfl⟩
  · rw [isactive_iff hst', ← hwaits hndl fun due => now < due, Schedule.hndls, List.mem_map]
    constructor
    · rintro ⟨x, hx, rfl⟩
      exact ⟨x.2, hsorted.mem_dropWhile.mp hx⟩
    · rintro ⟨due, hx⟩
      exact ⟨(hndl, due), hsorted.mem_dropWhile.mpr hx, rfl⟩

theorem due_fired_two : ∃ s s' fs, (timerset 9).run noTimers
      [.add 0 30 (0 : Nat), .add 0 10 1, .add 5 5 2] = .ok s ∧
    (timerset 9).run s (List.replicate 3 (.event 12)) = .ok s' ∧ s'.fired = s.fired ++ fs ∧
      1 ∈ fs.map Firing.hndl ∧ nnTimersetHndlIsactive s'.set 0 = true := by
  have hrun : (timerset 9).run noTimers [.add 0 30 (0 : Nat), .add 0 10 1, .add 5 5 2] = .ok _ :=
    ok_getD (by rfl) noTimers
  obtain ⟨s', fs, hs', hfired, -, -, hall⟩ := due_fired (show 3 ≤ 9 by decide) hrun 12 (Nat.le_refl 3)
  exact ⟨_, s', fs, hrun, hs', hfired, (hall 1).1.mpr ⟨rfl, by decide⟩, (hall 0).2.mpr ⟨rfl, by decide⟩⟩

end Nanomsg
