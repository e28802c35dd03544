import Getd.Nanomsg.Posting
import Getd.Nanomsg.Timers

/-!
# The timers of the connections

The socket beside the timeouts of its worker. `nn_timer_start` posts `start_task`. The worker
adds the timeout when it comes to that task, hands it out when it is due and takes it out when
it comes to `stop_task`. In every run the timeouts that wait are those of timers that are not
idle, and an active timer still has its timeout before it or has been told (`ticking_right`).
-/

namespace Nanomsg

open CLib

/-- The socket, the connections whose `start_task` is in the queues of the worker, and the
timeouts. -/
structure Ticking where
  sock : Sock
  starts : List Nat
  timers : Schedule Nat

inductive TickingInput
  /-- The worker comes to `start_task`. -/
  | start (c now : Nat)
  /-- `nn_worker_routine` asks for a timeout. -/
  | event (now : Nat)
  | sock (a : Action) (io : Io)

/-- The connections whose timers a step starts. -/
def Sock.starts (s s' : Sock) : List Nat :=
  (List.range s'.conns.length).filter fun c => s.timer c = .idle && s'.timer c ≠ .idle

/-- The connection whose `stop_task` the worker comes to. -/
def Sock.stops (s : Sock) (a : Action) : Option Nat :=
  match s.comes a with
  | some (c, .timerStop) => if s.posted (c, .timerStop) then some c else none
  | _ => none

/-- A timeout comes from `nn_worker_routine`, and `start_task` was posted before `stop_task`. -/
def Ticking.aside (p : Ticking) : Action → Bool
  | .timeout _ => true
  | .timerTask c => c ∈ p.starts
  | _ => false

/-- A step of the socket, and what it does to the timeouts. -/
def Ticking.sockStep (p : Ticking) (a : Action) (io : Io) : Except (Assert ⊕ Fault) Ticking := do
  let sock ← (stepSock p.sock (a, io)).mapError .inl
  let timers ← (schedule.run p.timers ((p.sock.stops a).toList.map .rm)).mapError .inr
  return ⟨sock, p.starts ++ p.sock.starts sock, timers⟩

def Ticking.step (p : Ticking) : TickingInput → Except (Assert ⊕ Fault) Ticking
  | .start c now =>
    if p.sock.queue ≠ [] ∨ c ∉ p.starts then .ok p
    else
      match p.sock.timer c with
      | .active => do
        -- `nn_streamhdr_start` asks for a second
        let timers ← (p.timers.step (.add now 1000 c)).mapError .inr
        return { p with starts := p.starts.erase c, timers := timers }
      | .stopping => .ok { p with starts := p.starts.erase c }
      | .idle => .error (.inl .fsmBad)
  | .event now =>
    if p.sock.queue ≠ [] then .ok p
    else do
      let timers ← (p.timers.step (.event now)).mapError .inr
      let p' := { p with timers := timers }
      match (timers.fired.drop p.timers.fired.length).head? with
      | none => return p'
      | some x => p'.sockStep (.timeout x.hndl) calm
  | .sock a io => if p.aside a then .ok p else p.sockStep a io

def ticking : Checked Ticking TickingInput (Assert ⊕ Fault) := ⟨Ticking.step⟩

def boundTicking : Ticking := ⟨boundSock, [], ⟨[], false, []⟩⟩

/-! ## The timers and the timeouts -/

/-- `starts` are the connections whose `start_task` waits, `hndls` those whose timeout waits,
and `told` those whose timeout was handed out. -/
structure Timely (s : Sock) (starts hndls told : List Nat) : Prop where
  nodup : starts.Nodup
  started : ∀ c ∈ starts, s.timer c ≠ .idle ∧ c ∉ hndls
  waits : ∀ c ∈ hndls, s.timer c ≠ .idle
  active : ∀ c, s.timer c = .active → c ∈ starts ∨ c ∈ hndls ∨ c ∈ told

variable {s s' : Sock} {starts hndls hndls' told : List Nat} {c : Nat} {io : Io}

theorem timer_lt (h : s.timer c ≠ .idle) : c < s.conns.length := by
  by_contra hge
  unfold Sock.timer at h
  rw [List.getElem?_eq_none (Nat.le_of_not_lt hge)] at h
  exact h rfl

theorem mem_starts : c ∈ s.starts s' ↔ s.timer c = .idle ∧ s'.timer c ≠ .idle := by
  unfold Sock.starts
  rw [List.mem_filter, List.mem_range, Bool.and_eq_true, decide_eq_true_iff, decide_eq_true_iff]
  exact ⟨fun h => h.2, fun h => ⟨timer_lt h.2, h⟩⟩

theorem starts_nodup (s s' : Sock) : (s.starts s').Nodup := List.nodup_range.filter _

/-- A timer goes on to its end, and is idle again when the worker has come to `stop_task`. -/
theorem TaskTurn.timer_cases {done : Option (Nat × ConnTask)} (h : TaskTurn s s' done) (c : Nat) :
    (s.timer c).rank ≤ (s'.timer c).rank ∨
      s'.timer c = .idle ∧ done = some (c, .timerStop) ∧ s.posted (c, .timerStop) = true := by
  by_cases hdone : done = some (c, .timerStop)
  · have hidle := h.idle c hdone
    cases hposted : s.posted (c, .timerStop) with
    | true =>
      rw [hposted] at hidle
      exact .inr ⟨hidle, hdone, rfl⟩
    | false =>
      rw [hposted] at hidle
      exact .inl (Nat.le_of_eq (congrArg TimerState.rank hidle.symm))
  · exact .inl (h.timer c hdone)

theorem TimerState.idle_of_rank {a b : TimerState} (h : a.rank ≤ b.rank) (hb : b = .idle) :
    a = .idle := by
  subst hb
  cases a with
  | idle => rfl
  | active | stopping => exact absurd h (by decide)

theorem TimerState.before_active {a b : TimerState} (h : a.rank ≤ b.rank) (hb : b = .active) :
    a = .idle ∨ a = .active := by
  subst hb
  cases a with
  | idle => exact .inl rfl
  | active => exact .inr rfl
  | stopping => exact absurd h (by decide)

/-- A turn of the socket. The timeouts that it takes out are of timers that are idle then. -/
theorem Timely.turn {done : Option (Nat × ConnTask)} (h : Timely s starts hndls told)
    (hturn : TaskTurn s s' done) (hsub : ∀ c ∈ hndls', c ∈ hndls)
    (hsup : ∀ c ∈ hndls, s'.timer c ≠ .idle → c ∈ hndls')
    (hidle : ∀ c, done = some (c, .timerStop) → s.posted (c, .timerStop) = true →
      c ∉ starts ∧ c ∉ hndls') :
    Timely s' (starts ++ s.starts s') hndls' told := by
  have hkept : ∀ c, c ∈ starts ∨ c ∈ hndls' → s.timer c ≠ .idle → s'.timer c ≠ .idle :=
    fun c hc hne heq => by
      rcases hturn.timer_cases c with hle | ⟨-, hdone, hposted⟩
      · exact hne (TimerState.idle_of_rank hle heq)
      · obtain ⟨hstarts, hhndls⟩ := hidle c hdone hposted
        exact hc.elim hstarts hhndls
  constructor
  · refine h.nodup.append (starts_nodup s s') fun c hc hnew => ?_
    exact (h.started c hc).1 (mem_starts.mp hnew).1
  · intro c hc
    rcases List.mem_append.mp hc with hc | hc
    · obtain ⟨hne, hno⟩ := h.started c hc
      exact ⟨hkept c (.inl hc) hne, fun hmem => hno (hsub c hmem)⟩
    · obtain ⟨hold, hnew⟩ := mem_starts.mp hc
      exact ⟨hnew, fun hmem => h.waits c (hsub c hmem) hold⟩
  · exact fun c hc => hkept c (.inr hc) (h.waits c (hsub c hc))
  · intro c hactive
    have hne : s'.timer c ≠ .idle := fun heq => by cases heq.symm.trans hactive
    rcases hturn.timer_cases c with hle | ⟨hidle', -⟩
    · rcases TimerState.before_active hle hactive with hold | hold
      · exact .inl (List.mem_append_right _ (mem_starts.mpr ⟨hold, hne⟩))
      · rcases h.active c hold with hc | hc | hc
        · exact .inl (List.mem_append_left _ hc)
        · exact .inr (.inl (hsup c hc hne))
        · exact .inr (.inr hc)
    · exact absurd hidle' hne

/-- The worker comes to the `start_task` of an active timer. -/
theorem Timely.add (h : Timely s starts hndls told) (hc : c ∈ starts)
    (hmem : ∀ d, d ∈ hndls' ↔ d = c ∨ d ∈ hndls) : Timely s (starts.erase c) hndls' told := by
  constructor
  · exact h.nodup.erase c
  · intro d hd
    obtain ⟨hne, hd⟩ := h.nodup.mem_erase_iff.mp hd
    obtain ⟨hidle, hno⟩ := h.started d hd
    exact ⟨hidle, fun hin => ((hmem d).mp hin).elim hne hno⟩
  · intro d hd
    rcases (hmem d).mp hd with rfl | hd
    · exact (h.started d hc).1
    · exact h.waits d hd
  · intro d hactive
    rcases h.active d hactive with hd | hd | hd
    · by_cases hdc : d = c
      · exact .inr (.inl ((hmem d).mpr (.inl hdc)))
      · exact .inl (h.nodup.mem_erase_iff.mpr ⟨hdc, hd⟩)
    · exact .inr (.inl ((hmem d).mpr (.inr hd)))
    · exact .inr (.inr hd)

/-- It does nothing when the timer has been stopped. -/
theorem Timely.skip (h : Timely s starts hndls told) (hc : s.timer c = .stopping) :
    Timely s (starts.erase c) hndls told := by
  refine ⟨h.nodup.erase c, fun d hd => h.started d (List.mem_of_mem_erase hd), h.waits, ?_⟩
  intro d hactive
  have hdc : d ≠ c := fun heq => by
    rw [heq, hc] at hactive
    cases hactive
  exact (h.active d hactive).imp_left fun hd => h.nodup.mem_erase_iff.mpr ⟨hdc, hd⟩

/-- The first timeout is handed out. -/
theorem Timely.tell (h : Timely s starts (c :: hndls) told) :
    Timely s starts hndls (told ++ [c]) := by
  refine ⟨h.nodup, fun d hd => ?_, fun d hd => h.waits d (List.mem_cons_of_mem _ hd), ?_⟩
  · obtain ⟨hne, hno⟩ := h.started d hd
    exact ⟨hne, fun hin => hno (List.mem_cons_of_mem _ hin)⟩
  · intro d hactive
    rcases h.active d hactive with hd | hd | hd
    · exact .inl hd
    · rcases List.mem_cons.mp hd with rfl | hd
      · exact .inr (.inr (List.mem_append_right _ List.mem_cons_self))
      · exact .inr (.inl hd)
    · exact .inr (.inr (List.mem_append_left _ hd))

/-! ## Runs -/

def Schedule.handed {α : Type} (t : Schedule α) : List α := t.fired.map Firing.hndl

structure Ticking.Agrees (p : Ticking) : Prop where
  sock : ∃ is, socket.run boundSock is = .ok p.sock
  timers : ∃ ops, schedule.run ⟨[], false, []⟩ ops = .ok p.timers
  timely : Timely p.sock p.starts p.timers.hndls p.timers.handed

variable {p : Ticking} {t t' : Schedule Nat} {now : Nat} {timeout : Int}

theorem add_hndls (h : t.step (.add now timeout c) = .ok t') :
    (∀ d, d ∈ t'.hndls ↔ d = c ∨ d ∈ t.hndls) ∧ t'.handed = t.handed := by
  rw [Schedule.step] at h
  split at h
  · cases h
  · cases h
    refine ⟨fun d => ?_, rfl⟩
    show d ∈ (insertDue c (dueAt now timeout) t.waiting).map Prod.fst ↔ _
    rw [(insertDue_perm.map Prod.fst).mem_iff, List.map_cons, List.mem_cons]
    rfl

theorem rm_hndls (h : t.step (.rm c) = .ok t') :
    (∀ d, d ∈ t'.hndls ↔ d ∈ t.hndls ∧ d ≠ c) ∧ t'.handed = t.handed := by
  cases h
  refine ⟨fun d => ?_, rfl⟩
  simp only [Schedule.hndls, List.mem_map, List.mem_filter, decide_eq_true_eq]
  constructor
  · rintro ⟨x, ⟨hx, hne⟩, rfl⟩
    exact ⟨⟨x, hx, rfl⟩, hne⟩
  · rintro ⟨⟨x, hx, rfl⟩, hne⟩
    exact ⟨x, ⟨hx, hne⟩, rfl⟩

/-- The worker asks for a timeout, and there is none or it is the first that waits. -/
theorem event_hndls (t : Schedule Nat) (now : Nat) : ∃ t', t.step (.event now) = .ok t' ∧
    (t' = t ∨ ∃ x, t'.fired = t.fired ++ [x] ∧ t.hndls = x.hndl :: t'.hndls) := by
  unfold Schedule.step
  cases hwaiting : t.waiting with
  | nil => exact ⟨t, rfl, .inl rfl⟩
  | cons y waiting =>
    obtain ⟨hndl, due⟩ := y
    by_cases hdue : due > now
    · exact ⟨t, if_pos hdue, .inl rfl⟩
    · refine ⟨_, if_neg hdue, .inr ⟨⟨hndl, due, now⟩, rfl, ?_⟩⟩
      rw [Schedule.hndls, hwaiting]
      rfl

theorem stops_some {a : Action} (h : s.stops a = some c) :
    s.comes a = some (c, .timerStop) ∧ s.posted (c, .timerStop) = true := by
  unfold Sock.stops at h
  split at h
  · next d hcomes =>
    split at h
    · next hposted =>
      cases h
      exact ⟨hcomes, hposted⟩
    · cases h
  · cases h

theorem stops_of_comes {a : Action} (h : s.comes a = some (c, .timerStop))
    (hposted : s.posted (c, .timerStop) = true) : s.stops a = some c := by
  unfold Sock.stops
  rw [h]
  exact if_pos hposted

theorem Ticking.Agrees.sock_step (h : p.Agrees) {a : Action}
    (hstart : ∀ c, p.sock.comes a = some (c, .timerStop) → c ∉ p.starts) :
    (∃ p', p.sockStep a io = .ok p' ∧ p'.Agrees) ∨
      p.sockStep a io = .error (.inl .sipcMsgNormal) := by
  obtain ⟨is, his⟩ := h.sock
  obtain ⟨ops, hops⟩ := h.timers
  cases hstep : stepSock p.sock (a, io) with
  | error e =>
    rcases stepSock_good (run_good his) (a, io) with ⟨t, ht, -⟩ | ⟨hfail, -⟩
    · cases ht.symm.trans hstep
    · cases hfail.symm.trans hstep
      refine .inr ?_
      unfold Ticking.sockStep
      rw [hstep]
      rfl
  | ok s' =>
    have hturn := stepSock_posted hstep
    have hsock : socket.run boundSock (is ++ [(a, io)]) = .ok s' :=
      Checked.run_trans his (Checked.run_cons_ok hstep)
    cases hstops : p.sock.stops a with
    | none =>
      refine .inl ⟨⟨s', p.starts ++ p.sock.starts s', p.timers⟩, ?_, ⟨_, hsock⟩, ⟨ops, hops⟩, ?_⟩
      · unfold Ticking.sockStep
        rw [hstep, hstops]
        rfl
      · refine h.timely.turn hturn (fun _ hc => hc) (fun _ hc _ => hc) fun c hcomes hposted => ?_
        cases hstops.symm.trans (stops_of_comes hcomes hposted)
    | some c =>
      obtain ⟨hcomes, hposted⟩ := stops_some hstops
      obtain ⟨t', ht'⟩ : ∃ t', p.timers.step (.rm c) = .ok t' := ⟨_, rfl⟩
      have hrun : schedule.run p.timers [.rm c] = .ok t' := Checked.run_cons_ok ht'
      obtain ⟨hmem, htold⟩ := rm_hndls ht'
      refine .inl ⟨⟨s', p.starts ++ p.sock.starts s', t'⟩, ?_, ⟨_, hsock⟩,
        ⟨_, Checked.run_trans hops hrun⟩, ?_⟩
      · unfold Ticking.sockStep
        rw [hstep, hstops, Option.toList_some, List.map_singleton, hrun]
        rfl
      · show Timely s' (p.starts ++ p.sock.starts s') t'.hndls t'.handed
        rw [htold]
        refine h.timely.turn hturn (fun d hd => ((hmem d).mp hd).1) (fun d hd hne => ?_) ?_
        · refine (hmem d).mpr ⟨hd, fun heq => hne ?_⟩
          rw [heq, hturn.idle c hcomes, hposted]
          rfl
        · intro d hd _
          obtain rfl : c = d := by
            cases hcomes.symm.trans hd
            rfl
          exact ⟨hstart c hcomes, fun hin => ((hmem c).mp hin).2 rfl⟩

theorem Ticking.Agrees.start (h : p.Agrees) (hc : c ∈ p.starts) (now : Nat) :
    ∃ t', p.timers.step (.add now 1000 c) = .ok t' ∧
      Ticking.Agrees { p with starts := p.starts.erase c, timers := t' } := by
  obtain ⟨ops, hops⟩ := h.timers
  obtain ⟨t', ht'⟩ : ∃ t', p.timers.step (.add now 1000 c) = .ok t' :=
    ⟨_, if_neg (h.timely.started c hc).2⟩
  obtain ⟨hmem, hhanded⟩ := add_hndls ht'
  have hrun : schedule.run ⟨[], false, []⟩ (ops ++ [.add now 1000 c]) = .ok t' :=
    Checked.run_trans hops (Checked.run_cons_ok ht')
  refine ⟨t', ht', h.sock, ⟨_, hrun⟩, ?_⟩
  show Timely p.sock (p.starts.erase c) t'.hndls t'.handed
  rw [hhanded]
  exact h.timely.add hc hmem

theorem Ticking.Agrees.step (h : p.Agrees) (i : TickingInput) :
    (∃ p', p.step i = .ok p' ∧ p'.Agrees) ∨ p.step i = .error (.inl .sipcMsgNormal) := by
  cases i with
  | start c now =>
    simp only [Ticking.step]
    split
    · exact .inl ⟨p, rfl, h⟩
    next hturn =>
      have hc : c ∈ p.starts := not_not.mp (not_or.mp hturn).2
      cases htimer : p.sock.timer c with
      | active =>
        obtain ⟨t', ht', hagrees⟩ := h.start hc now
        simp only [ht', Except.mapError, ok_bind, pure_eq_ok]
        exact .inl ⟨_, rfl, hagrees⟩
      | stopping => exact .inl ⟨_, rfl, h.sock, h.timers, h.timely.skip htimer⟩
      | idle => exact absurd htimer (h.timely.started c hc).1
  | event now =>
    simp only [Ticking.step]
    split
    · exact .inl ⟨p, rfl, h⟩
    obtain ⟨ops, hops⟩ := h.timers
    obtain ⟨t', ht', hevent⟩ := event_hndls p.timers now
    have hrun : schedule.run ⟨[], false, []⟩ (ops ++ [.event now]) = .ok t' :=
      Checked.run_trans hops (Checked.run_cons_ok ht')
    simp only [ht', Except.mapError, ok_bind]
    rcases hevent with rfl | ⟨x, hfired, hhndls⟩
    · rw [List.drop_length]
      exact .inl ⟨_, rfl, h.sock, ⟨_, hrun⟩, h.timely⟩
    · rw [hfired, List.drop_left]
      refine Ticking.Agrees.sock_step (p := { p with timers := t' }) ⟨h.sock, ⟨_, hrun⟩, ?_⟩ ?_
      · show Timely p.sock p.starts t'.hndls (t'.fired.map Firing.hndl)
        rw [hfired, List.map_append]
        exact (hhndls ▸ h.timely).tell
      · intro c hcomes
        unfold Sock.comes at hcomes
        split at hcomes <;> cases hcomes
  | sock a io =>
    simp only [Ticking.step]
    split
    · exact .inl ⟨p, rfl, h⟩
    next haside =>
      refine h.sock_step fun c hcomes hc => haside ?_
      unfold Sock.comes at hcomes
      split at hcomes
      · cases a <;> cases hcomes
        exact decide_eq_true hc
      · cases hcomes

theorem boundTicking_agrees : boundTicking.Agrees := by
  refine ⟨⟨[], rfl⟩, ⟨[], rfl⟩, List.nodup_nil, nofun, nofun, fun c hactive => ?_⟩
  cases hactive

/-- A peer that says nothing for a second. -/
example : ((ticking.run boundTicking [.sock .accept calm, .sock .event ⟨.again, .again⟩,
    .start 0 5, .event 1004, .event 1005]).toOption.map fun p => (p.timers.fired, p.sock.queue)) =
      some ([⟨0, 1005, 1005⟩], [(0, .timer .timeout)]) := rfl

/-- **The timers of the connections.** Whatever the socket and its worker do, no assertion of
`timer.c` and `timerset.c` fails, a timer that is idle has no `start_task` and no timeout, and
one that is active has one of them or its timeout was handed out. -/
theorem ticking_right (is : List TickingInput) :
    (∃ p, ticking.run boundTicking is = .ok p ∧ (∃ js, socket.run boundSock js = .ok p.sock) ∧
      ∃ ops w, (timerset ops.length).run noTimers ops = .ok w ∧ Times w p.timers ∧
        ∀ c, (p.sock.timer c = .idle → c ∉ p.starts ∧ nnTimersetHndlIsactive w.set c = false) ∧
          (p.sock.timer c = .active → c ∈ p.starts ∨ nnTimersetHndlIsactive w.set c = true ∨
            ∃ x ∈ w.fired, x.hndl = c)) ∨
    ticking.run boundTicking is = .error (.inl .sipcMsgNormal) := by
  rcases Checked.run_keeps (M := ticking) (fun p i h => h.step i) boundTicking_agrees is with
    ⟨p, hrun, hsock, ⟨ops, hops⟩, htimely⟩ | hfail
  · have hright := timers_right ops
    rw [hops] at hright
    cases hw : (timerset ops.length).run noTimers ops with
    | error e =>
      rw [hw] at hright
      exact hright.elim
    | ok w =>
      rw [hw] at hright
      have htimes : Times w p.timers := hright
      refine .inl ⟨p, hrun, hsock, ops, w, hw, htimes, fun c => ⟨fun hidle => ⟨fun hc => ?_, ?_⟩,
        fun hactive => ?_⟩⟩
      · exact (htimely.started c hc).1 hidle
      · refine eq_false_of_ne_true fun hwaits => ?_
        exact htimely.waits c ((isactive_iff htimes).mp hwaits) hidle
      · rcases htimely.active c hactive with hc | hc | hc
        · exact .inl hc
        · exact .inr (.inl ((isactive_iff htimes).mpr hc))
        · exact .inr (.inr (htimes.fired ▸ List.mem_map.mp hc))
  · exact .inr hfail

end Nanomsg
