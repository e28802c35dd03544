import Getd.Lib.Checked
import Getd.Nanomsg.Buffers

/-!
# The line of a connection

What the owner of a `nn_usock` knows of it. `Line o h t m es u` says that the owner
`o` has been handed `h` and has sent `t`, that the line is in mode `m`, and that the
events `es` on it are still in the queue. The owner asks for something
(`nnUsockRecv_line`, `nnUsockSend_line`, `nnUsockStop_line`) and later takes an event
(`Line.received`, `Line.sent`, ...). In between the worker does what it likes:
`fdIn_line` and the lemmas behind it say that the mode stays and at most one event is
raised.
-/

namespace Nanomsg

open CLib

variable {io : Io} {u : Usock} {h t : List UInt8} {n c : Nat} {o o' : Owner} {x : Excl}
  {att : List Nat} {es : List Event} {conn : Conn} {want : Option Nat} {sending : Bool}

/-! ## The queue -/

/-- The world of the connection `c` when all events in the queue are its own. -/
def here (x : Excl) (att : List Nat) (c : Nat) (es : List Event) (conn : Conn) : World :=
  ⟨x, att, es.map (Prod.mk c), c, conn⟩

@[simp] theorem here_excl : (here x att c es conn).excl = x := rfl

@[simp] theorem here_self : (here x att c es conn).self = c := rfl

@[simp] theorem here_conn : (here x att c es conn).conn = conn := rfl

@[simp] theorem here_usock : (here x att c es conn).usock = conn.usock := rfl

@[simp] theorem here_setUsock (u : Usock) : (here x att c es conn).setUsock u =
    here x att c es { conn with usock := u } := rfl

@[simp] theorem here_setTimer (t : Timer) : (here x att c es conn).setTimer t =
    here x att c es { conn with timer := t } := rfl

@[simp] theorem here_setStreamhdr (s : StreamhdrState) : (here x att c es conn).setStreamhdr s =
    here x att c es { conn with streamhdr := s } := rfl

@[simp] theorem here_setSipc (s : Sipc) : (here x att c es conn).setSipc s =
    here x att c es { conn with sipc := s } := rfl

@[simp] theorem here_setPipebase (p : Pipebase) : (here x att c es conn).setPipebase p =
    here x att c es { conn with pipebase := p } := rfl

@[simp] theorem here_setAipc (s : AipcState) : (here x att c es conn).setAipc s =
    here x att c es { conn with aipc := s } := rfl

theorem here_quiet {f : UsockEvent → Event} :
    here x att c es conn = here x att c (es ++ ([] : List UsockEvent).map f) conn := by
  rw [List.map_nil, List.append_nil]

theorem raise_here {e : Event} (he : e.item ∉ es.map Event.item) :
    (here x att c es conn).raise e = .ok (here x att c (es ++ [e]) conn) := by
  have hmem : (c, e.item) ∉ (es.map (Prod.mk c)).map fun p => (p.1, p.2.item) := by
    rw [List.map_map, List.mem_map]
    rintro ⟨e', he', heq⟩
    exact he (List.mem_map.mpr ⟨e', he', congrArg Prod.snd heq⟩)
  exact (if_neg hmem).trans (by rw [here, here, List.map_append]; rfl)

theorem raise_usock {e : UsockEvent} (ho : u.owner = o)
    (he : (Event.usock o e).item ∉ es.map Event.item) :
    ((here x att c es conn).setUsock u).raise (.usock u.owner e) =
      .ok (here x att c (es ++ [.usock o e]) { conn with usock := u }) := by
  rw [ho]
  exact raise_here he

/-! ## Modes -/

/-- What the owner has asked for and not yet got, or how the line ends. -/
inductive Mode
  | live (want : Option Nat) (sending : Bool)
  | leaving | closed | stopping | idle

structure Live (o : Owner) (h t : List UInt8) (want : Option Nat) (sending : Bool) (u : Usock) :
    Prop where
  owner : u.owner = o
  state : u.state = .active
  taskStop : u.taskStop = false
  receives : Receives h want u
  sends : Sends t sending u

/-- A socket in the state `s` that serves its owner no more. -/
structure Ended (o : Owner) (h t : List UInt8) (s : UsockState) (taskStop : Bool) (u : Usock) :
    Prop where
  owner : u.owner = o
  state : u.state = s
  task : u.taskStop = taskStop
  gone : Gone h t u

/-- How the socket stands in a mode that ends, with the events on it that wait. -/
inductive Ends : Mode → List UsockEvent → UsockState → Bool → Prop
  | error {want : Option Nat} {sending : Bool} : Ends (.live want sending) [.error] .done false
  /-- The peer was found to be gone while the owner asked for something. -/
  | shutdown {want : Option Nat} {sending : Bool} : want ≠ none ∨ sending = true →
    Ends (.live want sending) [.shutdown] .removingFd true
  | leaving : Ends .leaving [] .removingFd true
  | left : Ends .leaving [.error] .done false
  | closed : Ends .closed [] .done false
  | stop : Ends .stopping [.shutdown] .stopping true
  | stopping : Ends .stopping [] .stopping true
  | stopped : Ends .stopping [.stopped] .idle false
  | idle : Ends .idle [] .idle false

inductive Line (o : Owner) (h t : List UInt8) : Mode → List UsockEvent → Usock → Prop
  | live {want : Option Nat} {sending : Bool} {u : Usock} :
    Live o h t want sending u → Line o h t (.live want sending) [] u
  /-- What was waited for is in `buf`. -/
  | received {n : Nat} {sending : Bool} {u : Usock} :
    Live o (h ++ u.buf) t none sending u → u.buf.length = n →
    Line o h t (.live (some n) sending) [.received] u
  | sent {want : Option Nat} {u : Usock} :
    Live o h t want false u → Line o h t (.live want true) [.sent] u
  | ended {m : Mode} {es : List UsockEvent} {s : UsockState} {task : Bool} {u : Usock} :
    Ends m es s task → Ended o h t s task u → Line o h t m es u

variable {m : Mode} {ues : List UsockEvent}

theorem Ends.state {s : UsockState} {task : Bool} (he : Ends m ues s task) : s ≠ .active := by
  cases he <;> nofun

theorem Live.gone (hl : Live o h t want sending u) : Gone h t u := ⟨hl.receives.rx, hl.sends.tx⟩

/-- What has been handed over came from the kernel, and what was sent went to it. -/
theorem Line.gone (hl : Line o h t m ues u) : Gone h t u := by
  cases hl with
  | live hl => exact hl.gone
  | received hl => exact ⟨(List.prefix_append _ _).trans hl.gone.rx, hl.gone.tx⟩
  | sent hl => exact hl.gone
  | ended _ he => exact he.gone

theorem Line.give (hl : Line o h t m [] u) (o' : Owner) :
    Line o' h t m [] { u with owner := o' } := by
  cases hl with
  | live hl =>
    exact .live ⟨rfl, hl.state, hl.taskStop, hl.receives.congr rfl rfl rfl rfl rfl rfl,
      hl.sends.congr rfl rfl rfl rfl⟩
  | ended he hu => exact .ended he ⟨rfl, hu.state, hu.task, ⟨hu.gone.rx, hu.gone.tx⟩⟩

/-! ## The worker -/

/-- The line is still in its mode, and what was raised is on it. -/
def Keeps (o : Owner) (h t : List UInt8) (m : Mode) (x : Excl) (att : List Nat) (c : Nat)
    (conn : Conn) (r : Except Assert World) : Prop :=
  ∃ ues u, r = .ok (here x att c (ues.map (.usock o)) { conn with usock := u }) ∧
    Line o h t m ues u

theorem Line.keeps (hl : Line o h t m [] conn.usock) :
    Keeps o h t m x att c conn (.ok (here x att c [] conn)) := ⟨[], conn.usock, rfl, hl⟩

theorem usockError_keeps (ho : u.owner = o) (htask : u.taskStop = false) (hg : Gone h t u)
    (hm : Ends m [.error] .done false) : Keeps o h t m x att c conn
      (usockError ((here x att c [] conn).setUsock u)) := by
  exact ⟨[.error], { u with state := .done }, raise_usock ho List.not_mem_nil,
    .ended hm ⟨ho, rfl, htask, ⟨hg.rx, hg.tx⟩⟩⟩

theorem usockFdErr_ended {w : World} (hs : w.usock.state ≠ .active) : usockFdErr w = .ok w := by
  unfold usockFdErr
  cases hstate : w.usock.state <;> first
    | exact absurd hstate hs
    | rfl

theorem usockFdIn_ended {w : World} (hs : w.usock.state ≠ .active) : usockFdIn io w = .ok w := by
  unfold usockFdIn
  split
  · rfl
  · cases hstate : w.usock.state <;> first
      | exact absurd hstate hs
      | rfl

theorem usockFdOut_ended {w : World} (hs : w.usock.state ≠ .active) : usockFdOut io w = .ok w := by
  unfold usockFdOut
  split
  · rfl
  · cases hstate : w.usock.state <;> first
      | exact absurd hstate hs
      | rfl

theorem fdErr_keeps (hl : Line o h t m [] conn.usock) :
    Keeps o h t m x att c conn (usockFdErr (here x att c [] conn)) := by
  cases hl with
  | live hl =>
    simp only [usockFdErr, here_usock, hl.state]
    exact usockError_keeps hl.owner hl.taskStop hl.gone .error
  | ended he hu =>
    rw [usockFdErr_ended (w := here x att c [] conn) (hu.state.trans_ne he.state)]
    exact (Line.ended he hu).keeps

/-- The worker reads what has come, or finds the peer gone. -/
theorem fdIn_keeps (hl : Line o h t m [] conn.usock) :
    Keeps o h t m x att c conn (usockFdIn io (here x att c [] conn)) := by
  cases hl with
  | ended he hu =>
    rw [usockFdIn_ended (w := here x att c [] conn) (hu.state.trans_ne he.state)]
    exact (Line.ended he hu).keeps
  | @live want sending _ hl =>
    have hkeep : Keeps o h t (.live want sending) x att c conn (.ok (here x att c [] conn)) :=
      (Line.live hl).keeps
    cases want with
    | none =>
      have hpoll : conn.usock.pollIn = false := Handed.pollIn hl.receives
      simp only [usockFdIn, here_usock, hpoll, if_true]
      exact hkeep
    | some n =>
      have hr : Waiting h n conn.usock := hl.receives
      cases hpoll : conn.usock.pollIn with
      | false =>
        simp only [usockFdIn, here_usock, hpoll, if_true]
        exact hkeep
      | true =>
        have htask : conn.usock.taskRecv = false := by rw [hr.polls, hpoll]; rfl
        obtain ⟨batch, new, r, heq, hgot⟩ := nnUsockRecvRaw_spec io conn.usock conn.usock.len
        have hrx : h <+: conn.usock.rx ++ new := hl.gone.rx.trans (List.prefix_append _ _)
        simp only [usockFdIn, here_usock, hpoll, hl.state, heq, reduceCtorEq, if_false]
        rcases hgot with rfl | ⟨got, rfl, hsplit, hle, hend⟩
        · exact usockError_keeps hl.owner hl.taskStop ⟨hrx, hl.gone.tx⟩ .error
        rw [hr.batch, List.nil_append] at hsplit
        dsimp only
        by_cases hall : conn.usock.len - got.length = 0
        · -- the last of the `n` bytes
          rw [if_pos hall]
          refine ⟨[.received], _, raise_usock hl.owner List.not_mem_nil, .received ⟨hl.owner, rfl, hl.taskStop,
            ⟨?_, htask, rfl⟩, hl.sends.congr rfl rfl rfl rfl⟩ ?_⟩
          · rw [hr.rx, ← hsplit, List.append_assoc, List.append_assoc, List.append_assoc]
          · have := hr.length
            rw [List.length_append]
            omega
        · rw [if_neg hall]
          have hnil : batch = [] := hend.resolve_left (by omega)
          refine ⟨[], _, rfl, .live ⟨hl.owner, rfl, hl.taskStop,
            ⟨?_, hnil, ?_, Nat.pos_of_ne_zero hall, htask⟩, hl.sends.congr rfl rfl rfl rfl⟩⟩
          · rw [hr.rx, ← hsplit, hnil, List.append_nil, List.append_assoc]
          · have := hr.length
            show (conn.usock.buf ++ got).length + (conn.usock.len - got.length) = n
            rw [List.length_append]
            omega

/-- The worker sends more, or finds the peer gone. -/
theorem fdOut_keeps (hl : Line o h t m [] conn.usock) :
    Keeps o h t m x att c conn (usockFdOut io (here x att c [] conn)) := by
  cases hl with
  | ended he hu =>
    rw [usockFdOut_ended (w := here x att c [] conn) (hu.state.trans_ne he.state)]
    exact (Line.ended he hu).keeps
  | @live want sending _ hl =>
    have hkeep : Keeps o h t (.live want sending) x att c conn (.ok (here x att c [] conn)) :=
      (Line.live hl).keeps
    cases sending with
    | false =>
      have hpoll : conn.usock.pollOut = false := Still.pollOut hl.sends
      simp only [usockFdOut, here_usock, hpoll, if_true]
      exact hkeep
    | true =>
      have hs : Sending t conn.usock := hl.sends
      cases hpoll : conn.usock.pollOut with
      | false =>
        simp only [usockFdOut, here_usock, hpoll, if_true]
        exact hkeep
      | true =>
        have htask : conn.usock.taskSend = false := by rw [hs.polls, hpoll]; rfl
        obtain ⟨iov, sent, rc, heq, hsplit, hne, hrc⟩ := nnUsockSendRaw_spec io conn.usock hs.chunks
        have htx : (conn.usock.tx ++ sent) ++ iov.flatten = t := by
          rw [List.append_assoc, hsplit, hs.tx]
        simp only [usockFdOut, here_usock, hpoll, hl.state, heq, reduceCtorEq, if_false, ok_bind]
        rcases hrc with rfl | rfl
        · exact usockError_keeps hl.owner hl.taskStop ⟨hl.gone.rx, ⟨_, htx⟩⟩ .error
        by_cases hall : iov = []
        · -- the last of the iovecs
          simp only [hall, decide_true]
          refine ⟨[.sent], _, raise_usock hl.owner List.not_mem_nil, .sent ⟨hl.owner, rfl, hl.taskStop,
            hl.receives.congr rfl rfl rfl rfl rfl rfl, ⟨?_, htask, rfl⟩⟩⟩
          rw [← htx, hall, List.flatten_nil, List.append_nil]
        · simp only [hall, decide_false]
          exact ⟨[], _, rfl, .live ⟨hl.owner, rfl, hl.taskStop,
            hl.receives.congr rfl rfl rfl rfl rfl rfl, ⟨htx, hall, hne, htask⟩⟩⟩

theorem taskSend_keeps (hl : Line o h t m [] conn.usock) :
    Keeps o h t m x att c conn (.ok (usockTaskSend (here x att c [] conn))) := by
  unfold usockTaskSend
  by_cases htask : conn.usock.taskSend = true
  · simp only [here_usock, htask, if_true]
    refine ⟨[], _, rfl, ?_⟩
    cases hl with
    | ended he hu => exact .ended he ⟨hu.owner, hu.state, hu.task, ⟨hu.gone.rx, hu.gone.tx⟩⟩
    | @live want sending _ hl =>
      have hs := hl.sends
      refine .live ⟨hl.owner, hl.state, hl.taskStop, hl.receives.congr rfl rfl rfl rfl rfl rfl, ?_⟩
      cases sending with
      | false => rw [Still.taskSend hs] at htask; cases htask
      | true =>
        have hs : Sending t conn.usock := hs
        exact ⟨hs.tx, hs.iov, hs.chunks, rfl⟩
  · simp only [here_usock, htask]
    exact hl.keeps

theorem taskRecv_keeps (hl : Line o h t m [] conn.usock) :
    Keeps o h t m x att c conn (.ok (usockTaskRecv (here x att c [] conn))) := by
  unfold usockTaskRecv
  by_cases htask : conn.usock.taskRecv = true
  · simp only [here_usock, htask, if_true]
    refine ⟨[], _, rfl, ?_⟩
    cases hl with
    | ended he hu => exact .ended he ⟨hu.owner, hu.state, hu.task, ⟨hu.gone.rx, hu.gone.tx⟩⟩
    | @live want sending _ hl =>
      have hr := hl.receives
      refine .live ⟨hl.owner, hl.state, hl.taskStop, ?_, hl.sends.congr rfl rfl rfl rfl⟩
      cases want with
      | none => rw [Handed.taskRecv hr] at htask; cases htask
      | some n =>
        have hr : Waiting h n conn.usock := hr
        exact ⟨hr.rx, hr.batch, hr.length, hr.pos, rfl⟩
  · simp only [here_usock, htask]
    exact hl.keeps

theorem taskStop_keeps (hl : Line o h t m [] conn.usock) :
    Keeps o h t m x att c conn (usockTaskStop (here x att c [] conn)) := by
  unfold usockTaskStop
  cases hl with
  | live hl =>
    simp only [here_usock, hl.taskStop, if_true]
    exact (Line.live hl).keeps
  | ended he hu =>
    have hkeep : Keeps o h t m x att c conn (.ok (here x att c [] conn)) := (Line.ended he hu).keeps
    cases he with
    | leaving =>
      simp only [here_usock, hu.task, hu.state, reduceCtorEq, if_false]
      exact usockError_keeps hu.owner rfl ⟨hu.gone.rx, hu.gone.tx⟩ .left
    | stopping =>
      simp only [here_usock, hu.task, hu.state, reduceCtorEq, if_false]
      exact ⟨[.stopped], _, raise_usock hu.owner List.not_mem_nil,
        .ended .stopped ⟨hu.owner, rfl, rfl, ⟨hu.gone.rx, hu.gone.tx⟩⟩⟩
    | closed | idle =>
      simp only [here_usock, hu.task, if_true]
      exact hkeep

/-! ## What the owner asks for -/

theorem nnUsockAsyncStop_here (ho : conn.usock.owner = o) (htask : conn.usock.taskStop = false)
    (hes : Item.usockError ∉ es.map Event.item) : nnUsockAsyncStop (here x att c es conn) =
      .ok (here x att c (es ++ [.usock o .shutdown])
        { conn with usock := { conn.usock with taskStop := true } }) := by
  unfold nnUsockAsyncStop
  rw [if_neg (show ¬ (here x att c es conn).usock.taskStop = true from ne_true_of_eq_false htask)]
  exact raise_usock ho hes

theorem nnUsockActionError_line (hm : want ≠ none ∨ sending = true) (ho : u.owner = o)
    (hstate : u.state = .active) (htask : u.taskStop = false) (hg : Gone h t u)
    (hes : Item.usockError ∉ es.map Event.item) :
    ∃ u', nnUsockActionError ((here x att c es conn).setUsock u) =
      .ok (here x att c (es ++ [.usock o .shutdown]) { conn with usock := u' }) ∧
      Line o h t (.live want sending) [.shutdown] u' := by
  refine ⟨{ u with state := .removingFd, taskStop := true }, ?_,
    .ended (.shutdown hm) ⟨ho, rfl, rfl, ⟨hg.rx, hg.tx⟩⟩⟩
  simp only [nnUsockActionError, here_setUsock, here_usock, hstate]
  exact nnUsockAsyncStop_here ho htask hes

variable (io c x att es conn) in
/-- A receive, for which enough may be in the batch buffer. -/
theorem nnUsockRecv_line (hl : Line o h t (.live none sending) [] conn.usock) (n : Nat)
    (hes : ∀ e ∈ es, e.item ≠ .usockReceived ∧ e.item ≠ .usockError) : ∃ ues u,
    nnUsockRecv io (here x att c es conn) n =
      .ok (here x att c (es ++ ues.map (.usock o)) { conn with usock := u }) ∧
      Line o h t (.live (some n) sending) ues u := by
  have hfree : ∀ i, i = .usockReceived ∨ i = .usockError → i ∉ es.map Event.item := by
    rintro i hi hmem
    obtain ⟨e, he, rfl⟩ := List.mem_map.mp hmem
    exact hi.elim (hes e he).1 (hes e he).2
  cases hl with
  | ended he _ => cases he
  | live hl =>
    have hr : Handed h conn.usock := hl.receives
    obtain ⟨batch, new, r, heq, hgot⟩ := nnUsockRecvRaw_spec io conn.usock n
    have hrx : h <+: conn.usock.rx ++ new := hl.gone.rx.trans (List.prefix_append _ _)
    simp only [nnUsockRecv, here_usock, hl.state, heq, ne_eq, not_true_eq_false, if_false]
    rcases hgot with rfl | ⟨got, rfl, hsplit, hle, hend⟩
    · exact ⟨[.shutdown], nnUsockActionError_line (.inl nofun) hl.owner rfl hl.taskStop
        ⟨hrx, hl.gone.tx⟩ (hfree _ (.inr rfl))⟩
    dsimp only
    by_cases hall : got.length = n
    · rw [if_pos hall]
      refine ⟨[.received], _, raise_usock hl.owner (hfree _ (.inl rfl)), .received ⟨hl.owner, rfl,
        hl.taskStop, ⟨?_, hr.taskRecv, hr.pollIn⟩, hl.sends.congr rfl rfl rfl rfl⟩ hall⟩
      rw [hr.rx, List.append_assoc, ← hsplit, List.append_assoc]
    · have hnil : batch = [] := hend.resolve_left hall
      simp only [if_neg hall, hr.taskRecv, reduceCtorEq, if_false]
      refine ⟨[], _, congrArg Except.ok here_quiet,
        .live ⟨hl.owner, rfl, hl.taskStop, ⟨?_, hnil, ?_, ?_, ?_⟩, hl.sends.congr rfl rfl rfl rfl⟩⟩
      · rw [hr.rx, List.append_assoc, ← hsplit, hnil, List.append_nil]
      · exact Nat.add_sub_of_le hle
      · exact Nat.sub_pos_of_lt (by omega)
      · rw [hr.pollIn]
        rfl

variable (io c x att es conn) in
/-- A send, of which the kernel may take all at once. -/
theorem nnUsockSend_line (hl : Line o h t (.live want false) [] conn.usock) (iov : List (List UInt8))
    (hes : ∀ e ∈ es, e.item ≠ .usockSent ∧ e.item ≠ .usockError) : ∃ ues u,
    nnUsockSend io (here x att c es conn) iov =
      .ok (here x att c (es ++ ues.map (.usock o)) { conn with usock := u }) ∧
      Line o h (t ++ iov.flatten) (.live want true) ues u := by
  have hfree : ∀ i, i = .usockSent ∨ i = .usockError → i ∉ es.map Event.item := by
    rintro i hi hmem
    obtain ⟨e, he, rfl⟩ := List.mem_map.mp hmem
    exact hi.elim (hes e he).1 (hes e he).2
  cases hl with
  | ended he _ => cases he
  | live hl =>
    have hs : Still t conn.usock := hl.sends
    obtain ⟨iov', sent, rc, heq, hsplit, hne, hrc⟩ := nnUsockSendRaw_spec io
      { conn.usock with iov := iov.filter (· ≠ []) } fun b hb => by
        simpa using (List.mem_filter.mp hb).2
    have htx : (conn.usock.tx ++ sent) ++ iov'.flatten = t ++ iov.flatten := by
      rw [List.append_assoc, hsplit, hs.tx, List.flatten_filter_ne_nil]
    have hgone : Gone h (t ++ iov.flatten) conn.usock :=
      ⟨hl.gone.rx, hl.gone.tx.trans (List.prefix_append _ _)⟩
    unfold nnUsockSend
    rw [if_neg (show ¬ (here x att c es conn).usock.state ≠ .active from not_not.mpr hl.state),
      here_usock, heq, ok_bind]
    rcases hrc with rfl | rfl
    · exact ⟨[.shutdown], nnUsockActionError_line (.inr rfl) hl.owner hl.state hl.taskStop
        ⟨hgone.rx, ⟨_, htx⟩⟩ (hfree _ (.inr rfl))⟩
    by_cases hall : iov' = []
    · simp only [hall, decide_true]
      refine ⟨[.sent], _, raise_usock hl.owner (hfree _ (.inl rfl)), .sent ⟨hl.owner, hl.state,
        hl.taskStop, hl.receives.congr rfl rfl rfl rfl rfl rfl, ⟨?_, hs.taskSend, hs.pollOut⟩⟩⟩
      rw [← htx, hall, List.flatten_nil, List.append_nil]
    · simp only [hall, decide_false, hs.taskSend, reduceCtorEq, if_false]
      refine ⟨[], _, congrArg Except.ok here_quiet, .live ⟨hl.owner, hl.state, hl.taskStop,
        hl.receives.congr rfl rfl rfl rfl rfl rfl, ⟨htx, hall, hne, ?_⟩⟩⟩
      rw [hs.pollOut]
      rfl

variable (c x att conn) in
/-- The socket is closed, whatever it was at. -/
theorem nnUsockStop_line (hl : Line o h t m [] conn.usock) (hm : m ≠ .stopping) (hm' : m ≠ .idle) :
    ∃ ues u, nnUsockStop (here x att c [] conn) =
      .ok (here x att c (ues.map (.usock o)) { conn with usock := u }) ∧
      Line o h t .stopping ues u := by
  cases hl with
  | live hl =>
    refine ⟨[.shutdown], { conn.usock with state := .stopping, taskStop := true }, ?_,
      .ended .stop ⟨hl.owner, rfl, rfl, ⟨hl.gone.rx, hl.gone.tx⟩⟩⟩
    simp only [nnUsockStop, here_usock, hl.state]
    rw [nnUsockAsyncStop_here hl.owner hl.taskStop List.not_mem_nil]
    rfl
  | ended he hu =>
    cases he with
    | leaving =>
      refine ⟨[], { conn.usock with state := .stopping }, ?_,
        .ended .stopping ⟨hu.owner, rfl, hu.task, ⟨hu.gone.rx, hu.gone.tx⟩⟩⟩
      simp only [nnUsockStop, here_usock, hu.state]
      rfl
    | closed =>
      refine ⟨[.stopped], { conn.usock with state := .idle }, ?_,
        .ended .stopped ⟨hu.owner, rfl, hu.task, ⟨hu.gone.rx, hu.gone.tx⟩⟩⟩
      simp only [nnUsockStop, here_usock, hu.state]
      exact raise_usock hu.owner List.not_mem_nil
    | stopping => exact absurd rfl hm
    | idle => exact absurd rfl hm'

/-- On a closed socket a receive and a send do nothing. -/
theorem nnUsockRecv_closed (hl : Line o h t .closed [] conn.usock) (n : Nat) :
    nnUsockRecv io (here x att c es conn) n = .ok (here x att c es conn) := by
  cases hl with
  | ended he hu =>
    cases he
    simp only [nnUsockRecv, nnUsockActionError, here_usock, hu.state, ne_eq, reduceCtorEq,
      not_false_eq_true, if_true]

theorem nnUsockSend_closed (hl : Line o h t .closed [] conn.usock) (iov : List (List UInt8)) :
    nnUsockSend io (here x att c es conn) iov = .ok (here x att c es conn) := by
  cases hl with
  | ended he hu =>
    cases he
    simp only [nnUsockSend, nnUsockActionError, here_usock, hu.state, ne_eq, reduceCtorEq,
      not_false_eq_true, if_true]

end Nanomsg
