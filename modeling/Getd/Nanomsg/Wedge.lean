import Getd.Nanomsg.Pair

/-!
# The pipe that never comes free

A peer may leave between the headers and the pipe. Then the socket of its connection is
closed while `streamhdr` stops its timer, and `streamhdr` takes no note of it. The
connection is attached all the same, and as its socket is closed already there is nothing
that could take it down: every peer after it is turned away (`wedged_forever`).
-/

namespace Nanomsg

open CLib

variable {io : Io} {s t : Sock} {c d : Nat} {conn : Conn} {es : List Event}
  {is : List (Action × Io)} {att : List Nat} {received sent : List Msg}

/-- The connection `c` is attached with a closed socket. `att`, `received` and `sent` are
what was attached, given out and taken before. -/
structure Wedged (c : Nat) (att : List Nat) (received sent : List Msg) (s : Sock) : Prop where
  pipe : s.excl.pipe = some c
  inpipe : s.excl.inpipe = none
  aside : ∀ p ∈ s.queue, p.1 ≠ c
  conn : ∃ hdr sending u outstate pout taken, Outbound c s.excl.outpipe outstate pout sending ∧
    Line .sipc hdr protohdr .closed [] u ∧
    s.conns[c]? = some (attachedConn u .hdr outstate [] .async pout [] taken)
  attached : s.attached = att
  received : s.received = received
  sent : s.sent = sent ∨ s.excl.outpipe = none ∧ ∃ msg, s.sent = sent ++ [msg]

/-- Whatever the other connections do, they do not get at the pipe. -/
theorem Next.aside {x : Excl} {n : Nat} {r : Except Assert World} (hn : Next d x att conn n r)
    (hpipe : x.pipe = some c) (hd : d ≠ c) :
    (∃ es conn', r = .ok (here x att d es conn')) ∨ r = .error .sipcMsgNormal := by
  have hne : some c ≠ some d := fun h => hd (Option.some.inj h).symm
  cases hn with
  | bad => exact .inr rfl
  | ok hm =>
    cases hm with
    | stay => exact .inl ⟨_, _, rfl⟩
    | signal h | leave h => exact absurd (hpipe.symm.trans h) hne
    | attach h => exact absurd (hpipe.symm.trans h) nofun

theorem Wedged.put (h : Wedged c att received sent s) (hd : d ≠ c) {conn' : Conn} :
    Wedged c att received sent (s.put (here s.excl s.attached d es conn')) := by
  refine ⟨h.pipe, h.inpipe, fun p hp => ?_, ?_, h.attached, h.received, h.sent⟩
  · obtain ⟨e, -, rfl⟩ := List.mem_map.mp hp
    exact hd
  · obtain ⟨hdr, sending, u, outstate, pout, taken, hout, hl, hc⟩ := h.conn
    exact ⟨hdr, sending, u, outstate, pout, taken, hout, hl,
      (getElem?_put_ne (Ne.symm hd)).trans hc⟩

theorem Wedged.event (h : Wedged c att received sent s) (hgood : Good s) (hbusy : s.queue ≠ [])
    (hstep : nnFsmEventProcess io s = .ok t) : Wedged c att received sent t := by
  obtain ⟨d, es, hst⟩ := hgood.stands
  cases es with
  | nil => exact absurd hst.queue hbusy
  | cons e es =>
    have hd : d ≠ c := h.aside (d, e) (hst.queue ▸ List.mem_cons_self)
    obtain ⟨conn, -, hp, heq⟩ := nnFsmEventProcess_eq io hst
    rw [heq] at hstep
    have hnext : Next d s.excl s.attached conn (cost conn (e :: es))
        (process io (here s.excl s.attached d es conn) e) := process_next hgood.seats hp
    rcases hnext.aside h.pipe hd with ⟨es', conn', hr⟩ | hr
    · rw [hr] at hstep
      cases hstep
      exact h.put hd
    · rw [hr] at hstep
      cases hstep

/-- The worker finds nothing to do at a connection whose socket is closed. -/
theorem Worker.dead {f : World → Except Assert World} {u : Usock} {hdr : List UInt8}
    {outstate : SipcOutstate} {pout : PipeOutstate} {taken : List Msg} (hf : Worker f c) (x : Excl)
    (att : List Nat)
    (hl : Line .sipc hdr protohdr .closed [] u) : ∃ u', Line .sipc hdr protohdr .closed [] u' ∧
      f (here x att c [] (attachedConn u .hdr outstate [] .async pout [] taken)) =
        .ok (here x att c [] (attachedConn u' .hdr outstate [] .async pout [] taken)) := by
  rcases hf with hf | rfl | rfl
  · obtain ⟨ues, u', heq, hl'⟩ := hf x att (show Line .sipc hdr protohdr .closed []
      (attachedConn u .hdr outstate [] .async pout [] taken).usock from hl)
    obtain rfl := hl'.closed_quiet
    exact ⟨u', hl', heq⟩
  · exact ⟨u, hl, rfl⟩
  · exact ⟨u, hl, rfl⟩

theorem Wedged.on (h : Wedged c att received sent s) (hgood : Good s) (hq : s.queue = [])
    {f : World → Except Assert World} (hf : Worker f d) (hstep : s.on d f = .ok t) :
    Wedged c att received sent t := by
  by_cases hd : d = c
  · subst hd
    obtain ⟨hdr, sending, u, outstate, pout, taken, hout, hl, hc⟩ := h.conn
    obtain ⟨u', hl', heq⟩ := hf.dead s.excl s.attached hl
    rw [on_eq hq hc, heq] at hstep
    cases hstep
    exact ⟨h.pipe, h.inpipe, nofun, ⟨hdr, sending, u', outstate, pout, taken, hout, hl',
      getElem?_put_self hc⟩, h.attached, h.received, h.sent⟩
  · cases hc : s.conns[d]? with
    | none =>
      simp only [Sock.on, hc] at hstep
      cases hstep
      exact h
    | some conn =>
      rw [on_eq hq hc] at hstep
      rcases (hf.next (hgood.quiet hq hc)).aside h.pipe hd with ⟨es, conn', hr⟩ | hr
      · rw [hr] at hstep
        cases hstep
        exact h.put hd
      · rw [hr] at hstep
        cases hstep

theorem Wedged.send (h : Wedged c att received sent s) (hq : s.queue = []) {msg : Msg} {b : Bool}
    (hstep : sockSend io s msg = .ok (t, b)) : Wedged c att received sent t := by
  obtain ⟨hdr, sending, u, outstate, pout, taken, hout, hl, hc⟩ := h.conn
  generalize ho : s.excl.outpipe = o at hout
  cases hout with
  | sending =>
    simp only [sockSend, ho] at hstep
    cases hstep
    exact h
  | idle =>
    have hworld : s.world c (attachedConn u .hdr .idle [] .async .idle [] taken) =
        here s.excl s.attached c [] (attachedConn u .hdr .idle [] .async .idle [] taken) := by
      rw [Sock.world, here, hq]
      rfl
    simp only [sockSend, ho, hc, hworld, nnPipeSend_eq (nnUsockSend_closed hl _), ok_bind] at hstep
    cases hstep
    refine ⟨h.pipe, h.inpipe, fun _ hp => absurd hp List.not_mem_nil, ⟨hdr, true, u, .sending, .async,
      taken ++ [msg], .sending, hl, getElem?_put_self (w := here s.excl s.attached c [] _) hc⟩,
      h.attached, h.received, ?_⟩
    rcases h.sent with hsent | ⟨hnone, -⟩
    · exact .inr ⟨rfl, msg, congrArg (· ++ [msg]) hsent⟩
    · cases ho.symm.trans hnone

theorem Wedged.work (h : Wedged c att received sent s) (hgood : Good s) (hq : s.queue = [])
    {a : Action} (hstep : Nanomsg.work io s a = .ok t) : Wedged c att received sent t := by
  rcases work_cases io a with rfl | rfl | ⟨first, rfl⟩ | ⟨msg, first, rfl⟩ | ⟨d, f, heq, hf⟩
  · cases hstep
    exact h
  · cases hstep
    obtain ⟨hdr, sending, u, outstate, pout, taken, hout, hl, hc⟩ := h.conn
    have hlt := (List.getElem?_eq_some_iff.mp hc).1
    refine ⟨h.pipe, h.inpipe, fun p hp => ?_, ⟨hdr, sending, u, outstate, pout, taken, hout, hl,
      (List.getElem?_append_left hlt).trans hc⟩, h.attached, h.received, h.sent⟩
    rcases List.mem_append.mp hp with hp | hp
    · exact h.aside p hp
    · rw [List.mem_singleton.mp hp]
      exact Nat.ne_of_gt hlt
  · have hr : nnSockRecv io s first = .ok (s, none) := by
      rw [nnSockRecv_eq hgood.toReady, sockRecv, h.inpipe, ite_self]
    have hsame : Nanomsg.work io s (.recv first) = .ok s := by
      show nnSockRecv io s first >>= _ = _
      rw [hr]
      rfl
    cases hsame.symm.trans hstep
    exact h
  · cases hr : nnSockSend io s msg first with
    | error e =>
      have hfail : Nanomsg.work io s (.send msg first) = .error e := by
        show nnSockSend io s msg first >>= _ = _
        rw [hr]
        rfl
      cases hfail.symm.trans hstep
    | ok r =>
      have hok : Nanomsg.work io s (.send msg first) = .ok r.1 := by
        show nnSockSend io s msg first >>= _ = _
        rw [hr]
        rfl
      cases hok.symm.trans hstep
      rw [nnSockSend_eq hgood.toReady] at hr
      split at hr
      · cases hr
        exact h
      · exact h.send hq hr
  · rw [heq] at hstep
    exact h.on hgood hq hf hstep

theorem Wedged.leave (h : Wedged c att received sent s) :
    Wedged c att received sent (if s.queue = [] then s.signalled else s) := by
  split
  · exact ⟨h.pipe, h.inpipe, h.aside, h.conn, h.attached, h.received, h.sent⟩
  · exact h

/-! ## Runs -/

theorem Wedged.turn {n : Nat} {r : Except Assert Sock} (hturn : Turn s n r)
    (hw : ∀ s', r = .ok s' → Wedged c att received sent s') (hstep : r >>= nnCtxLeave = .ok t) :
    Wedged c att received sent t := by
  rcases hturn with ⟨s', rfl, hready, -⟩ | ⟨rfl, -⟩
  · have hleave : nnCtxLeave s' = .ok t := hstep
    rw [nnCtxLeave_eq hready] at hleave
    cases hleave
    exact (hw s' rfl).leave
  · cases hstep

theorem Wedged.step (h : Wedged c att received sent s) (hgood : Good s) {i : Action × Io}
    (hstep : stepSock s i = .ok t) : Wedged c att received sent t := by
  obtain ⟨a, io⟩ := i
  by_cases hq : s.queue = []
  · rcases stepSock_quiet hq a io with ⟨-, heq⟩ | heq
    · cases heq.symm.trans hstep
      exact h
    · rw [heq] at hstep
      exact .turn (work_turn hgood.toReady hq a) (fun s' hs' => h.work hgood hq hs') hstep
  · rcases stepSock_busy hq a io with ⟨-, heq⟩ | ⟨-, heq⟩
    · cases heq.symm.trans hstep
      exact h
    · rw [heq] at hstep
      exact .turn (nnFsmEventProcess_turn hgood.toReady hq).1 (fun s' hs' => h.event hgood hq hs') hstep

theorem wedged_of_done (hgood : Good s) (hq : s.queue = []) (hpipe : s.excl.pipe = some c)
    (hc : s.conns[c]? = some conn) (hdone : conn.usock.state = .done) :
    Wedged c s.attached s.received s.sent s := by
  have hp := hgood.quiet hq hc
  rw [seat_held hpipe] at hp
  revert hc hdone
  refine hp.held_cases (fun _ _ _ hl => fun hc hdone => ?_)
    fun {hdr sending u outstate pout taken} hin hd hout _ hl => fun hc _ => ?_
  · cases hl with
    | live hl => cases hl.state.symm.trans hdone
    | ended he => cases he
  · exact ⟨hpipe, hin, fun p hp => absurd hp (hq ▸ List.not_mem_nil),
      ⟨hdr, sending, u, outstate, pout, taken, hout, hl, hc⟩, rfl, rfl, .inl rfl⟩

theorem Wedged.run (h : Wedged c att received sent s) (hgood : Good s) {js : List (Action × Io)}
    (hrun : socket.run s js = .ok t) : Wedged c att received sent t :=
  (Checked.run_invariant (I := fun u => Good u ∧ Wedged c att received sent u)
    (fun _ _ _ hu hstep => ⟨hu.1.step hstep, hu.2.step hu.1 hstep⟩) ⟨hgood, h⟩ hrun).2

/-- **The pipe never comes free.** Once a connection is attached whose socket is closed, in
every run from there on no other is attached, no message is received, and of those that
are sent the socket takes at most one, of which the peer gets nothing. -/
theorem wedged_forever (h : socket.run boundSock is = .ok s) (hq : s.queue = [])
    (hpipe : s.excl.pipe = some c) (hc : s.conns[c]? = some conn) (hdone : conn.usock.state = .done)
    {js : List (Action × Io)} (hrun : socket.run s js = .ok t) :
    t.excl.pipe = some c ∧ t.attached = s.attached ∧ t.received = s.received ∧
      (t.sent = s.sent ∨ ∃ msg, t.sent = s.sent ++ [msg]) ∧
      ∃ peer, t.conns[c]? = some peer ∧ peer.usock.tx <+: protohdr := by
  have hgood := run_good h
  have hw := (wedged_of_done hgood hq hpipe hc hdone).run hgood hrun
  obtain ⟨hdr, sending, u, outstate, pout, taken, -, hl, hc⟩ := hw.conn
  refine ⟨hw.pipe, hw.attached, hw.received, ?_, _, hc, hl.gone.tx⟩
  rcases hw.sent with hsent | ⟨-, hsent⟩
  · exact .inl hsent
  · exact .inr hsent

def wedging : List (Action × Io) :=
  [(.accept, calm), (.event, calm), (.event, ⟨.data protohdr, .took 300⟩), (.event, calm),
    (.fdErr 0, calm), (.event, calm), (.timerTask 0, calm)] ++ List.replicate 7 (.event, calm)

def wedged : Sock := (socket.run boundSock wedging).toOption.getD boundSock

def wedgedConn : Conn := (wedged.conns[0]?).getD acceptedConn

theorem wedged_run : socket.run boundSock wedging = .ok wedged := rfl

theorem wedged_conn : wedged.conns[0]? = some wedgedConn := rfl

theorem wedged_forever_greet : ∃ t, socket.run wedged (greet 1 (frame [7])) = .ok t ∧
    t.attached = [0] ∧ t.received = [] :=
  have hrun : socket.run wedged (greet 1 (frame [7])) =
      .ok (((socket.run wedged (greet 1 (frame [7]))).toOption).getD wedged) := rfl
  have hall := wedged_forever wedged_run rfl rfl wedged_conn rfl hrun
  ⟨_, hrun, hall.2.1, hall.2.2.1⟩

theorem error_free {u : Usock} {instate : SipcInstate} {outstate : SipcOutstate} {inmsg : Msg}
    {pin : PipeInstate} {pout : PipeOutstate} {recvd taken : List Msg} (io : Io)
    (hq : s.queue = [(c, .usock .sipc .error)]) (hpipe : s.excl.pipe = some c)
    (hc : s.conns[c]? = some (attachedConn u instate outstate inmsg pin pout recvd taken)) :
    ∃ t, socket.run s [(.event, io)] = .ok t ∧ t.excl.pipe = none := by
  have hproc : nnFsmEventProcess io s = process io (here s.excl s.attached c []
      (attachedConn u instate outstate inmsg pin pout recvd taken)) (.usock .sipc .error) >>=
        fun w => pure (({ s with queue := [] } : Sock).put w) := by
    simp only [nnFsmEventProcess, hq]
    exact on_eq (s := { s with queue := [] }) rfl hc _
  rw [attached_error hpipe, ok_bind] at hproc
  have hstep : stepSock s (.event, io) = nnFsmEventProcess io s >>= nnCtxLeave := by
    simp only [stepSock, hq]
  rw [hproc] at hstep
  exact ⟨_, Checked.run_cons_ok hstep, rfl⟩

theorem attached_free (hgood : Good s) (hq : s.queue = []) (hpipe : s.excl.pipe = some c)
    (hc : s.conns[c]? = some conn) (hdone : conn.usock.state ≠ .done) (io : Io) :
    ∃ t, socket.run s [(.fdErr c, io), (.event, io)] = .ok t ∧ t.excl.pipe = none := by
  have hp := hgood.quiet hq hc
  rw [seat_held hpipe] at hp
  revert hc hdone
  refine hp.held_cases
    (fun {_ _ _ _ u instate outstate inmsg pin pout recvd sent} _ _ _ hl => fun hc _ => ?_)
    fun _ _ _ _ hl => fun _ hdone => ?_
  · cases hl with
    | ended he => cases he
    | live hl =>
      have hfd : usockFdErr (here s.excl s.attached c []
          (attachedConn u instate outstate inmsg pin pout recvd sent)) =
            .ok (here s.excl s.attached c [.usock .sipc .error] (attachedConn { u with state := .done }
              instate outstate inmsg pin pout recvd sent)) := by
        simp only [usockFdErr, attachedConn, here_usock, hl.state]
        exact raise_usock hl.owner List.not_mem_nil
      have hfst : stepSock s (.fdErr c, io) = .ok (s.put (here s.excl s.attached c
          [.usock .sipc .error] (attachedConn { u with state := .done } instate outstate inmsg pin pout
            recvd sent))) := by
        simp only [stepSock, hq, work, on_eq hq hc, hfd, ok_bind]
        rfl
      have hself := getElem?_put_self (s := s) (w := here s.excl s.attached c [.usock .sipc .error]
        (attachedConn { u with state := .done } instate outstate inmsg pin pout recvd sent)) hc
      obtain ⟨t, hsnd, hfree⟩ := error_free (s := s.put (here s.excl s.attached c
        [.usock .sipc .error] (attachedConn { u with state := .done } instate outstate inmsg pin pout recvd
          sent))) io rfl hpipe (getElem?_put_self hc)
      exact ⟨t, (Checked.run_cons_ok hfst).trans hsnd, hfree⟩
  · cases hl with
    | ended he hu =>
      cases he
      exact absurd hu.state hdone

/-- **The pipe comes free** if and only if the socket of its connection is still open. -/
theorem comes_free_iff (h : socket.run boundSock is = .ok s) (hq : s.queue = [])
    (hpipe : s.excl.pipe = some c) (hc : s.conns[c]? = some conn) :
    (∃ js t, socket.run s js = .ok t ∧ t.excl.pipe ≠ some c) ↔ conn.usock.state ≠ .done := by
  constructor
  · rintro ⟨js, t, hrun, hfree⟩ hdone
    exact hfree ((wedged_of_done (run_good h) hq hpipe hc hdone).run (run_good h) hrun).pipe
  · intro hdone
    obtain ⟨t, hrun, hfree⟩ := attached_free (run_good h) hq hpipe hc hdone ⟨.again, .again⟩
    exact ⟨_, t, hrun, by rw [hfree]; nofun⟩

theorem comes_free_wedged : ¬ ∃ js t, socket.run wedged js = .ok t ∧ t.excl.pipe ≠ some 0 :=
  fun h => (comes_free_iff wedged_run rfl rfl wedged_conn).mp h rfl

end Nanomsg
