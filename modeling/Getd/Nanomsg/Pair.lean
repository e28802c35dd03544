import Getd.Nanomsg.Stream

/-!
# What the socket promises

`NN_PAIR` over any number of peers that come and go: they are attached one at a time
and none twice, only with the right header (`attached_accepted`), and the messages that
the user thread gets and gives are those of the attached peers one after the other
(`pair_messages`). The file descriptors say when there is something to do (`fds_tell`),
and the events of a connection come to an end (`lock_released`).
-/

namespace Nanomsg

open CLib

variable {s : Sock} {c : Nat} {conn : Conn} {es : List Event} {is : List (Action × Io)} {io : Io}

/-! ## One peer at a time -/

/-- **No peer comes in without the header** of a `NN_PAIR` socket, and its messages begin
behind it. -/
theorem attached_accepted (h : socket.run boundSock is = .ok s) (hc : c ∈ s.attached) :
    ∃ conn, s.conns[c]? = some conn ∧ protohdrOk (conn.usock.rx.take protohdr.length) = true ∧
      frames.encode conn.pipebase.recvd <+: conn.usock.rx.drop protohdr.length := by
  have hgood := (run_good h).toCore
  have hlt := hgood.bound c hc
  have hconn : s.conns[c]? = some s.conns[c] := List.getElem?_eq_getElem hlt
  obtain ⟨es, hp⟩ := hgood.phase hconn
  have hs : seat s.excl s.attached c ≠ .fresh := fun hfresh => (of_fresh hfresh).2 hc
  obtain ⟨hdr, ⟨hlen, hok⟩, rest, hrx⟩ := hp.rx hs
  refine ⟨_, hconn, ?_, rest, ?_⟩
  · rw [← hrx, List.append_assoc, List.take_left' hlen]
    exact hok
  · rw [← hrx, List.append_assoc, List.drop_left' hlen]

theorem attached_accepted_seven : ∃ conn, (visited [7] [8]).conns[0]? = some conn ∧
    protohdrOk (conn.usock.rx.take protohdr.length) = true ∧
    frames.encode conn.pipebase.recvd <+: conn.usock.rx.drop protohdr.length :=
  attached_accepted visited_seven List.mem_cons_self

/-- **One peer after the other.** No connection is attached twice, the one that is attached
is the last, and what the user thread got and gave is what the attached connections gave
out and took, each in its turn. -/
theorem pair_messages (h : socket.run boundSock is = .ok s) :
    s.attached.Nodup ∧ (∀ c, s.excl.pipe = some c → s.attached.getLast? = some c) ∧
      s.received = s.attached.flatMap s.recvdOn ∧ s.sent = s.attached.flatMap s.sentOn ∧
      ∀ c, c ∉ s.attached → s.recvdOn c = [] ∧ s.sentOn c = [] := by
  have hgood := (run_good h).toCore
  refine ⟨hgood.seats.nodup, hgood.seats.last, hgood.received, hgood.sent, fun c hc => ?_⟩
  cases hconn : s.conns[c]? with
  | none =>
    rw [Sock.recvdOn, Sock.sentOn, hconn]
    exact ⟨rfl, rfl⟩
  | some conn =>
    rw [recvdOn_some hconn, sentOn_some hconn]
    exact hgood.fresh c conn hconn hc

/-- A peer is answered and leaves, and the next one is answered too. -/
def takingTurns : List (Action × Io) :=
  visit [7] [8] ++ (.fdErr 0, calm) :: List.replicate 10 (.event, calm) ++ greet 1 (frame [9]) ++
    [(.recv true, calm), (.send [10] true, calm), (.event, calm), (.event, calm)]

def turned : Sock := (socket.run boundSock takingTurns).toOption.getD boundSock

theorem pair_messages_turns : turned.attached = [0, 1] ∧ turned.recvdOn 0 = [[7]] ∧
    turned.sentOn 1 = [[10]] ∧ turned.received = turned.attached.flatMap turned.recvdOn ∧
    turned.sent = turned.attached.flatMap turned.sentOn :=
  have hrun : socket.run boundSock takingTurns = .ok turned := rfl
  have hturns := pair_messages hrun
  ⟨rfl, rfl, rfl, hturns.2.2.1, hturns.2.2.2.1⟩

/-! ## Signals -/

theorem rcvfd_tells (h : Good s) (hq : s.queue = []) (io : Io) (first : Bool) :
    s.rcvfd = true ↔ ∃ s' msg, nnSockRecv io s first = .ok (s', some msg) := by
  have htold := (h.told hq).1
  rw [nnSockRecv_eq h.toReady]
  rcases sockRecv_turn h.toReady hq io with ⟨hnone, hr⟩ | ⟨s', msg, hr, -⟩
  · rw [hnone] at htold
    rw [hr, htold]
    constructor
    · nofun
    · rintro ⟨s', msg, heq⟩
      split at heq <;> cases heq
  · cases hin : s.excl.inpipe with
    | none =>
      rw [sockRecv, hin] at hr
      cases hr
    | some p =>
      rw [hin] at htold
      rw [htold, hr]
      exact ⟨fun _ => ⟨s', msg, by simp⟩, fun _ => rfl⟩

theorem sndfd_tells (h : Good s) (hq : s.queue = []) (io : Io) (msg : Msg) (first : Bool) :
    s.sndfd = true ↔ ∃ s', nnSockSend io s msg first = .ok (s', true) := by
  have htold := (h.told hq).2
  rw [nnSockSend_eq h.toReady]
  rcases sockSend_turn h.toReady hq io msg with ⟨hnone, hr⟩ | ⟨s', hr, -⟩
  · rw [hnone] at htold
    rw [hr, htold]
    constructor
    · nofun
    · rintro ⟨s', heq⟩
      split at heq <;> cases heq
  · cases hout : s.excl.outpipe with
    | none =>
      rw [sockSend, hout] at hr
      cases hr
    | some p =>
      rw [hout] at htold
      rw [htold, hr]
      exact ⟨fun _ => ⟨s', by simp⟩, fun _ => rfl⟩

/-- **Nothing is slept through.** When the lock is free, `rcvfd` is signalled exactly when a
round of `nn_sock_recv` gets a message, and `sndfd` when one of `nn_sock_send` gets rid of
one. -/
theorem fds_tell (h : socket.run boundSock is = .ok s) (hq : s.queue = []) (io : Io) (first : Bool) :
    (s.rcvfd = true ↔ ∃ s' msg, nnSockRecv io s first = .ok (s', some msg)) ∧
      ∀ msg, s.sndfd = true ↔ ∃ s', nnSockSend io s msg first = .ok (s', true) :=
  ⟨rcvfd_tells (run_good h) hq io first, fun msg => sndfd_tells (run_good h) hq io msg first⟩

theorem fds_tell_seven : (visited [7] [8]).rcvfd = false ∧
    ∃ s', nnSockSend calm (visited [7] [8]) [9] false = .ok (s', true) :=
  ⟨rfl, ((fds_tell visited_seven rfl calm false).2 [9]).mp rfl⟩

/-! ## The lock -/

theorem weight_pos (e : Event) : 0 < weight conn e := by
  cases e with
  | usock owner e =>
    cases owner <;> cases e <;> simp only [weight] <;> first | omega | (split <;> omega)
  | timer e => cases e <;> exact Nat.succ_pos _
  | streamhdr e => cases e <;> simp only [weight] <;> first | omega | (split <;> omega)
  | sipc e => cases e <;> exact Nat.succ_pos _
  | pipe e => exact Nat.one_pos

theorem Core.load_pos (h : Core s) (hbusy : s.queue ≠ []) : 0 < s.load := by
  obtain ⟨c, es, hst⟩ := h.stands
  cases es with
  | nil => exact absurd hst.queue hbusy
  | cons e es =>
    have hlt := hst.owned (List.cons_ne_nil _ _)
    rw [load_stands hst (List.getElem?_eq_getElem hlt), cost_cons]
    exact Nat.lt_add_right _ (weight_pos e)

theorem load_lt (h : Core s) : s.load < 11 := by
  obtain ⟨c, es, hst⟩ := h.stands
  cases es with
  | nil => exact (load_quiet hst.queue).symm ▸ Nat.succ_pos _
  | cons e es =>
    have hc := List.getElem?_eq_getElem (hst.owned (List.cons_ne_nil _ _))
    rw [load_stands hst hc]
    exact hst.cost _ hc

/-- Handling events as long as there are any comes to an end. -/
theorem drain (ios : List Io) (h : Good s) (hload : s.load ≤ ios.length) :
    (∃ t, socket.run s (ios.map fun io => (.event, io)) = .ok t ∧ t.queue = []) ∨
      socket.run s (ios.map fun io => (.event, io)) = .error .sipcMsgNormal := by
  induction ios generalizing s with
  | nil =>
    by_cases hq : s.queue = []
    · exact .inl ⟨s, rfl, hq⟩
    · exact absurd hload (Nat.not_le_of_lt (h.load_pos hq))
  | cons io ios ih =>
    rw [List.map_cons]
    by_cases hq : s.queue = []
    · have hstep : stepSock s (.event, io) = .ok s := by simp only [stepSock, hq]
      rw [Checked.run_cons_ok hstep]
      exact ih h ((load_quiet hq).symm ▸ Nat.zero_le _)
    · rcases stepSock_event h hq io with ⟨t, hstep, ht, hlt, -⟩ | ⟨hfail, -⟩
      · rw [Checked.run_cons_ok hstep]
        rw [List.length_cons] at hload
        exact ih ht (by omega)
      · exact .inr (Checked.run_cons_error hfail)

/-- **The lock is given up.** As long as no further connection is accepted meanwhile, no more
than ten events of the connections are handled before none is left. -/
theorem lock_released (h : socket.run boundSock is = .ok s) (ios : List Io) (hios : 10 ≤ ios.length) :
    (∃ t, socket.run s (ios.map fun io => (.event, io)) = .ok t ∧ t.queue = []) ∨
      socket.run s (ios.map fun io => (.event, io)) = .error .sipcMsgNormal :=
  drain ios (run_good h) (Nat.le_trans (Nat.le_of_lt_succ (load_lt (run_good h).toCore)) hios)

def accepting : Sock := ((socket.run boundSock [(.accept, calm)]).toOption).getD boundSock

theorem lock_released_accepting : accepting.queue ≠ [] ∧
    ((∃ t, socket.run accepting ((List.replicate 10 calm).map fun io => (.event, io)) = .ok t ∧
        t.queue = []) ∨
      socket.run accepting ((List.replicate 10 calm).map fun io => (.event, io)) =
        .error .sipcMsgNormal) :=
  have hrun : socket.run boundSock [(.accept, calm)] = .ok accepting := rfl
  ⟨nofun, lock_released hrun _ (Nat.le_refl 10)⟩

end Nanomsg
