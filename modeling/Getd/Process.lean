import Getd.Decoding
import Getd.Nanomsg.Pair

/-!
# The process and its socket

`main.c` on the socket it is bound to. The user thread waits in `nn_recv` for a message,
handles it, and waits in `nn_send` until the reply is taken. The worker thread goes on
beside it.

Whatever the two threads and the peers do, the process is the main loop on the messages
of the attached peers, one peer after the other (`loop_refined`). But it does not know
one peer from the next: a reply that is not taken before its peer leaves goes to the one
attached after it (`peer_replies`).
-/

namespace Getd

open CLib Nanomsg

/-- `packet` is what `nn_send` has been called with, `none` while the user thread is in
`nn_recv`, and `first` whether the call is in its first round. -/
structure Process where
  sock : Sock
  daemon : Daemon
  packet : Option Packet
  first : Bool

/-- Who comes next: the lock with its events, the worker, or the user thread. The user
thread brings the memory past the buffer and the surroundings of the handler. -/
inductive Thread
  | worker (a : Action)
  | user (past : Mem) (env : Env)

namespace Process

/-- A round of `nn_recv`, and the handler when it is the last. -/
def recv (p : Process) (past : Mem) (env : Env) (io : Io) : Except Assert Process := do
  let (sock, msg) ← nnSockRecv io p.sock p.first
  let sock ← nnCtxLeave sock
  match msg with
  | none => return { p with sock := sock, first := false }
  | some d =>
    let (daemon, packet) := iteration p.daemon ⟨some d, past, env⟩
    return ⟨sock, daemon, packet, true⟩

/-- A round of `nn_send`. -/
def send (p : Process) (packet : Packet) (io : Io) : Except Assert Process := do
  let (sock, taken) ← nnSockSend io p.sock packet.bytes p.first
  let sock ← nnCtxLeave sock
  if taken then return ⟨sock, p.daemon, none, true⟩
  else return { p with sock := sock, first := false }

/-- While events wait the lock keeps the user thread out. -/
def step (p : Process) : Thread × Io → Except Assert Process
  | (.worker (.recv _), _) | (.worker (.send _ _), _) => .ok p
  | (.worker a, io) => do return { p with sock := ← stepSock p.sock (a, io) }
  | (.user past env, io) =>
    if p.sock.queue ≠ [] then .ok p
    else
      match p.packet with
      | none => p.recv past env io
      | some packet => p.send packet io

/-- What `nn_send` has been called with and has not got rid of. -/
def pending (p : Process) : List Msg := p.packet.toList.map Packet.bytes

end Process

def process : Checked Process (Thread × Io) Assert := ⟨Process.step⟩

def start (g : Daemon) : Process := ⟨boundSock, g, none, true⟩

def replies (g : Daemon) (is : List Input) : List Msg :=
  (mainLoop.outs g is).filterMap fun o => o.map Packet.bytes

variable {g : Daemon} {p : Process} {c : Nat} {ins more : List Input} {is : List (Thread × Io)}
  {js : List (Action × Io)} {s t : Sock} {ms ns : List Msg}

theorem replies_append (is js : List Input) :
    replies g (is ++ js) = replies g is ++ replies (mainLoop.run g is) js := by
  rw [replies, Mealy.outs_append, List.filterMap_append]
  rfl

/-! ## One peer after the other -/

/-- The replies to the messages of the connections `att` went to these, all but one at
most. -/
def Answered (g : Daemon) (s : Sock) (ins : List Input) (att : List Nat) : Prop :=
  ∃ before after stray, ins = before ++ after ∧
    before.map Input.recv = (att.flatMap s.recvdOn).map some ∧
    replies g before = att.flatMap s.sentOn ++ stray ∧ stray.length ≤ 1

theorem answered_congr {att : List Nat} (hr : ∀ d ∈ att, t.recvdOn d = s.recvdOn d)
    (hs : ∀ d ∈ att, t.sentOn d = s.sentOn d) (h : Answered g s ins att) :
    Answered g t (ins ++ more) att := by
  obtain ⟨before, after, stray, rfl, hbefore, hreplies, hstray⟩ := h
  refine ⟨before, after ++ more, stray, List.append_assoc _ _ _, ?_, ?_, hstray⟩
  · rw [List.flatMap_congr hr]
    exact hbefore
  · rw [List.flatMap_congr hs]
    exact hreplies

theorem answered_grows (hs : Good s) (ht : Good t) (hg : Grows s t ms ns) {stray : List Msg}
    (hrecv : (ins ++ more).map Input.recv = t.received.map some)
    (hsent : replies g (ins ++ more) = t.sent ++ stray) (hstray : stray.length ≤ 1)
    (h : ∀ att, att <+: s.attached → Answered g s ins att) :
    ∀ att, att <+: t.attached → Answered g t (ins ++ more) att := by
  intro att hatt
  by_cases hall : att = t.attached
  · subst hall
    exact ⟨ins ++ more, [], stray, (List.append_nil _).symm, ht.received ▸ hrecv, ht.sent ▸ hsent,
      hstray⟩
  rcases hg.attached with heq | ⟨rfl, rfl, c, heq⟩
  · rw [heq] at hatt hall
    obtain ⟨rest, hrest⟩ := hatt
    have hne : rest ≠ [] := fun hnil => hall (by rw [← hrest, hnil, List.append_nil])
    have hlast : ∀ d ∈ att, s.attached.getLast? ≠ some d := fun d hd hl => by
      have hmem : d ∈ rest := by
        rw [← hrest, List.getLast?_append_of_ne_nil _ hne] at hl
        exact List.mem_of_getLast? hl
      have hnd := hs.seats.nodup
      rw [← hrest] at hnd
      exact List.disjoint_of_nodup_append hnd hd hmem
    exact answered_congr (fun d hd => hg.recvdOn d (.inr (hlast d hd)))
      (fun d hd => hg.sentOn d (.inr (hlast d hd))) (h att ⟨rest, hrest⟩)
  · rw [heq] at hatt hall
    rcases List.prefix_concat_iff.mp hatt with hatt | hatt
    · exact absurd hatt hall
    · exact answered_congr (fun d _ => hg.recvdOn d (.inl rfl)) (fun d _ => hg.sentOn d (.inl rfl))
        (h att hatt)

/-! ## The main loop on the messages -/

/-- `p` is the main loop after `ins`, on the socket after `js`. -/
structure Refines (g : Daemon) (p : Process) (js : List (Action × Io)) (ins : List Input) : Prop where
  sock : socket.run boundSock js = .ok p.sock
  daemon : p.daemon = mainLoop.run g ins
  received : ins.map Input.recv = p.sock.received.map some
  sent : replies g ins = p.sock.sent ++ p.pending
  answered : ∀ att, att <+: p.sock.attached → Answered g p.sock ins att

theorem pending_length (p : Process) : p.pending.length ≤ 1 := by
  unfold Process.pending
  cases p.packet with
  | none => exact Nat.zero_le 1
  | some packet => exact Nat.le_refl 1

theorem start_refines (g : Daemon) : Refines g (start g) [] [] := by
  refine ⟨rfl, rfl, rfl, rfl, fun att hatt => ?_⟩
  obtain rfl := List.prefix_nil.mp hatt
  exact ⟨[], [], [], rfl, rfl, rfl, Nat.zero_le 1⟩

/-- A step of the socket that the main loop answers to with `more`. -/
theorem Refines.next {q : Process} {i : Action × Io} (h : Refines g p js ins)
    (hstep : stepSock p.sock i = .ok q.sock) (hg : Grows p.sock q.sock ms ns)
    (hdaemon : q.daemon = mainLoop.run p.daemon more)
    (hmore : more.map Input.recv = ms.map some)
    (hpacket : p.pending ++ replies p.daemon more = ns ++ q.pending) :
    Refines g q (js ++ [i]) (ins ++ more) := by
  have hrun : socket.run boundSock (js ++ [i]) = .ok q.sock :=
    Checked.run_trans h.sock (Checked.run_cons_ok hstep)
  have hrecv : (ins ++ more).map Input.recv = q.sock.received.map some := by
    rw [List.map_append, h.received, hmore, hg.received, List.map_append]
  have hsent : replies g (ins ++ more) = q.sock.sent ++ q.pending := by
    rw [replies_append, h.sent, ← h.daemon, List.append_assoc, hpacket, hg.sent, List.append_assoc]
  refine ⟨hrun, ?_, hrecv, hsent, ?_⟩
  · rw [hdaemon, h.daemon, Mealy.run_append]
  · exact answered_grows (run_good h.sock) (run_good hrun) hg hrecv hsent (pending_length q) h.answered

theorem step_worker {a : Action} (hrecv : ∀ first, a ≠ .recv first)
    (hsend : ∀ msg first, a ≠ .send msg first) (io : Io) :
    p.step (.worker a, io) = stepSock p.sock (a, io) >>= fun s => pure { p with sock := s } := by
  cases a with
  | recv first => exact absurd rfl (hrecv first)
  | send msg first => exact absurd rfl (hsend msg first)
  | _ => rfl

theorem Refines.worker (h : Refines g p js ins) (a : Action) (io : Io) :
    (∃ q js more, p.step (.worker a, io) = .ok q ∧ Refines g q js (ins ++ more)) ∨
      p.step (.worker a, io) = .error .sipcMsgNormal := by
  have hstay : Refines g p js (ins ++ []) := (List.append_nil ins).symm ▸ h
  by_cases hrecv : ∃ first, a = .recv first
  · obtain ⟨first, rfl⟩ := hrecv
    exact .inl ⟨p, js, [], rfl, hstay⟩
  by_cases hsend : ∃ msg first, a = .send msg first
  · obtain ⟨msg, first, rfl⟩ := hsend
    exact .inl ⟨p, js, [], rfl, hstay⟩
  rw [not_exists] at hrecv
  simp only [not_exists] at hsend
  rw [step_worker hrecv hsend]
  have hgood := run_good h.sock
  rcases stepSock_good hgood (a, io) with ⟨t, ht, -, ms, ns, hg⟩ | ⟨hfail, -⟩
  · have hsame := stepSock_silent hgood hrecv hsend ht
    have hms : ms = [] := List.append_right_eq_self.mp (hg.received.symm.trans hsame.1)
    have hns : ns = [] := List.append_right_eq_self.mp (hg.sent.symm.trans hsame.2)
    subst hms hns
    rw [ht]
    refine .inl ⟨{ p with sock := t }, js ++ [(a, io)], [], rfl, ?_⟩
    exact h.next (q := { p with sock := t }) ht hg rfl rfl (List.append_nil _)
  · rw [hfail]
    exact .inr rfl

theorem Refines.user (h : Refines g p js ins) (hq : p.sock.queue = []) (past : Mem) (env : Env)
    (io : Io) : ∃ q js more, p.step (.user past env, io) = .ok q ∧ Refines g q js (ins ++ more) := by
  have hgood := run_good h.sock
  have hquiet : ∀ {α : Type} (x y : α), (if p.sock.queue ≠ [] then x else y) = y :=
    fun _ _ => if_neg (not_not.mpr hq)
  cases hp : p.packet with
  | none =>
    have hpending : p.pending = [] := by rw [Process.pending, hp]; rfl
    obtain ⟨s', msg, t, hr, hl, -, hg⟩ := recv_round hgood hq io p.first
    have hstep : stepSock p.sock (.recv p.first, io) = .ok t := by
      simp only [stepSock, hq, work, hr, ok_bind, pure_eq_ok]
      exact hl
    have huser : p.step (.user past env, io) = p.recv past env io := by
      simp only [Process.step, hquiet, hp]
    rw [huser]
    cases msg with
    | none =>
      refine ⟨{ p with sock := t, first := false }, js ++ [(.recv p.first, io)], [], ?_, ?_⟩
      · simp only [Process.recv, hr, hl, ok_bind]
        rfl
      · exact h.next (q := { p with sock := t, first := false }) hstep hg rfl rfl (List.append_nil _)
    | some d =>
      refine ⟨⟨t, (iteration p.daemon ⟨some d, past, env⟩).1,
        (iteration p.daemon ⟨some d, past, env⟩).2, true⟩, js ++ [(.recv p.first, io)],
        [⟨some d, past, env⟩], ?_, ?_⟩
      · simp only [Process.recv, hr, hl, ok_bind]
        rfl
      · refine h.next (q := ⟨t, _, _, true⟩) hstep hg rfl rfl ?_
        rw [hpending]
        show [(iteration p.daemon ⟨some d, past, env⟩).2].filterMap (fun o => o.map Packet.bytes) =
          ((iteration p.daemon ⟨some d, past, env⟩).2).toList.map Packet.bytes
        cases (iteration p.daemon ⟨some d, past, env⟩).2 <;> rfl
  | some packet =>
    have hpending : p.pending = [packet.bytes] := by rw [Process.pending, hp]; rfl
    obtain ⟨s', taken, t, hr, hl, -, hg⟩ := send_round hgood hq io packet.bytes p.first
    have hstep : stepSock p.sock (.send packet.bytes p.first, io) = .ok t := by
      simp only [stepSock, hq, work, hr, ok_bind, pure_eq_ok]
      exact hl
    have huser : p.step (.user past env, io) = p.send packet io := by
      simp only [Process.step, hquiet, hp]
    rw [huser]
    cases taken with
    | false =>
      refine ⟨{ p with sock := t, first := false }, js ++ [(.send packet.bytes p.first, io)],
        [], ?_, ?_⟩
      · simp only [Process.send, hr, hl, ok_bind]
        rfl
      · exact h.next (q := { p with sock := t, first := false }) hstep hg rfl rfl (List.append_nil _)
    | true =>
      refine ⟨⟨t, p.daemon, none, true⟩, js ++ [(.send packet.bytes p.first, io)], [], ?_, ?_⟩
      · simp only [Process.send, hr, hl, ok_bind]
        rfl
      · refine h.next (q := ⟨t, p.daemon, none, true⟩) hstep hg rfl rfl ?_
        rw [hpending]
        rfl

theorem Refines.step (h : Refines g p js ins) (i : Thread × Io) :
    (∃ q js more, p.step i = .ok q ∧ Refines g q js (ins ++ more)) ∨
      p.step i = .error .sipcMsgNormal := by
  obtain ⟨thread, io⟩ := i
  cases thread with
  | worker a => exact h.worker a io
  | user past env =>
    by_cases hq : p.sock.queue = []
    · exact .inl (h.user hq past env io)
    · exact .inl ⟨p, js, [], if_pos hq, (List.append_nil ins).symm ▸ h⟩

theorem Refines.run {q : Process} (h : Refines g p js ins) (hrun : process.run p is = .ok q) :
    ∃ js more, Refines g q js (ins ++ more) := by
  refine Checked.run_invariant (I := fun q => ∃ js more, Refines g q js (ins ++ more))
    (fun p i q hp hstep => ?_) ⟨js, [], (List.append_nil ins).symm ▸ h⟩ hrun
  obtain ⟨js, more, hp⟩ := hp
  rcases hp.step i with ⟨q', js', more', hq, hq'⟩ | hfail
  · cases hq.symm.trans hstep
    exact ⟨js', more ++ more', List.append_assoc _ _ _ ▸ hq'⟩
  · cases hfail.symm.trans hstep

theorem run_refines (h : process.run (start g) is = .ok p) : ∃ js ins, Refines g p js ins :=
  (start_refines g).run h

/-- **The process is the main loop.** In every run, whatever the peers send, however the
kernel answers and whichever thread comes next, the daemon is where the main loop is after
the messages that the socket has given out, and its replies are those that the socket has
taken and the one that waits. Only a frame of a type that is not known ends the process. -/
theorem loop_refined (g : Daemon) (is : List (Thread × Io)) :
    (∃ p js ins, process.run (start g) is = .ok p ∧ socket.run boundSock js = .ok p.sock ∧
      p.daemon = mainLoop.run g ins ∧ ins.map Input.recv = p.sock.received.map some ∧
      replies g ins = p.sock.sent ++ p.pending ∧ p.pending.length ≤ 1) ∨
    process.run (start g) is = .error .sipcMsgNormal := by
  have hstep : ∀ p i, (∃ js ins, Refines g p js ins) →
      (∃ q, process.step p i = .ok q ∧ ∃ js ins, Refines g q js ins) ∨
        process.step p i = .error .sipcMsgNormal := fun p i ⟨js, ins, h⟩ => by
    rcases h.step i with ⟨q, js', more, hq, h'⟩ | hfail
    · exact .inl ⟨q, hq, js', ins ++ more, h'⟩
    · exact .inr hfail
  rcases Checked.run_keeps hstep ⟨[], [], start_refines g⟩ is with ⟨p, hrun, js, ins, h⟩ | hfail
  · exact .inl ⟨p, js, ins, hrun, h.sock, h.daemon, h.received, h.sent, pending_length p⟩
  · exact .inr hfail

end Getd
