import Getd.Nanomsg.Events

/-!
# What the threads do

The turns of the worker and of the user thread when no event waits. The worker moves
a connection within its phase and raises at most one event (`worker_next`,
`timer_next`). The user thread takes a message from the attached pipe
(`nnPipeRecv_held`) or gives it one (`nnPipeSend_held`).
-/

namespace Nanomsg

open CLib

variable {io : Io} {u : Usock} {h t hdr : List UInt8} {c : Nat} {x : Excl} {att : List Nat}
  {es : List Event} {conn : Conn} {s : Seat} {f : World → Except Assert World} {msg : Msg}

/-- Events that a thread raises lead to no more than ten. -/
theorem weight_le (e : Event) : weight conn e ≤ 10 := by
  cases e with
  | usock owner e => cases owner <;> cases e <;> simp only [weight] <;> first | omega | (split <;> omega)
  | timer e => cases e <;> simp only [weight] <;> omega
  | streamhdr e => cases e <;> simp only [weight] <;> first | omega | (split <;> omega)
  | sipc e => cases e <;> simp only [weight] <;> omega
  | pipe e => exact Nat.le_of_ble_eq_true rfl

/-- A turn of the worker on the socket of a connection. -/
def Works (f : World → Except Assert World) (x : Excl) (att : List Nat) (c : Nat) : Prop :=
  ∀ {o h t m conn}, Line o h t m [] conn.usock → Keeps o h t m x att c conn (f (here x att c [] conn))

/-- What the worker raises goes with the mode of the line, and so with the phase. -/
theorem Works.next {o : Owner} {m : Mode} (hf : Works f x att c) (hs : seat x att c = s)
    (hl : Line o h t m [] conn.usock)
    (hp : ∀ ues u, Line o h t m ues u → Phase c s (ues.map (.usock o)) { conn with usock := u }) :
    Next c x att conn 11 (f (here x att c [] conn)) := by
  obtain ⟨ues, u, heq, hl'⟩ := hf hl
  rw [heq]
  exact .stay hs (hp ues u hl') rfl rfl (Nat.lt_succ_of_le (hl'.cost_le fun e _ => weight_le _))

theorem Line.closed_quiet {o : Owner} {ues : List UsockEvent} (hl : Line o h t .closed ues u) :
    ues = [] := by
  cases hl with
  | ended he => cases he; rfl

theorem Line.idle_quiet {o : Owner} {ues : List UsockEvent} (hl : Line o h t .idle ues u) :
    ues = [] := by
  cases hl with
  | ended he => cases he; rfl

theorem worker_next (hf : Works f x att c) (hp : Phase c (seat x att c) [] conn) :
    Next c x att conn 11 (f (here x att c [] conn)) := by
  generalize hs : seat x att c = s at hp
  obtain ⟨q, hq, hp⟩ : ∃ q, q = [] ∧ Phase c s q conn := ⟨[], rfl, hp⟩
  cases hp with
  | greeting hg hl =>
    obtain rfl := List.map_eq_nil_iff.mp hq
    exact hf.next hs hl fun _ _ hl => .greeting hg hl
  | refusing hm hl =>
    obtain rfl := List.map_eq_nil_iff.mp hq
    exact hf.next hs hl fun _ _ hl => .refusing hm hl
  | greeted hd hm hl =>
    obtain rfl := List.map_eq_nil_iff.mp hq
    exact hf.next hs hl fun _ _ hl => .greeted hd hm hl
  | attached hd hi ho hl =>
    obtain rfl := List.map_eq_nil_iff.mp hq
    exact hf.next hs hl fun _ _ hl => .attached hd hi ho hl
  | dead hd ho hlen hl =>
    refine hf.next hs hl fun ues u hl => ?_
    obtain rfl := hl.closed_quiet
    exact .dead hd ho hlen hl
  | shuttingDown hsp hidle hst hl =>
    obtain rfl := List.map_eq_nil_iff.mp hq
    exact hf.next hs hl fun _ _ hl => .shuttingDown hsp hidle hst hl
  | closing hheld hst hl =>
    obtain rfl := List.map_eq_nil_iff.mp hq
    exact hf.next hs hl fun _ _ hl => .closing hheld hst hl
  | done hheld hst hl =>
    refine hf.next hs hl fun ues u hl => ?_
    obtain rfl := hl.idle_quiet
    exact .done hheld hst hl
  | accepting | timeout | refused | greetedTimer | streamhdrError | streamhdrOk | streamhdrStopped
  | pipeOut | pipeIn | deadOut | sipcDone | sipcStopping | sipcStopped => cases hq

/-! ## The timer -/

theorem timeout_turn (hp : Phase c (seat x att c) [] conn) :
    Next c x att conn 11 (timerTimeout (here x att c [] conn)) := by
  have hoff (ht : conn.timer.state ≠ .active) :
      Next c x att conn 11 (timerTimeout (here x att c [] conn)) := by
    have hok : timerTimeout (here x att c [] conn) = .ok (here x att c [] conn) := by
      unfold timerTimeout
      cases hstate : conn.timer.state with
      | active => exact absurd hstate ht
      | idle | stopping => simp only [here_conn, hstate]
    rw [hok]
    exact .stay rfl hp rfl rfl (Nat.succ_pos _)
  generalize hs : seat x att c = s at hp
  obtain ⟨q, hq, hp⟩ : ∃ q, q = [] ∧ Phase c s q conn := ⟨[], rfl, hp⟩
  cases hp with
  | greeting hg hl =>
    obtain rfl := List.map_eq_nil_iff.mp hq
    exact .stay hs (.timeout hg hl) rfl rfl (show 1 < 11 by decide)
  | _ => first
    | exact hoff (show TimerState.stopping ≠ .active by decide)
    | exact hoff (show TimerState.idle ≠ .active by decide)
    | cases hq

theorem timerTask_turn (hp : Phase c (seat x att c) [] conn) :
    Next c x att conn 11 (timerStopTask (here x att c [] conn)) := by
  have hoff (ht : conn.timer.stopTask = false) :
      Next c x att conn 11 (timerStopTask (here x att c [] conn)) := by
    have hok : timerStopTask (here x att c [] conn) = .ok (here x att c [] conn) := by
      unfold timerStopTask
      rw [here_conn, if_pos ht]
    rw [hok]
    exact .stay rfl hp rfl rfl (Nat.succ_pos _)
  generalize hs : seat x att c = s at hp
  obtain ⟨q, hq, hp⟩ : ∃ q, q = [] ∧ Phase c s q conn := ⟨[], rfl, hp⟩
  cases hp with
  | refusing hm hl =>
    obtain rfl := List.map_eq_nil_iff.mp hq
    exact .stay hs (.refused hm hl) rfl rfl (show 10 < 11 by decide)
  | greeted hd hm hl =>
    obtain rfl := List.map_eq_nil_iff.mp hq
    exact .stay hs (.greetedTimer hd hm hl) rfl rfl (show 10 < 11 by decide)
  | _ => exact hoff rfl

/-- What the worker does to the connection `c`: a turn on its socket or on its timer. -/
def Worker (f : World → Except Assert World) (c : Nat) : Prop :=
  (∀ x att, Works f x att c) ∨ f = timerTimeout ∨ f = timerStopTask

theorem Worker.next (hf : Worker f c) (hp : Phase c (seat x att c) [] conn) :
    Next c x att conn 11 (f (here x att c [] conn)) := by
  rcases hf with hf | rfl | rfl
  · exact worker_next (hf x att) hp
  · exact timeout_turn hp
  · exact timerTask_turn hp

/-! ## The user thread -/

/-- The connection that is attached when no event waits. -/
@[elab_as_elim]
theorem Phase.held_cases {i o : Option Nat} {P : Conn → Prop} (hp : Phase c (.held i o) [] conn)
    (hattached : ∀ {want hdr h sending u instate outstate inmsg pin pout recvd sent},
      Accepted hdr → Inbound c hdr recvd i instate inmsg pin want h → Outbound c o outstate pout sending →
      Line .sipc h (protohdr ++ frames.encode sent) (.live want sending) [] u →
      P (attachedConn u instate outstate inmsg pin pout recvd sent))
    (hdead : ∀ {hdr sending u outstate pout sent}, i = none → Accepted hdr → Outbound c o outstate pout sending →
      sent.length = sending.toNat → Line .sipc hdr protohdr .closed [] u →
      P (attachedConn u .hdr outstate [] .async pout [] sent)) : P conn := by
  obtain ⟨q, hq, hp⟩ : ∃ q, q = [] ∧ Phase c (.held i o) q conn := ⟨[], rfl, hp⟩
  cases hp with
  | attached hd hin ho hl =>
    obtain rfl := List.map_eq_nil_iff.mp hq
    exact hattached hd hin ho hl
  | dead hd ho hlen hl => exact hdead rfl hd ho hlen hl
  | closing hheld | done hheld => exact absurd ⟨_, _, rfl⟩ hheld
  | _ => cases hq

/-- The attached pipe has a message. -/
theorem nnPipeRecv_held {i o : Option Nat} (io : Io) (x : Excl) (att : List Nat)
    (hp : Phase c (.held i o) [] conn) (hi : i ≠ none) :
    ∃ msg es conn', nnPipeRecv io (here x att c [] conn) = .ok (here x att c es conn', msg, true) ∧
      i = some c ∧ Phase c (.held none o) es conn' ∧ msg.length ≤ rcvmaxsize ∧
      conn'.pipebase.recvd = conn.pipebase.recvd ++ [msg] ∧
      conn'.pipebase.sent = conn.pipebase.sent ∧ cost conn' es < 11 := by
  refine hp.held_cases (fun {_ _ _ _ u _ outstate msg _ pout recvd sent} hd hin ho hl => ?_)
    fun hnone => absurd hnone hi
  cases hin with
  | hdr | body => exact absurd rfl hi
  | ready hlen =>
    obtain ⟨ues, u', heq, hl'⟩ := nnUsockRecv_line io c x att []
      ⟨u, ⟨.idle, false⟩, .idle, ⟨.active, .hdr, outstate, []⟩,
        ⟨.active, .receiving, pout, recvd, sent⟩, .active⟩ hl 9 nofun
    refine ⟨msg, ues.map (.usock .sipc),
      attachedConn u' .hdr outstate [] .async pout (recvd ++ [msg]) sent, ?_, rfl,
      .attached hd .hdr ho hl', hlen, rfl, rfl,
      Nat.lt_succ_of_le (hl'.cost_le fun e _ => weight_le _)⟩
    have hrecv : nnSipcRecv io (here x att c [] ⟨u, ⟨.idle, false⟩, .idle,
        ⟨.active, .hasmsg, outstate, msg⟩, ⟨.active, .receiving, pout, recvd, sent⟩, .active⟩) =
          .ok (here x att c (ues.map (.usock .sipc)) ⟨u', ⟨.idle, false⟩, .idle,
            ⟨.active, .hdr, outstate, []⟩, ⟨.active, .receiving, pout, recvd, sent⟩, .active⟩, msg) := by
      show (nnUsockRecv io (here x att c [] ⟨u, ⟨.idle, false⟩, .idle, ⟨.active, .hdr, outstate, []⟩,
        ⟨.active, .receiving, pout, recvd, sent⟩, .active⟩) 9 >>= fun w => pure (w, msg)) = _
      rw [heq]
      rfl
    simp only [nnPipeRecv, attachedConn, here_conn, ne_eq, not_true_eq_false, if_false, here_setPipebase,
      hrecv, ok_bind]
    rfl

theorem nnPipeSend_eq {u' : Usock} {instate : SipcInstate} {inmsg : Msg} {pin : PipeInstate}
    {recvd sent : List Msg}
    (heq : nnUsockSend io (here x att c [] ⟨u, ⟨.idle, false⟩, .idle, ⟨.active, instate, .idle, inmsg⟩,
        ⟨.active, pin, .sending, recvd, sent ++ [msg]⟩, .active⟩)
          [NN_SIPC_MSG_NORMAL :: nnPutll (UInt64.ofNat msg.length), [], msg] =
      .ok (here x att c es ⟨u', ⟨.idle, false⟩, .idle, ⟨.active, instate, .idle, inmsg⟩,
        ⟨.active, pin, .sending, recvd, sent ++ [msg]⟩, .active⟩)) :
    nnPipeSend io (here x att c [] (attachedConn u instate .idle inmsg pin .idle recvd sent)) msg =
      .ok (here x att c es (attachedConn u' instate .sending inmsg pin .async recvd (sent ++ [msg])),
        true) := by
  simp only [nnPipeSend, nnSipcSend, attachedConn, here_conn, ne_eq, not_true_eq_false, if_false,
    here_setPipebase, or_self, heq, ok_bind]
  rfl

/-- The attached pipe takes a message. -/
theorem nnPipeSend_held {i o : Option Nat} (io : Io) (x : Excl) (att : List Nat)
    (hp : Phase c (.held i o) [] conn) (ho : o ≠ none) (msg : Msg) :
    ∃ es conn', nnPipeSend io (here x att c [] conn) msg = .ok (here x att c es conn', true) ∧
      o = some c ∧ Phase c (.held i none) es conn' ∧
      conn'.pipebase.recvd = conn.pipebase.recvd ∧
      conn'.pipebase.sent = conn.pipebase.sent ++ [msg] ∧ cost conn' es < 11 := by
  refine hp.held_cases
    (fun {_ _ _ _ u instate _ inmsg pin _ recvd sent} hd hin hout hl => ?_)
    fun {_ _ u _ _ sent} hnone hd hout hlen hl => ?_
  · cases hout with
    | sending => exact absurd rfl ho
    | idle =>
      obtain ⟨ues, u', heq, hl'⟩ := nnUsockSend_line io c x att []
        ⟨u, ⟨.idle, false⟩, .idle, ⟨.active, instate, .idle, inmsg⟩,
          ⟨.active, pin, .sending, recvd, sent ++ [msg]⟩, .active⟩ hl
        [NN_SIPC_MSG_NORMAL :: nnPutll (UInt64.ofNat msg.length), [], msg] nofun
      refine ⟨_, _, nnPipeSend_eq heq, rfl, .attached hd hin .sending ?_, rfl, rfl,
        Nat.lt_succ_of_le (hl'.cost_le fun e _ => weight_le _)⟩
      have hframe : [NN_SIPC_MSG_NORMAL :: nnPutll (UInt64.ofNat msg.length), [], msg].flatten =
          frame msg := by
        simp only [List.flatten_cons, List.flatten_nil, List.append_nil, List.nil_append, frame]
      rw [Codec.encode_append, Codec.encode_singleton, ← List.append_assoc, frames_word, ← hframe]
      exact hl'
  · cases hout with
    | sending => exact absurd rfl ho
    | idle =>
      obtain rfl : sent = [] := List.eq_nil_of_length_eq_zero hlen
      subst hnone
      exact ⟨[], _, nnPipeSend_eq (nnUsockSend_closed hl _), rfl, .dead hd .sending rfl hl, rfl, rfl,
        Nat.succ_pos _⟩

end Nanomsg
