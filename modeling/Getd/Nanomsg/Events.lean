import Getd.Nanomsg.Phase

/-!
# What the events do

`process_next` follows the first event of the queue through every phase of its
connection. No assertion fails but the one on the type of a frame, other connections
and the messages given out and taken so far stay as they are, and the events that are
raised are fewer by `cost`.
-/

namespace Nanomsg

open CLib

variable {io : Io} {u : Usock} {h t hdr : List UInt8} {n c : Nat} {x : Excl} {att : List Nat}
  {es : List Event} {ues : List UsockEvent} {conn : Conn} {want : Option Nat} {sending : Bool}
  {m : Mode} {recvd sent : List Msg} {i o : Option Nat} {instate : SipcInstate}
  {outstate : SipcOutstate} {inmsg msg : Msg} {pin : PipeInstate} {pout : PipeOutstate}

/-- How many more events an event can lead to, itself included. -/
def weight (conn : Conn) : Event → Nat
  | .usock .aipc .accepted => 3
  | .usock .streamhdr .sent => 2
  | .usock .sipc .received => if conn.sipc.instate = .hdr then 6 else 2
  | .usock .sipc .sent => 2
  | .usock .sipc .error => 5
  | .usock _ _ => 1
  | .timer .timeout => 1
  | .timer .stopped => 10
  | .streamhdr .ok => 9
  | .streamhdr .error => 5
  | .streamhdr .stopped => if conn.sipc.state = .stopping then 3 else 8
  | .sipc .error => 4
  | .sipc .stopped => 2
  | .pipe _ => 1

def cost (conn : Conn) : List Event → Nat
  | [] => 0
  | e :: es => weight conn e + cost conn es

/-- A frame has come whose first byte is not `NN_SIPC_MSG_NORMAL`. -/
def BadFrame (conn : Conn) : Prop :=
  ∃ hdr inhdr, Accepted hdr ∧ inhdr.length = 9 ∧ inhdr.head? ≠ some NN_SIPC_MSG_NORMAL ∧
    hdr ++ frames.encode conn.pipebase.recvd ++ inhdr <+: conn.usock.rx

/-- How a connection goes on from `conn`, with events that cost less than `n`. -/
inductive Next (c : Nat) (x : Excl) (att : List Nat) (conn : Conn) (n : Nat) :
    Except Assert World → Prop
  | ok {x' : Excl} {att' : List Nat} {es : List Event} {conn' : Conn} :
    Moves c x att x' att' → Phase c (seat x' att' c) es conn' →
    conn'.pipebase.recvd = conn.pipebase.recvd → conn'.pipebase.sent = conn.pipebase.sent →
    cost conn' es < n → Next c x att conn n (.ok (here x' att' c es conn'))
  | bad : BadFrame conn → Next c x att conn n (.error .sipcMsgNormal)

theorem Next.stay {conn' : Conn} {s : Seat} (hs : seat x att c = s) (hp : Phase c s es conn')
    (hr : conn'.pipebase.recvd = conn.pipebase.recvd) (ht : conn'.pipebase.sent = conn.pipebase.sent)
    (hc : cost conn' es < n) : Next c x att conn n (.ok (here x att c es conn')) :=
  .ok .stay (hs ▸ hp) hr ht hc

theorem cost_cons (e : Event) : cost conn (e :: es) = weight conn e + cost conn es := rfl

/-- At most one event of the socket waits. -/
theorem Line.cost_le {owner : Owner} (hl : Line owner h t m ues u)
    (hw : ∀ e, e ∈ ues → weight conn (.usock owner e) ≤ n) : cost conn (ues.map (.usock owner)) ≤ n := by
  have hone : ∀ e, ues = [e] → cost conn (ues.map (.usock owner)) ≤ n := by
    rintro e rfl
    exact hw e List.mem_cons_self
  cases hl with
  | live => exact Nat.zero_le n
  | received => exact hone _ rfl
  | sent => exact hone _ rfl
  | ended he =>
    cases he with
    | leaving | closed | stopping | idle => exact Nat.zero_le n
    | error | shutdown | left | stop | stopped => exact hone _ rfl

theorem weight_streamhdr_le (e : UsockEvent) : weight conn (.usock .streamhdr e) ≤ 2 := by
  cases e <;> simp only [weight] <;> omega

theorem weight_sipc_le (e : UsockEvent) : weight conn (.usock .sipc e) ≤ 6 := by
  cases e <;> simp only [weight] <;> first
    | omega
    | split <;> omega

/-- The header is all that is sent before there is a pipe. -/
theorem Line.cost_receiving (hl : Line .streamhdr h t (.live (some n) false) ues u) :
    cost conn (ues.map (.usock .streamhdr)) ≤ 1 := by
  refine hl.cost_le fun e he => ?_
  cases hl with
  | live => cases he
  | received => cases List.mem_singleton.mp he; exact Nat.le_refl 1
  | ended hends =>
    cases hends <;> (cases List.mem_singleton.mp he; exact Nat.le_refl 1)

/-- An event of a socket that nobody waits for changes nothing. -/
theorem Line.ignore {owner : Owner} {e : UsockEvent} (hl : Line owner h t m (e :: ues) u) (hm : m.Open) :
    ues = [] ∧ ∃ m' h', m'.Open ∧ Line owner h' t m' [] u := by
  cases hl with
  | received hl => exact ⟨rfl, _, _, Mode.open_live, .live hl⟩
  | sent hl => exact ⟨rfl, _, _, Mode.open_live, .live hl⟩
  | ended he hu =>
    cases he with
    | error | left => exact ⟨rfl, _, _, Mode.open_closed, .ended .closed hu⟩
    | shutdown => exact ⟨rfl, _, _, Mode.open_leaving, .ended .leaving hu⟩
    | stop => exact absurd rfl hm.1
    | stopped => exact absurd rfl hm.1

/-! ## The exchange of headers -/

theorem accepting_next (hs : seat x att c = .fresh) : Next c x att acceptedConn 3
    (process io (here x att c [] acceptedConn) (.usock .aipc .accepted)) := by
  have hline : Line .streamhdr [] [] (.live none false) []
      ⟨.active, .streamhdr, [], [], 0, [], false, false, false, false, false, [], []⟩ :=
    .live ⟨rfl, rfl, rfl, ⟨rfl, rfl, rfl⟩, ⟨rfl, rfl, rfl⟩⟩
  obtain ⟨ues, u, heq, hl⟩ := nnUsockSend_line io c x att []
    ⟨_, ⟨.active, false⟩, .idle, ⟨.idle, .unset, .unset, []⟩, idlePipe, .accepting⟩ hline
    [protohdr] (by simp)
  simp only [idlePipe] at heq
  simp only [process, nnAipcHandler, acceptedConn, here_conn, here_usock, here_setUsock, nnSipcStart,
    nnStreamhdrStart, nnTimerStart, here_setTimer, ok_bind, ne_eq, not_true_eq_false, if_false, heq,
    here_setStreamhdr, here_setSipc, here_setAipc, pure_eq_ok, List.nil_append]
  exact .stay hs (.greeting .sending hl) rfl rfl
    (Nat.lt_succ_of_le (hl.cost_le fun e _ => weight_streamhdr_le e))

theorem streamhdrError_next {s : StreamhdrState} (hs : seat x att c = .fresh) (hm : m.Open)
    (hl : Line .streamhdr h protohdr m [] u) (hn : 0 < n) :
    Next c x att (greetingConn u ⟨.active, false⟩ s .protohdr) n
      (streamhdrError (here x att c [] (greetingConn u ⟨.active, false⟩ s .protohdr))) := by
  simp only [streamhdrError, nnTimerStop, greetingConn, here_conn, ne_eq, not_true_eq_false, if_false,
    reduceCtorEq, here_setTimer, ok_bind, here_setStreamhdr, pure_eq_ok]
  exact .stay hs (.refusing hm hl) rfl rfl hn

theorem greeting_next {s : StreamhdrState} {e : UsockEvent} (hs : seat x att c = .fresh)
    (hg : Greets s m) (hl : Line .streamhdr [] protohdr m (e :: ues) u) :
    ues = [] ∧ Next c x att (greetingConn u ⟨.active, false⟩ s .protohdr)
      (weight (greetingConn u ⟨.active, false⟩ s .protohdr) (.usock .streamhdr e))
      (process io (here x att c [] (greetingConn u ⟨.active, false⟩ s .protohdr))
        (.usock .streamhdr e)) := by
  have hstates : s = .sending ∨ s = .receiving := by
    cases hg with
    | sending => exact .inl rfl
    | receiving => exact .inr rfl
    | leaving hs => exact hs
  -- both states treat an error and a shutdown alike
  have herror (hu : Ended .streamhdr [] protohdr .done false u) :
      Next c x att (greetingConn u ⟨.active, false⟩ s .protohdr) 1
        (process io (here x att c [] (greetingConn u ⟨.active, false⟩ s .protohdr))
          (.usock .streamhdr .error)) := by
    have hnext := streamhdrError_next (s := s) hs Mode.open_closed (.ended .closed hu) Nat.one_pos
    rcases hstates with rfl | rfl <;> exact hnext
  cases hl with
  | received hl hlen =>
    cases hg with
    | receiving =>
      refine ⟨rfl, ?_⟩
      simp only [process, nnStreamhdrHandler, greetingConn, here_conn, here_usock]
      by_cases hok : protohdrOk u.buf = true
      · simp only [hok, if_true, nnTimerStop, here_conn, ne_eq, not_true_eq_false, if_false,
          reduceCtorEq, here_setTimer, ok_bind, here_setStreamhdr, pure_eq_ok]
        exact .stay hs (.greeted ⟨hlen, hok⟩ (.inl rfl) (.live hl)) rfl rfl Nat.one_pos
      · simp only [hok]
        exact streamhdrError_next hs Mode.open_live (.live hl) Nat.one_pos
  | sent hl =>
    cases hg with
    | sending =>
      refine ⟨rfl, ?_⟩
      obtain ⟨ues, u', heq, hl'⟩ := nnUsockRecv_line io c x att []
        (greetingConn u ⟨.active, false⟩ .sending .protohdr) (.live hl)
        protohdr.length nofun
      show Next c x att _ _ (nnUsockRecv io (here x att c []
        (greetingConn u ⟨.active, false⟩ .sending .protohdr)) protohdr.length >>= fun w =>
          pure (w.setStreamhdr .receiving))
      rw [heq]
      exact .stay hs (.greeting .receiving hl') rfl rfl (Nat.lt_succ_of_le hl'.cost_receiving)
  | ended he hu =>
    cases he with
    | error | left => exact ⟨rfl, herror hu⟩
    | shutdown =>
      refine ⟨rfl, ?_⟩
      have hok : process io (here x att c [] (greetingConn u ⟨.active, false⟩ s .protohdr))
          (.usock .streamhdr .shutdown) =
          .ok (here x att c [] (greetingConn u ⟨.active, false⟩ s .protohdr)) := by
        rcases hstates with rfl | rfl <;> rfl
      rw [hok]
      exact .stay hs (.greeting (.leaving hstates) (.ended .leaving hu)) rfl rfl Nat.one_pos
    | stop | stopped => cases hg

theorem timeout_next {s : StreamhdrState} (hs : seat x att c = .fresh) (hg : Greets s m)
    (hl : Line .streamhdr [] protohdr m [] u) :
    Next c x att (greetingConn u ⟨.active, false⟩ s .protohdr) 1
      (process io (here x att c [] (greetingConn u ⟨.active, false⟩ s .protohdr))
        (.timer .timeout)) := by
  have hnext := streamhdrError_next (s := s) hs hg.open hl Nat.one_pos
  cases hg with
  | sending | receiving => exact hnext
  | leaving hs => rcases hs with rfl | rfl <;> exact hnext

theorem refusing_next {e : UsockEvent} (hs : seat x att c = .fresh) (hm : m.Open)
    (hl : Line .streamhdr h protohdr m (e :: ues) u) :
    ues = [] ∧ Next c x att (greetingConn u ⟨.stopping, true⟩ .stoppingTimerError .protohdr)
      (weight (greetingConn u ⟨.stopping, true⟩ .stoppingTimerError .protohdr) (.usock .streamhdr e))
      (process io (here x att c [] (greetingConn u ⟨.stopping, true⟩ .stoppingTimerError .protohdr))
        (.usock .streamhdr e)) := by
  obtain ⟨rfl, m', h', hm', hl'⟩ := hl.ignore hm
  exact ⟨rfl, .stay hs (.refusing hm' hl') rfl rfl (by cases e <;> exact Nat.succ_pos _)⟩

theorem greeted_next {e : UsockEvent} (hs : seat x att c = .fresh) (hd : Accepted h)
    (hm : m.Settled) (hl : Line .streamhdr h protohdr m (e :: ues) u) :
    ues = [] ∧ Next c x att (greetingConn u ⟨.stopping, true⟩ .stoppingTimerDone .protohdr)
      (weight (greetingConn u ⟨.stopping, true⟩ .stoppingTimerDone .protohdr) (.usock .streamhdr e))
      (process io (here x att c [] (greetingConn u ⟨.stopping, true⟩ .stoppingTimerDone .protohdr))
        (.usock .streamhdr e)) := by
  rcases hm with rfl | rfl
  · cases hl with
    | ended he hu =>
      cases he with
      | error =>
        -- the end of the connection goes unnoticed
        exact ⟨rfl, .stay hs (.greeted hd (.inr rfl) (.ended .closed hu)) rfl rfl Nat.one_pos⟩
      | shutdown hw => exact absurd hw (by simp)
  · cases hl with
    | ended he _ => cases he

theorem refused_next (hs : seat x att c = .fresh) (hm : m.Open)
    (hl : Line .streamhdr h protohdr m [] u) :
    Next c x att (greetingConn u ⟨.idle, false⟩ .stoppingTimerError .protohdr) 10
      (process io (here x att c [] (greetingConn u ⟨.idle, false⟩ .stoppingTimerError .protohdr))
        (.timer .stopped)) :=
  .stay hs (.streamhdrError hm (hl.give .sipc)) rfl rfl (show 5 < 10 by decide)

theorem greetedTimer_next (hs : seat x att c = .fresh) (hd : Accepted h) (hm : m.Settled)
    (hl : Line .streamhdr h protohdr m [] u) :
    Next c x att (greetingConn u ⟨.idle, false⟩ .stoppingTimerDone .protohdr) 10
      (process io (here x att c [] (greetingConn u ⟨.idle, false⟩ .stoppingTimerDone .protohdr))
        (.timer .stopped)) :=
  .stay hs (.streamhdrOk hd hm (hl.give .sipc)) rfl rfl (show 9 < 10 by decide)

theorem idlePipe_held : idlePipe.state = .active ↔ Seat.fresh.Held := by
  simp only [idlePipe, reduceCtorEq, Seat.not_held_fresh]

theorem story_nil : Story .fresh h protohdr [] [] := ⟨nofun, (List.append_nil _).symm⟩

theorem headersRefused_next (hs : seat x att c = .fresh) (hm : m.Open)
    (hl : Line .sipc h protohdr m [] u) :
    Next c x att (greetingConn u ⟨.idle, false⟩ .done .protohdr) 5
      (process io (here x att c [] (greetingConn u ⟨.idle, false⟩ .done .protohdr))
        (.streamhdr .error)) :=
  .stay hs (.sipcDone rfl (.inr rfl) idlePipe_held story_nil hm hl) rfl rfl (show 4 < 5 by decide)

theorem headersDone_next (hs : seat x att c = .fresh) (hd : Accepted h) (hm : m.Settled)
    (hl : Line .sipc h protohdr m [] u) :
    Next c x att (greetingConn u ⟨.idle, false⟩ .done .protohdr) 9
      (process io (here x att c [] (greetingConn u ⟨.idle, false⟩ .done .protohdr))
        (.streamhdr .ok)) := by
  have hstep : process io (here x att c [] (greetingConn u ⟨.idle, false⟩ .done .protohdr))
      (.streamhdr .ok) = .ok (here x att c [.streamhdr .stopped]
        (greetingConn u ⟨.idle, false⟩ .idle .stoppingStreamhdr)) := rfl
  rw [hstep]
  exact .stay hs (.streamhdrStopped hd hm hl) rfl rfl (show 8 < 9 by decide)

/-! ## The pipe -/

theorem Inbound.start : Inbound c hdr [] none .hdr [] .async (some 9) hdr := by
  have hi : Inbound c hdr [] none .hdr [] .async (some 9) (hdr ++ frames.encode []) := .hdr
  rwa [Codec.encode_nil, List.append_nil] at hi

/-- The pipe is offered to the socket. -/
theorem headersStopped_next (hx : Seats x att) (hs : seat x att c = .fresh) (hd : Accepted h)
    (hm : m.Settled) (hl : Line .sipc h protohdr m [] u) :
    Next c x att (greetingConn u ⟨.idle, false⟩ .idle .stoppingStreamhdr) 8
      (process io (here x att c [] (greetingConn u ⟨.idle, false⟩ .idle .stoppingStreamhdr))
        (.streamhdr .stopped)) := by
  obtain ⟨hpipe, hatt⟩ := of_fresh hs
  cases hfree : x.pipe with
  | some d =>
    -- another pipe is attached
    have hstep : process io (here x att c [] (greetingConn u ⟨.idle, false⟩ .idle .stoppingStreamhdr))
        (.streamhdr .stopped) = .ok (here x att c [.sipc .error] ⟨u, ⟨.idle, false⟩, .idle,
          ⟨.done, .unset, .unset, []⟩, ⟨.failed, .async, .idle, [], []⟩, .active⟩) := by
      have hadd : nnExclAdd x c = none := by
        simp only [nnExclAdd, hfree, ne_eq, reduceCtorEq, not_false_eq_true, if_true]
      simp only [process, nnSipcHandler, nnPipebaseStart, greetingConn, idlePipe, here_conn, here_excl,
        here_self, hadd, ne_eq, not_true_eq_false, if_false, ok_bind, reduceCtorEq]
      rfl
    rw [hstep]
    exact .stay hs (.sipcDone rfl (.inl rfl) (by simp only [reduceCtorEq, Seat.not_held_fresh])
      story_nil hm.open hl) rfl rfl (show 4 < 8 by decide)
  | none =>
    have hstep : process io (here x att c [] (greetingConn u ⟨.idle, false⟩ .idle .stoppingStreamhdr))
        (.streamhdr .stopped) =
          nnUsockRecv io (here { x with pipe := some c } (att ++ [c]) c [.pipe .pipeOut]
            ⟨u, ⟨.idle, false⟩, .idle, ⟨.stoppingStreamhdr, .hdr, .unset, []⟩,
              ⟨.active, .async, .idle, [], []⟩, .active⟩) 9 >>= fun w =>
            pure (w.setSipc { w.conn.sipc with outstate := .idle, state := .active }) := by
      have hadd : nnExclAdd x c = some { x with pipe := some c } := by
        simp only [nnExclAdd, hfree, ne_eq, not_true_eq_false, if_false]
      simp only [process, nnSipcHandler, nnPipebaseStart, greetingConn, idlePipe, here_conn, here_excl,
        here_self, hadd, ne_eq, not_true_eq_false, if_false]
      rfl
    rw [hstep]
    have hseat : seat { x with pipe := some c } (att ++ [c]) c = .held none none := by
      rw [seat_held rfl, (hx.free hfree).1, (hx.free hfree).2]
    rcases hm with rfl | rfl
    · obtain ⟨ues, u', heq, hl'⟩ := nnUsockRecv_line io c
        { x with pipe := some c } (att ++ [c]) [.pipe .pipeOut]
        ⟨u, ⟨.idle, false⟩, .idle, ⟨.stoppingStreamhdr, .hdr, .unset, []⟩,
          ⟨.active, .async, .idle, [], []⟩, .active⟩ hl 9 (by simp [Event.item])
      rw [heq]
      refine .ok (.attach hfree hatt) (hseat ▸ .pipeOut hd .start ?_) rfl rfl ?_
      · rw [Codec.encode_nil, List.append_nil]
        exact hl'
      · rw [List.singleton_append, cost_cons]
        exact Nat.lt_of_le_of_lt (Nat.add_le_add_left (hl'.cost_le fun e _ => weight_sipc_le e) 1)
          (by decide)
    · rw [nnUsockRecv_closed hl]
      exact .ok (.attach hfree hatt) (hseat ▸ .deadOut hd hl) rfl rfl (show 1 < 8 by decide)

theorem pipeOut_next (hs : seat x att c = .held i none) (hd : Accepted hdr)
    (hi : Inbound c hdr recvd i instate inmsg pin want h)
    (hl : Line .sipc h (protohdr ++ frames.encode sent) (.live want false) ues u) :
    Next c x att (attachedConn u instate .idle inmsg pin .idle recvd sent)
      (cost (attachedConn u instate .idle inmsg pin .idle recvd sent)
        (.pipe .pipeOut :: ues.map (.usock .sipc)))
      (process io (here x att c (ues.map (.usock .sipc))
        (attachedConn u instate .idle inmsg pin .idle recvd sent)) (.pipe .pipeOut)) := by
  obtain ⟨hpipe, rfl, hout⟩ := pipe_of_held hs
  have hstep : process io (here x att c (ues.map (.usock .sipc))
      (attachedConn u instate .idle inmsg pin .idle recvd sent)) (.pipe .pipeOut) =
      .ok (here { x with outpipe := some c } att c (ues.map (.usock .sipc))
        (attachedConn u instate .idle inmsg pin .idle recvd sent)) := by
    simp only [process, nnExclOut, here_excl, here_self, hout, hpipe, ne_eq, not_true_eq_false, if_false]
    rfl
  rw [hstep]
  refine .ok (.signal hpipe hpipe) ?_ rfl rfl ?_
  · rw [seat_held (x := { x with outpipe := some c }) hpipe]
    exact .attached hd hi .idle hl
  · rw [cost_cons]
    exact Nat.lt_add_of_pos_left Nat.one_pos

theorem deadOut_next (hs : seat x att c = .held none none) (hd : Accepted hdr)
    (hl : Line .sipc hdr protohdr .closed [] u) :
    Next c x att (attachedConn u .hdr .idle [] .async .idle [] []) 1
      (process io (here x att c [] (attachedConn u .hdr .idle [] .async .idle [] []))
        (.pipe .pipeOut)) := by
  obtain ⟨hpipe, hin, hout⟩ := pipe_of_held hs
  have hstep : process io (here x att c [] (attachedConn u .hdr .idle [] .async .idle [] []))
      (.pipe .pipeOut) = .ok (here { x with outpipe := some c } att c []
        (attachedConn u .hdr .idle [] .async .idle [] [])) := by
    simp only [process, nnExclOut, here_excl, here_self, hout, hpipe, ne_eq, not_true_eq_false, if_false]
    rfl
  rw [hstep]
  refine .ok (.signal hpipe hpipe) ?_ rfl rfl Nat.one_pos
  rw [seat_held (x := { x with outpipe := some c }) hpipe, hin]
  exact .dead hd .idle rfl hl

theorem pipeIn_next (hs : seat x att c = .held none o) (hd : Accepted hdr) (hlen : msg.length ≤ rcvmaxsize)
    (ho : Outbound c o outstate pout sending)
    (hl : Line .sipc (hdr ++ frames.encode (recvd ++ [msg])) (protohdr ++ frames.encode sent)
      (.live none sending) [] u) :
    Next c x att (attachedConn u .hasmsg outstate msg .idle pout recvd sent) 1
      (process io (here x att c [] (attachedConn u .hasmsg outstate msg .idle pout recvd sent))
        (.pipe .pipeIn)) := by
  obtain ⟨hpipe, hin, rfl⟩ := pipe_of_held hs
  have hstep : process io (here x att c [] (attachedConn u .hasmsg outstate msg .idle pout recvd sent))
      (.pipe .pipeIn) = .ok (here { x with inpipe := some c } att c []
        (attachedConn u .hasmsg outstate msg .idle pout recvd sent)) := by
    simp only [process, nnExclIn, here_excl, here_self, hin, hpipe, ne_eq, not_true_eq_false, if_false]
    rfl
  rw [hstep]
  refine .ok (.signal hpipe hpipe) ?_ rfl rfl Nat.one_pos
  rw [seat_held (x := { x with inpipe := some c }) hpipe]
  exact .attached hd (.ready hlen) ho hl

/-! ## Frames -/

/-- What was handed over begins with the messages given out. -/
theorem Inbound.rx (hi : Inbound c hdr recvd i instate inmsg pin want h) : hdr ++ frames.encode recvd <+: h := by
  cases hi with
  | hdr => exact List.prefix_rfl
  | body => exact List.prefix_append _ _
  | ready =>
    rw [Codec.encode_append, ← List.append_assoc]
    exact List.prefix_append _ _

theorem seat_leave (hx : Seats x att) (hp : x.pipe = some c) :
    seat ⟨none, none, none⟩ att c = .left := by
  have hmem : c ∈ att := List.mem_of_getLast? (hx.last c hp)
  simp only [seat, reduceCtorEq, if_false, hmem, if_true]

theorem hdr_next (hs : seat x att c = .held none o) (hd : Accepted hdr)
    (ho : Outbound c o outstate pout sending)
    (hl : Live .sipc (hdr ++ frames.encode recvd ++ u.buf) (protohdr ++ frames.encode sent) none
      sending u) (hlen : u.buf.length = 9) :
    Next c x att (attachedConn u .hdr outstate [] .async pout recvd sent) 6
      (process io (here x att c [] (attachedConn u .hdr outstate [] .async pout recvd sent))
        (.usock .sipc .received)) := by
  by_cases hhead : u.buf.head? = some NN_SIPC_MSG_NORMAL
  swap
  · have hstep : process io (here x att c [] (attachedConn u .hdr outstate [] .async pout recvd sent))
        (.usock .sipc .received) = .error .sipcMsgNormal := by
      simp only [process, nnSipcHandler, attachedConn, here_conn, sipcReceived, here_usock, ne_eq, hhead,
        not_false_eq_true, if_true]
    rw [hstep]
    exact .bad ⟨hdr, u.buf, hd, hlen, hhead, hl.gone.rx⟩
  by_cases hmax : rcvmaxsize < hdrSize u.buf
  · have hstep : process io (here x att c [] (attachedConn u .hdr outstate [] .async pout recvd sent))
        (.usock .sipc .received) = .ok (here x att c [.sipc .error] ⟨u, ⟨.idle, false⟩, .idle,
          ⟨.done, .hdr, outstate, []⟩, ⟨.active, .async, pout, recvd, sent⟩, .active⟩) := by
      simp only [process, nnSipcHandler, attachedConn, here_conn, sipcReceived, here_usock, ne_eq, hhead,
        not_true_eq_false, if_false, hmax, if_true]
      rfl
    have hrx : hdr ++ frames.encode recvd <+: hdr ++ frames.encode recvd ++ u.buf :=
      List.prefix_append _ _
    rw [hstep]
    exact .stay hs (.sipcDone rfl (.inl rfl) ⟨fun _ => ⟨_, _, rfl⟩, fun _ => rfl⟩
      ⟨fun _ => ⟨hdr, hd, hrx⟩, rfl⟩ Mode.open_live (.live hl)) rfl rfl (show 4 < 6 by decide)
  by_cases hzero : hdrSize u.buf = 0
  · have hstep : process io (here x att c [] (attachedConn u .hdr outstate [] .async pout recvd sent))
        (.usock .sipc .received) = .ok (here x att c [.pipe .pipeIn]
          (attachedConn u .hasmsg outstate [] .idle pout recvd sent)) := by
      simp only [process, nnSipcHandler, attachedConn, here_conn, sipcReceived, here_usock, ne_eq, hhead,
        not_true_eq_false, if_false, hzero, if_true]
      rfl
    have hframe : u.buf = frame [] := by
      have hframe := inhdr_eq hlen hhead (show ([] : Msg).length = hdrSize u.buf from hzero.symm)
      rwa [List.append_nil] at hframe
    rw [hstep]
    refine .stay hs (.pipeIn hd (Nat.zero_le _) ho (.live ?_)) rfl rfl (show 1 < 6 by decide)
    rwa [Codec.encode_append, Codec.encode_singleton, ← List.append_assoc, frames_word, ← hframe]
  · have hstep : process io (here x att c [] (attachedConn u .hdr outstate [] .async pout recvd sent))
        (.usock .sipc .received) = nnUsockRecv io (here x att c []
          (attachedConn u .body outstate [] .async pout recvd sent)) (hdrSize u.buf) := by
      simp only [process, nnSipcHandler, attachedConn, here_conn, sipcReceived, here_usock, ne_eq, hhead,
        not_true_eq_false, if_false, hmax, hzero]
      rfl
    obtain ⟨ues, u', heq, hl'⟩ := nnUsockRecv_line io c x att []
      (attachedConn u .body outstate [] .async pout recvd sent) (.live hl) (hdrSize u.buf) nofun
    rw [hstep, heq]
    refine .stay hs (.attached hd (.body hlen hhead (Nat.pos_of_ne_zero hzero) (Nat.le_of_not_lt hmax))
      ho hl') rfl rfl (Nat.lt_succ_of_le (hl'.cost_le fun e _ => ?_))
    cases e <;> exact Nat.le_of_ble_eq_true rfl

theorem body_next {inhdr : List UInt8} (hs : seat x att c = .held none o) (hd : Accepted hdr)
    (hinhdr : inhdr.length = 9) (hhead : inhdr.head? = some NN_SIPC_MSG_NORMAL)
    (hmax : hdrSize inhdr ≤ rcvmaxsize) (ho : Outbound c o outstate pout sending)
    (hl : Live .sipc (hdr ++ frames.encode recvd ++ inhdr ++ u.buf) (protohdr ++ frames.encode sent)
      none sending u) (hlen : u.buf.length = hdrSize inhdr) :
    Next c x att (attachedConn u .body outstate [] .async pout recvd sent) 2
      (process io (here x att c [] (attachedConn u .body outstate [] .async pout recvd sent))
        (.usock .sipc .received)) := by
  have hstep : process io (here x att c [] (attachedConn u .body outstate [] .async pout recvd sent))
      (.usock .sipc .received) = .ok (here x att c [.pipe .pipeIn]
        (attachedConn u .hasmsg outstate u.buf .idle pout recvd sent)) := rfl
  have hframe : inhdr ++ u.buf = frame u.buf := inhdr_eq hinhdr hhead hlen
  rw [hstep]
  refine .stay hs (.pipeIn hd (hlen ▸ hmax) ho (.live ?_)) rfl rfl (show 1 < 2 by decide)
  rwa [Codec.encode_append, Codec.encode_singleton, ← List.append_assoc, frames_word, ← hframe,
    ← List.append_assoc]

/-- An attached connection whose peer is gone gives up its place. -/
theorem attached_error (hpipe : x.pipe = some c) :
    process io (here x att c [] (attachedConn u instate outstate inmsg pin pout recvd sent))
      (.usock .sipc .error) = .ok (here ⟨none, none, none⟩ att c [.sipc .error] ⟨u, ⟨.idle, false⟩,
        .idle, ⟨.done, instate, outstate, inmsg⟩, ⟨.idle, pin, pout, recvd, sent⟩, .active⟩) := by
  have hrm : nnExclRm x = .ok ⟨none, none, none⟩ := by
    simp only [nnExclRm, hpipe, reduceCtorEq, if_false]
  simp only [process, nnSipcHandler, nnPipebaseStop, attachedConn, here_conn, here_excl, hrm,
    if_true, ok_bind]
  rfl

theorem attached_next {e : UsockEvent} (hx : Seats x att) (hs : seat x att c = .held i o)
    (hd : Accepted hdr) (hi : Inbound c hdr recvd i instate inmsg pin want h)
    (ho : Outbound c o outstate pout sending)
    (hl : Line .sipc h (protohdr ++ frames.encode sent) (.live want sending) (e :: ues) u) :
    ues = [] ∧ Next c x att (attachedConn u instate outstate inmsg pin pout recvd sent)
      (weight (attachedConn u instate outstate inmsg pin pout recvd sent) (.usock .sipc e))
      (process io (here x att c [] (attachedConn u instate outstate inmsg pin pout recvd sent))
        (.usock .sipc e)) := by
  obtain ⟨hpipe, -, -⟩ := pipe_of_held hs
  have hrm : nnExclRm x = .ok ⟨none, none, none⟩ := by
    simp only [nnExclRm, hpipe, reduceCtorEq, if_false]
  have hstory : Story .left h (protohdr ++ frames.encode sent) recvd sent :=
    ⟨fun _ => ⟨hdr, hd, hi.rx⟩, rfl⟩
  cases hl with
  | received hl hlen =>
    cases hi with
    | hdr => exact ⟨rfl, hdr_next hs hd ho hl hlen⟩
    | body hinhdr hhead _ hmax => exact ⟨rfl, body_next hs hd hinhdr hhead hmax ho hl hlen⟩
  | sent hl =>
    cases ho with
    | sending =>
      exact ⟨rfl, .stay hs (.pipeOut hd hi (.live hl)) rfl rfl (show 1 < 2 by decide)⟩
  | ended he hu =>
    cases he with
    | error =>
      rw [attached_error hpipe]
      refine ⟨rfl, .ok (.leave hpipe) ?_ rfl rfl (show 4 < 5 by decide)⟩
      rw [seat_leave hx hpipe]
      exact .sipcDone rfl (.inl rfl) (by simp only [reduceCtorEq, Seat.not_held_left]) hstory
        Mode.open_closed (.ended .closed hu)
    | shutdown =>
      have hstep : process io (here x att c [] (attachedConn u instate outstate inmsg pin pout recvd sent))
          (.usock .sipc .shutdown) = .ok (here ⟨none, none, none⟩ att c [] ⟨u, ⟨.idle, false⟩,
            .idle, ⟨.shuttingDown, instate, outstate, inmsg⟩, ⟨.idle, pin, pout, recvd, sent⟩,
            .active⟩) := by
        simp only [process, nnSipcHandler, nnPipebaseStop, attachedConn, here_conn, here_excl, hrm,
          if_true, ok_bind]
        rfl
      rw [hstep]
      refine ⟨rfl, .ok (.leave hpipe) ?_ rfl rfl Nat.one_pos⟩
      rw [seat_leave hx hpipe]
      show Phase c .left (([] : List UsockEvent).map (.usock .sipc)) _
      exact .shuttingDown rfl rfl hstory (.ended .leaving hu)

/-! ## The way down -/

theorem shuttingDown_next {e : UsockEvent} {sp : Sipc} {p : Pipebase} (hs : seat x att c = .left)
    (hsp : sp.state = .shuttingDown) (hp : p.state = .idle) (hst : Story (seat x att c) h t p.recvd p.sent)
    (hl : Line .sipc h t .leaving (e :: ues) u) :
    ues = [] ∧ Next c x att ⟨u, ⟨.idle, false⟩, .idle, sp, p, .active⟩
      (weight ⟨u, ⟨.idle, false⟩, .idle, sp, p, .active⟩ (.usock .sipc e))
      (process io (here x att c [] ⟨u, ⟨.idle, false⟩, .idle, sp, p, .active⟩) (.usock .sipc e)) := by
  cases hl with
  | ended he hu =>
    cases he with
    | left =>
      have hstep : process io (here x att c [] ⟨u, ⟨.idle, false⟩, .idle, sp, p, .active⟩)
          (.usock .sipc .error) = .ok (here x att c [.sipc .error]
            ⟨u, ⟨.idle, false⟩, .idle, { sp with state := .done }, p, .active⟩) := by
        simp only [process, nnSipcHandler, here_conn, hsp]
        rfl
      rw [hstep]
      exact ⟨rfl, .stay hs (.sipcDone rfl (.inl rfl) (by simp only [hp, reduceCtorEq, Seat.not_held_left])
        (hs ▸ hst) Mode.open_closed (.ended .closed hu)) rfl rfl (show 4 < 5 by decide)⟩

theorem nnPipebaseStop_here (conn : Conn) (hx : Seats x att)
    (hp : conn.pipebase.state = .active ↔ (seat x att c).Held) : ∃ x',
    nnPipebaseStop (here x att c [] conn) =
      .ok (here x' att c [] { conn with pipebase := { conn.pipebase with state := .idle } }) ∧
      Moves c x att x' att ∧ ¬ (seat x' att c).Held ∧
        (seat x' att c ≠ .fresh → seat x att c ≠ .fresh) := by
  by_cases hactive : conn.pipebase.state = .active
  · obtain ⟨i, o, hheld⟩ := hp.mp hactive
    obtain ⟨hpipe, -, -⟩ := pipe_of_held hheld
    refine ⟨⟨none, none, none⟩, ?_, .leave hpipe, ?_, fun _ => hheld ▸ nofun⟩
    · simp only [nnPipebaseStop, here_conn, here_excl, hactive, if_true, nnExclRm, hpipe, reduceCtorEq,
        if_false, ok_bind]
      rfl
    · rw [seat_leave hx hpipe]
      exact Seat.not_held_left
  · refine ⟨x, ?_, .stay, fun hheld => hactive (hp.mpr hheld), fun h => h⟩
    simp only [nnPipebaseStop, here_conn, hactive, if_false]
    rfl

theorem sipcDone_next {streamhdr : StreamhdrState} {sp : Sipc} {p : Pipebase} (hx : Seats x att)
    (hsp : sp.state = .done) (hsh : streamhdr = .idle ∨ streamhdr = .done)
    (hp : p.state = .active ↔ (seat x att c).Held) (hst : Story (seat x att c) h t p.recvd p.sent) (hm : m.Open)
    (hl : Line .sipc h t m [] u) :
    Next c x att ⟨u, ⟨.idle, false⟩, streamhdr, sp, p, .active⟩ 4
      (process io (here x att c [] ⟨u, ⟨.idle, false⟩, streamhdr, sp, p, .active⟩) (.sipc .error)) := by
  obtain ⟨x', hstop, hmoves, hheld, hfresh⟩ := nnPipebaseStop_here
    ⟨u, ⟨.idle, false⟩, streamhdr, sp, p, .active⟩ hx hp
  have hst' : Story (seat x' att c) h t p.recvd p.sent := ⟨fun h => hst.rx (hfresh h), hst.tx⟩
  rcases hsh with rfl | rfl
  · have hstep : process io (here x att c [] ⟨u, ⟨.idle, false⟩, .idle, sp, p, .active⟩) (.sipc .error) =
        .ok (here x' att c [.sipc .stopped] ⟨{ u with owner := .aipc }, ⟨.idle, false⟩, .idle,
          { sp with state := .idle }, { p with state := .idle }, .stoppingSipc⟩) := by
      simp only [process, nnAipcHandler, nnSipcStop, here_conn, hsp, hstop, ok_bind, nnStreamhdrStop]
      rfl
    rw [hstep]
    exact .ok hmoves (.sipcStopped hheld hst' hm (hl.give .aipc)) rfl rfl (show 2 < 4 by decide)
  · have hstep : process io (here x att c [] ⟨u, ⟨.idle, false⟩, .done, sp, p, .active⟩) (.sipc .error) =
        .ok (here x' att c [.streamhdr .stopped] ⟨u, ⟨.idle, false⟩, .idle,
          { sp with state := .stopping }, { p with state := .idle }, .stoppingSipc⟩) := by
      have hstopped : nnStreamhdrIsidle (here x' att c [.streamhdr .stopped] ⟨u, ⟨.idle, false⟩, .idle,
          { sp with state := .stopping }, { p with state := .idle }, .active⟩) = false := by
        simp [nnStreamhdrIsidle, World.queued, here]
      have hsh : nnStreamhdrStop (here x' att c [] ⟨u, ⟨.idle, false⟩, .done, sp,
          { p with state := .idle }, .active⟩) = .ok (here x' att c [.streamhdr .stopped]
            ⟨u, ⟨.idle, false⟩, .idle, sp, { p with state := .idle }, .active⟩) := rfl
      simp only [process, nnAipcHandler, nnSipcStop, here_conn, hsp, hstop, ok_bind, hsh, here_setSipc, sipcStopping,
        hstopped]
      rfl
    rw [hstep]
    exact .ok hmoves (.sipcStopping rfl hheld hst' hm hl) rfl rfl (show 3 < 4 by decide)

theorem sipcStopping_next {sp : Sipc} {p : Pipebase} (hsp : sp.state = .stopping)
    (hheld : ¬ (seat x att c).Held) (hst : Story (seat x att c) h t p.recvd p.sent) (hm : m.Open)
    (hl : Line .sipc h t m [] u) :
    Next c x att ⟨u, ⟨.idle, false⟩, .idle, sp, p, .stoppingSipc⟩
      (weight ⟨u, ⟨.idle, false⟩, .idle, sp, p, .stoppingSipc⟩ (.streamhdr .stopped))
      (process io (here x att c [] ⟨u, ⟨.idle, false⟩, .idle, sp, p, .stoppingSipc⟩)
        (.streamhdr .stopped)) := by
  have hstep : process io (here x att c [] ⟨u, ⟨.idle, false⟩, .idle, sp, p, .stoppingSipc⟩)
      (.streamhdr .stopped) = .ok (here x att c [.sipc .stopped] ⟨{ u with owner := .aipc },
        ⟨.idle, false⟩, .idle, { sp with state := .idle }, p, .stoppingSipc⟩) := by
    simp only [process, nnSipcHandler, here_conn, hsp]
    rfl
  have hweight : weight ⟨u, ⟨.idle, false⟩, .idle, sp, p, .stoppingSipc⟩ (.streamhdr .stopped) = 3 := by
    simp only [weight, hsp, if_true]
  rw [hstep, hweight]
  exact .stay rfl (.sipcStopped hheld hst hm (hl.give .aipc)) rfl rfl (show 2 < 3 by decide)

theorem sipcStopped_next {sp : Sipc} {p : Pipebase} (hheld : ¬ (seat x att c).Held)
    (hst : Story (seat x att c) h t p.recvd p.sent) (hm : m.Open) (hl : Line .aipc h t m [] u) :
    Next c x att ⟨u, ⟨.idle, false⟩, .idle, sp, p, .stoppingSipc⟩ 2
      (process io (here x att c [] ⟨u, ⟨.idle, false⟩, .idle, sp, p, .stoppingSipc⟩)
        (.sipc .stopped)) := by
  obtain ⟨ues, u', heq, hl'⟩ := nnUsockStop_line c x att
    ⟨u, ⟨.idle, false⟩, .idle, sp, p, .stoppingSipc⟩ hl hm.1 hm.2
  show Next c x att _ _ (nnUsockStop (here x att c [] ⟨u, ⟨.idle, false⟩, .idle, sp, p,
    .stoppingSipc⟩) >>= fun w => pure (w.setAipc .stoppingUsock))
  rw [heq]
  refine .stay rfl (.closing hheld hst hl') rfl rfl (Nat.lt_succ_of_le (hl'.cost_le fun e he => ?_))
  cases hl' with
  | ended hends =>
    cases hends with
    | stop | stopped => cases List.mem_singleton.mp he; exact Nat.le_refl 1
    | stopping => cases he

theorem closing_next {e : UsockEvent} {sp : Sipc} {p : Pipebase} (hheld : ¬ (seat x att c).Held)
    (hst : Story (seat x att c) h t p.recvd p.sent) (hl : Line .aipc h t .stopping (e :: ues) u) :
    ues = [] ∧ Next c x att ⟨u, ⟨.idle, false⟩, .idle, sp, p, .stoppingUsock⟩
      (weight ⟨u, ⟨.idle, false⟩, .idle, sp, p, .stoppingUsock⟩ (.usock .aipc e))
      (process io (here x att c [] ⟨u, ⟨.idle, false⟩, .idle, sp, p, .stoppingUsock⟩)
        (.usock .aipc e)) := by
  cases hl with
  | ended he hu =>
    cases he with
    | stop =>
      refine ⟨rfl, .stay rfl ?_ rfl rfl Nat.one_pos⟩
      show Phase c _ (([] : List UsockEvent).map (.usock .aipc)) _
      exact .closing hheld hst (.ended .stopping hu)
    | stopped => exact ⟨rfl, .stay rfl (.done hheld hst (.ended .idle hu)) rfl rfl Nat.one_pos⟩

/-! ## All phases -/

/-- An event of the socket is the only one that waits. -/
theorem next_of_usock {owner : Owner} {e : UsockEvent}
    (hn : ues = [] ∧ Next c x att conn (weight conn (.usock owner e))
      (process io (here x att c [] conn) (.usock owner e))) :
    Next c x att conn (cost conn ((e :: ues).map (.usock owner)))
      (process io (here x att c (ues.map (.usock owner)) conn) (.usock owner e)) := by
  obtain ⟨rfl, hn⟩ := hn
  exact hn

/-- **Every event finds its machine in a state that takes it**, unless a frame has
come with a type that is not known. -/
theorem process_next {e : Event} (hx : Seats x att) (hp : Phase c (seat x att c) (e :: es) conn) :
    Next c x att conn (cost conn (e :: es)) (process io (here x att c es conn) e) := by
  generalize hs : seat x att c = s at hp
  generalize hq : e :: es = q at hp
  cases hp with
  | accepting =>
    cases hq
    exact accepting_next hs
  | @greeting _ _ ues _ hg hl =>
    cases ues with
    | nil => cases hq
    | cons e ues =>
      cases hq
      exact next_of_usock (greeting_next hs hg hl)
  | timeout hg hl =>
    cases hq
    exact timeout_next hs hg hl
  | @refusing _ _ ues _ hm hl =>
    cases ues with
    | nil => cases hq
    | cons e ues =>
      cases hq
      exact next_of_usock (refusing_next hs hm hl)
  | refused hm hl =>
    cases hq
    exact refused_next hs hm hl
  | @greeted _ _ ues _ hd hm hl =>
    cases ues with
    | nil => cases hq
    | cons e ues =>
      cases hq
      exact next_of_usock (greeted_next hs hd hm hl)
  | greetedTimer hd hm hl =>
    cases hq
    exact greetedTimer_next hs hd hm hl
  | streamhdrError hm hl =>
    cases hq
    exact headersRefused_next hs hm hl
  | streamhdrOk hd hm hl =>
    cases hq
    exact headersDone_next hs hd hm hl
  | streamhdrStopped hd hm hl =>
    cases hq
    exact headersStopped_next hx hs hd hm hl
  | @attached _ _ _ _ _ _ ues _ _ _ _ _ _ _ _ hd hi ho hl =>
    cases ues with
    | nil => cases hq
    | cons e ues =>
      cases hq
      exact next_of_usock (attached_next hx hs hd hi ho hl)
  | pipeOut hd hi hl =>
    cases hq
    exact pipeOut_next hs hd hi hl
  | pipeIn hd hlen ho hl =>
    cases hq
    exact pipeIn_next hs hd hlen ho hl
  | dead => cases hq
  | deadOut hd hl =>
    cases hq
    exact deadOut_next hs hd hl
  | @shuttingDown _ _ ues _ _ _ hsp hp hst hl =>
    cases ues with
    | nil => cases hq
    | cons e ues =>
      cases hq
      exact next_of_usock (shuttingDown_next hs hsp hp (hs ▸ hst) hl)
  | sipcDone hsp hsh hp hst hm hl =>
    cases hq
    exact sipcDone_next hx hsp hsh (hs ▸ hp) (hs ▸ hst) hm hl
  | sipcStopping hsp hheld hst hm hl =>
    cases hq
    exact sipcStopping_next hsp (hs ▸ hheld) (hs ▸ hst) hm hl
  | sipcStopped hheld hst hm hl =>
    cases hq
    exact sipcStopped_next (hs ▸ hheld) (hs ▸ hst) hm hl
  | @closing _ _ _ ues _ _ _ hheld hst hl =>
    cases ues with
    | nil => cases hq
    | cons e ues =>
      cases hq
      exact next_of_usock (closing_next (hs ▸ hheld) (hs ▸ hst) hl)
  | done => cases hq

end Nanomsg
