import Mathlib.Data.List.Nodup
import Getd.Nanomsg.Frames
import Getd.Nanomsg.Line

/-!
# The phases of a connection

`Phase c s es conn` lists how the connection `c` can stand whose events `es` wait in
the queue and whose place at the `NN_PAIR` socket is `s`: it is accepted, it exchanges
headers, it is attached, it is taken down from the top of the stack to the socket.
One phase is not meant to be: when the peer leaves while the timer of the headers is
being stopped, nobody takes note, and the connection is attached with a closed socket
(`dead`).
-/

namespace Nanomsg

open CLib

/-! ## Places -/

/-- The place of a connection at the socket: not yet attached, attached with the
pipes that can be received from and sent to, or attached no more. -/
inductive Seat
  | fresh
  | held (inpipe outpipe : Option Nat)
  | left

def Seat.Held (s : Seat) : Prop := ∃ i o, s = .held i o

theorem Seat.not_held_fresh : ¬ Seat.fresh.Held := nofun

theorem Seat.not_held_left : ¬ Seat.left.Held := nofun

def seat (x : Excl) (att : List Nat) (c : Nat) : Seat :=
  if x.pipe = some c then .held x.inpipe x.outpipe else if c ∈ att then .left else .fresh

structure Seats (x : Excl) (att : List Nat) : Prop where
  nodup : att.Nodup
  last : ∀ c, x.pipe = some c → att.getLast? = some c
  free : x.pipe = none → x.inpipe = none ∧ x.outpipe = none

/-- What one step of the connection `c` does to the places. -/
inductive Moves (c : Nat) : Excl → List Nat → Excl → List Nat → Prop
  | stay {x : Excl} {att : List Nat} : Moves c x att x att
  | signal {x x' : Excl} {att : List Nat} : x.pipe = some c → x'.pipe = some c → Moves c x att x' att
  | attach {x : Excl} {att : List Nat} : x.pipe = none → c ∉ att →
    Moves c x att { x with pipe := some c } (att ++ [c])
  | leave {x : Excl} {att : List Nat} : x.pipe = some c → Moves c x att ⟨none, none, none⟩ att

variable {x x' : Excl} {att att' : List Nat} {c d : Nat}

theorem seat_held (hx : x.pipe = some c) : seat x att c = .held x.inpipe x.outpipe := if_pos hx

theorem pipe_of_held {i o : Option Nat} (hs : seat x att c = .held i o) :
    x.pipe = some c ∧ x.inpipe = i ∧ x.outpipe = o := by
  unfold seat at hs
  split at hs
  · rename_i hx
    obtain ⟨rfl, rfl⟩ : x.inpipe = i ∧ x.outpipe = o := by simpa using hs
    exact ⟨hx, rfl, rfl⟩
  · split at hs <;> cases hs

theorem of_fresh (hs : seat x att c = .fresh) : x.pipe ≠ some c ∧ c ∉ att := by
  unfold seat at hs
  split at hs
  · cases hs
  · rename_i hx
    split at hs
    · cases hs
    · rename_i hatt
      exact ⟨hx, hatt⟩

/-- The other connections keep their places. -/
theorem Moves.others (hm : Moves c x att x' att') (hd : d ≠ c) : seat x' att' d = seat x att d := by
  have hne : (some c : Option Nat) ≠ some d := fun h => hd (Option.some.inj h).symm
  cases hm with
  | stay => rfl
  | signal h h' => simp only [seat, h, h', if_neg hne]
  | attach h _ => simp only [seat, h, if_neg hne, reduceCtorEq, if_false, List.mem_append,
      List.mem_singleton, hd, or_false]
  | leave h => simp only [seat, h, if_neg hne, reduceCtorEq, if_false]

theorem Moves.seats (hm : Moves c x att x' att') (hs : Seats x att) : Seats x' att' := by
  cases hm with
  | stay => exact hs
  | signal h h' => exact ⟨hs.nodup, fun d hd => by rw [hs.last c h, ← h', hd],
      fun hn => by rw [h'] at hn; cases hn⟩
  | attach h hc =>
    refine ⟨hs.nodup.append (List.nodup_singleton c) (List.disjoint_singleton.mpr hc), ?_, nofun⟩
    rintro d hd
    rw [List.getLast?_append, ← hd]
    rfl
  | leave h => exact ⟨hs.nodup, nofun, fun _ => ⟨rfl, rfl⟩⟩

/-! ## The two directions of an attached connection -/

/-- The header that a peer has to begin with. -/
def Accepted (hdr : List UInt8) : Prop := hdr.length = protohdr.length ∧ protohdrOk hdr = true

/-- The receiving side, when the messages `recvd` have been given out: what `sipc`
and the pipe are at, what the socket waits for, and what it has handed over. -/
inductive Inbound (c : Nat) (hdr : List UInt8) (recvd : List Msg) :
    Option Nat → SipcInstate → Msg → PipeInstate → Option Nat → List UInt8 → Prop
  | hdr : Inbound c hdr recvd none .hdr [] .async (some 9) (hdr ++ frames.encode recvd)
  | body {inhdr : List UInt8} : inhdr.length = 9 → inhdr.head? = some NN_SIPC_MSG_NORMAL →
    0 < hdrSize inhdr → hdrSize inhdr ≤ rcvmaxsize →
    Inbound c hdr recvd none .body [] .async (some (hdrSize inhdr))
      (hdr ++ frames.encode recvd ++ inhdr)
  | ready {msg : Msg} : msg.length ≤ rcvmaxsize →
    Inbound c hdr recvd (some c) .hasmsg msg .idle none (hdr ++ frames.encode (recvd ++ [msg]))

inductive Outbound (c : Nat) : Option Nat → SipcOutstate → PipeOutstate → Bool → Prop
  | idle : Outbound c (some c) .idle .idle false
  | sending : Outbound c none .sending .async true

/-- What has been handed over and sent on a connection that gave out `recvd` and took
`sent`. The peer of a connection that has been attached began with its header. -/
structure Story (s : Seat) (h t : List UInt8) (recvd sent : List Msg) : Prop where
  rx : s ≠ .fresh → ∃ hdr, Accepted hdr ∧ hdr ++ frames.encode recvd <+: h
  tx : t = protohdr ++ frames.encode sent

/-! ## Phases -/

/-- The two states of the exchange of headers, with what is asked of the socket. -/
inductive Greets : StreamhdrState → Mode → Prop
  | sending : Greets .sending (.live none true)
  | receiving : Greets .receiving (.live (some protohdr.length) false)
  | leaving {s : StreamhdrState} : s = .sending ∨ s = .receiving → Greets s .leaving

/-- The owner has not begun to close the socket. -/
def Mode.Open (m : Mode) : Prop := m ≠ .stopping ∧ m ≠ .idle

theorem Mode.open_live {want : Option Nat} {sending : Bool} : (Mode.live want sending).Open :=
  ⟨nofun, nofun⟩

theorem Mode.open_leaving : Mode.leaving.Open := ⟨nofun, nofun⟩

theorem Mode.open_closed : Mode.closed.Open := ⟨nofun, nofun⟩

theorem Greets.open {s : StreamhdrState} {m : Mode} (hg : Greets s m) : m.Open := by
  cases hg with
  | sending | receiving => exact Mode.open_live
  | leaving => exact Mode.open_leaving

/-- The headers are exchanged, or the peer has left. -/
def Mode.Settled (m : Mode) : Prop := m = .live none false ∨ m = .closed

theorem Mode.Settled.open {m : Mode} (hm : m.Settled) : m.Open := by
  rcases hm with rfl | rfl
  · exact Mode.open_live
  · exact Mode.open_closed

def idlePipe : Pipebase := ⟨.idle, .deactivated, .deactivated, [], []⟩

def greetingConn (u : Usock) (timer : Timer) (streamhdr : StreamhdrState) (s : SipcState) : Conn :=
  ⟨u, timer, streamhdr, ⟨s, .unset, .unset, []⟩, idlePipe, .active⟩

def attachedConn (u : Usock) (instate : SipcInstate) (outstate : SipcOutstate) (inmsg : Msg)
    (pin : PipeInstate) (pout : PipeOutstate) (recvd sent : List Msg) : Conn :=
  ⟨u, ⟨.idle, false⟩, .idle, ⟨.active, instate, outstate, inmsg⟩, ⟨.active, pin, pout, recvd, sent⟩,
    .active⟩

inductive Phase (c : Nat) : Seat → List Event → Conn → Prop
  | accepting : Phase c .fresh [.usock .aipc .accepted] acceptedConn
  | greeting {streamhdr : StreamhdrState} {m : Mode} {es : List UsockEvent} {u : Usock} :
    Greets streamhdr m → Line .streamhdr [] protohdr m es u →
    Phase c .fresh (es.map (.usock .streamhdr)) (greetingConn u ⟨.active, false⟩ streamhdr .protohdr)
  | timeout {streamhdr : StreamhdrState} {m : Mode} {u : Usock} :
    Greets streamhdr m → Line .streamhdr [] protohdr m [] u →
    Phase c .fresh [.timer .timeout] (greetingConn u ⟨.active, false⟩ streamhdr .protohdr)
  | refusing {m : Mode} {h : List UInt8} {es : List UsockEvent} {u : Usock} :
    m.Open → Line .streamhdr h protohdr m es u → Phase c .fresh (es.map (.usock .streamhdr))
      (greetingConn u ⟨.stopping, true⟩ .stoppingTimerError .protohdr)
  | refused {m : Mode} {h : List UInt8} {u : Usock} :
    m.Open → Line .streamhdr h protohdr m [] u → Phase c .fresh [.timer .stopped]
      (greetingConn u ⟨.idle, false⟩ .stoppingTimerError .protohdr)
  | greeted {hdr : List UInt8} {m : Mode} {es : List UsockEvent} {u : Usock} :
    Accepted hdr → m.Settled → Line .streamhdr hdr protohdr m es u →
    Phase c .fresh (es.map (.usock .streamhdr))
      (greetingConn u ⟨.stopping, true⟩ .stoppingTimerDone .protohdr)
  | greetedTimer {hdr : List UInt8} {m : Mode} {u : Usock} :
    Accepted hdr → m.Settled → Line .streamhdr hdr protohdr m [] u → Phase c .fresh [.timer .stopped]
      (greetingConn u ⟨.idle, false⟩ .stoppingTimerDone .protohdr)
  | streamhdrError {m : Mode} {h : List UInt8} {u : Usock} :
    m.Open → Line .sipc h protohdr m [] u →
    Phase c .fresh [.streamhdr .error] (greetingConn u ⟨.idle, false⟩ .done .protohdr)
  | streamhdrOk {hdr : List UInt8} {m : Mode} {u : Usock} :
    Accepted hdr → m.Settled → Line .sipc hdr protohdr m [] u →
    Phase c .fresh [.streamhdr .ok] (greetingConn u ⟨.idle, false⟩ .done .protohdr)
  | streamhdrStopped {hdr : List UInt8} {m : Mode} {u : Usock} :
    Accepted hdr → m.Settled → Line .sipc hdr protohdr m [] u →
    Phase c .fresh [.streamhdr .stopped] (greetingConn u ⟨.idle, false⟩ .idle .stoppingStreamhdr)
  | attached {i o want : Option Nat} {hdr h : List UInt8} {sending : Bool} {es : List UsockEvent}
    {u : Usock} {instate : SipcInstate} {outstate : SipcOutstate} {inmsg : Msg} {pin : PipeInstate}
    {pout : PipeOutstate} {recvd sent : List Msg} :
    Accepted hdr → Inbound c hdr recvd i instate inmsg pin want h → Outbound c o outstate pout sending →
    Line .sipc h (protohdr ++ frames.encode sent) (.live want sending) es u →
    Phase c (.held i o) (es.map (.usock .sipc))
      (attachedConn u instate outstate inmsg pin pout recvd sent)
  /-- The pipe can be sent to, and the socket has not been told. -/
  | pipeOut {i want : Option Nat} {hdr h : List UInt8} {es : List UsockEvent}
    {u : Usock} {instate : SipcInstate} {inmsg : Msg} {pin : PipeInstate}
    {recvd sent : List Msg} :
    Accepted hdr → Inbound c hdr recvd i instate inmsg pin want h →
    Line .sipc h (protohdr ++ frames.encode sent) (.live want false) es u →
    Phase c (.held i none) (.pipe .pipeOut :: es.map (.usock .sipc))
      (attachedConn u instate .idle inmsg pin .idle recvd sent)
  /-- The pipe can be received from, and the socket has not been told. -/
  | pipeIn {o : Option Nat} {hdr : List UInt8} {sending : Bool} {u : Usock} {outstate : SipcOutstate}
    {msg : Msg} {pout : PipeOutstate} {recvd sent : List Msg} :
    Accepted hdr → msg.length ≤ rcvmaxsize → Outbound c o outstate pout sending →
    Line .sipc (hdr ++ frames.encode (recvd ++ [msg])) (protohdr ++ frames.encode sent)
      (.live none sending) [] u →
    Phase c (.held none o) [.pipe .pipeIn]
      (attachedConn u .hasmsg outstate msg .idle pout recvd sent)
  /-- Attached with a closed socket. -/
  | dead {o : Option Nat} {hdr : List UInt8} {sending : Bool} {u : Usock} {outstate : SipcOutstate}
    {pout : PipeOutstate} {sent : List Msg} :
    Accepted hdr → Outbound c o outstate pout sending → sent.length = sending.toNat →
    Line .sipc hdr protohdr .closed [] u →
    Phase c (.held none o) [] (attachedConn u .hdr outstate [] .async pout [] sent)
  | deadOut {hdr : List UInt8} {u : Usock} : Accepted hdr → Line .sipc hdr protohdr .closed [] u →
    Phase c (.held none none) [.pipe .pipeOut] (attachedConn u .hdr .idle [] .async .idle [] [])
  | shuttingDown {h t : List UInt8} {es : List UsockEvent} {u : Usock} {sp : Sipc} {p : Pipebase} :
    sp.state = .shuttingDown → p.state = .idle → Story .left h t p.recvd p.sent →
    Line .sipc h t .leaving es u →
    Phase c .left (es.map (.usock .sipc)) ⟨u, ⟨.idle, false⟩, .idle, sp, p, .active⟩
  | sipcDone {s : Seat} {h t : List UInt8} {m : Mode} {u : Usock} {streamhdr : StreamhdrState}
    {sp : Sipc} {p : Pipebase} :
    sp.state = .done → streamhdr = .idle ∨ streamhdr = .done → (p.state = .active ↔ s.Held) →
    Story s h t p.recvd p.sent → m.Open → Line .sipc h t m [] u →
    Phase c s [.sipc .error] ⟨u, ⟨.idle, false⟩, streamhdr, sp, p, .active⟩
  | sipcStopping {s : Seat} {h t : List UInt8} {m : Mode} {u : Usock} {sp : Sipc} {p : Pipebase} :
    sp.state = .stopping → ¬ s.Held → Story s h t p.recvd p.sent → m.Open → Line .sipc h t m [] u →
    Phase c s [.streamhdr .stopped] ⟨u, ⟨.idle, false⟩, .idle, sp, p, .stoppingSipc⟩
  | sipcStopped {s : Seat} {h t : List UInt8} {m : Mode} {u : Usock} {sp : Sipc} {p : Pipebase} :
    ¬ s.Held → Story s h t p.recvd p.sent → m.Open → Line .aipc h t m [] u →
    Phase c s [.sipc .stopped] ⟨u, ⟨.idle, false⟩, .idle, sp, p, .stoppingSipc⟩
  | closing {s : Seat} {h t : List UInt8} {es : List UsockEvent} {u : Usock} {sp : Sipc}
    {p : Pipebase} : ¬ s.Held → Story s h t p.recvd p.sent → Line .aipc h t .stopping es u →
    Phase c s (es.map (.usock .aipc)) ⟨u, ⟨.idle, false⟩, .idle, sp, p, .stoppingUsock⟩
  | done {s : Seat} {h t : List UInt8} {u : Usock} {sp : Sipc} {p : Pipebase} :
    ¬ s.Held → Story s h t p.recvd p.sent → Line .aipc h t .idle [] u →
    Phase c s [] ⟨u, ⟨.idle, false⟩, .idle, sp, p, .done⟩

end Nanomsg
