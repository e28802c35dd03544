import Mathlib.Data.List.Infix
import Getd.Nanomsg.Invariant

/-!
# Messages and bytes

What every run of the socket makes of the bytes of its peers. No assertion fails
but the one on the type of a frame (`run_error_frame`). What is given out from a
connection is what its bytes say, however they were cut (`recvd_parse`), and what was
taken for it is what has gone out (`tx_frames`).
-/

namespace Nanomsg

open CLib

variable {s : Sock} {c : Nat} {conn : Conn} {es : List Event} {place : Seat} {i o : Option Nat}
  {is : List (Action × Io)}

def socket : Checked Sock (Action × Io) Assert := ⟨stepSock⟩

theorem Good.step {t : Sock} (h : Good s) {i : Action × Io} (hstep : stepSock s i = .ok t) : Good t := by
  rcases stepSock_good h i with ⟨u, hu, hgood, -⟩ | ⟨hfail, -⟩
  · cases hu.symm.trans hstep
    exact hgood
  · cases hfail.symm.trans hstep

theorem run_good (h : socket.run boundSock is = .ok s) : Good s :=
  Checked.run_invariant (fun _ _ _ ht hstep => ht.step hstep) boundSock_good h

/-! ## What a phase says of the bytes -/

/-- The frames that have gone out are those of the messages taken. -/
theorem Phase.tx (hp : Phase c place es conn) :
    conn.usock.tx <+: protohdr ++ frames.encode conn.pipebase.sent := by
  have hnil : protohdr = protohdr ++ frames.encode [] := (List.append_nil _).symm
  cases hp with
  | accepting => exact List.nil_prefix
  | greeting _ hl | timeout _ hl | refusing _ hl | refused _ hl | greeted _ _ hl | greetedTimer _ _ hl
  | streamhdrError _ hl | streamhdrOk _ _ hl | streamhdrStopped _ _ hl | deadOut _ hl =>
    exact hnil ▸ hl.gone.tx
  | dead _ _ _ hl => exact hl.gone.tx.trans (List.prefix_append _ _)
  | attached _ _ _ hl | pipeOut _ _ hl | pipeIn _ _ _ hl => exact hl.gone.tx
  | shuttingDown _ _ hst hl | sipcDone _ _ _ hst _ hl | sipcStopping _ _ hst _ hl
  | sipcStopped _ hst _ hl | closing _ hst hl | done _ hst hl => exact hst.tx ▸ hl.gone.tx

/-- The peer of a connection that has been attached began with its header, and the
messages given out came behind it. -/
theorem Phase.rx (hp : Phase c place es conn) (hs : place ≠ .fresh) :
    ∃ hdr, Accepted hdr ∧ hdr ++ frames.encode conn.pipebase.recvd <+: conn.usock.rx := by
  cases hp with
  | accepting | greeting | timeout | refusing | refused | greeted | greetedTimer | streamhdrError
  | streamhdrOk | streamhdrStopped => exact absurd rfl hs
  | attached hd hi _ hl => exact ⟨_, hd, hi.rx.trans hl.gone.rx⟩
  | pipeOut hd hi hl => exact ⟨_, hd, hi.rx.trans hl.gone.rx⟩
  | @pipeIn _ hdr _ _ _ msg _ recvd _ hd _ _ hl =>
    refine ⟨hdr, hd, List.IsPrefix.trans ?_ hl.gone.rx⟩
    rw [Codec.encode_append, ← List.append_assoc]
    exact List.prefix_append _ _
  | @dead _ hdr _ _ _ _ _ hd _ _ hl =>
    exact ⟨hdr, hd, (List.append_nil hdr).symm ▸ hl.gone.rx⟩
  | @deadOut hdr _ hd hl => exact ⟨hdr, hd, (List.append_nil hdr).symm ▸ hl.gone.rx⟩
  | shuttingDown _ _ hst hl | sipcDone _ _ _ hst _ hl | sipcStopping _ _ hst _ hl
  | sipcStopped _ hst _ hl | closing _ hst hl | done _ hst hl =>
    obtain ⟨hdr, hd, hrx⟩ := hst.rx hs
    exact ⟨hdr, hd, hrx.trans hl.gone.rx⟩

/-- A frame of which the end is missing. -/
theorem next_body {inhdr buf : List UInt8} (hlen : inhdr.length = 9)
    (hbuf : buf.length < hdrSize inhdr) : frames.next (inhdr ++ buf) = none := by
  have htake : (inhdr ++ buf).take 9 = inhdr := List.take_left' hlen
  show nextFrame (inhdr ++ buf) = none
  unfold nextFrame
  dsimp only
  rw [htake]
  split
  · rfl
  · rw [if_pos]
    rw [List.length_append]
    omega

theorem Phase.drained (hp : Phase c (.held none o) [] conn) (hactive : conn.usock.state = .active) :
    ∃ hdr rest, Accepted hdr ∧ conn.usock.rx = hdr ++ frames.encode conn.pipebase.recvd ++ rest ∧
      frames.next rest = none := by
  revert hactive
  refine hp.held_cases (fun {_ hdr _ _ u _ _ _ _ _ recvd _} hd hi _ hl => fun _ => ?_)
    fun _ _ _ _ hl hactive => ?_
  · cases hl with
    | ended he => cases he
    | live hl =>
      cases hi with
      | hdr =>
        have hw : Waiting _ 9 u := hl.receives
        exact ⟨hdr, u.buf, hd, hw.rx, next_short (by have := hw.length; have := hw.pos; omega)⟩
      | @body inhdr hinhdr _ _ _ =>
        have hw : Waiting _ (hdrSize inhdr) u := hl.receives
        refine ⟨hdr, inhdr ++ u.buf, hd, ?_,
          next_body hinhdr (by have := hw.length; have := hw.pos; omega)⟩
        rw [← List.append_assoc]
        exact hw.rx
  · cases hl with
    | ended he hu =>
      cases he
      cases hu.state.symm.trans hactive

theorem Phase.flushed (hp : Phase c (.held i o) [] conn) (ho : o ≠ none)
    (hactive : conn.usock.state = .active) :
    conn.usock.tx = protohdr ++ frames.encode conn.pipebase.sent := by
  revert hactive
  refine hp.held_cases (fun {_ _ _ _ u _ _ _ _ _ _ _} _ _ hout hl => fun _ => ?_)
    fun _ _ _ _ hl hactive => ?_
  · cases hl with
    | ended he => cases he
    | live hl =>
      cases hout with
      | sending => exact absurd rfl ho
      | idle => exact Still.tx hl.sends
  · cases hl with
    | ended he hu =>
      cases he
      cases hu.state.symm.trans hactive

/-! ## Runs -/

/-- The kernel has nothing to be read and takes all. -/
def calm : Io := ⟨.again, .took 300⟩

/-- The connection `c` is accepted, and its peer sends `bytes` behind the header. -/
def greet (c : Nat) (bytes : List UInt8) : List (Action × Io) :=
  [(.accept, calm), (.event, calm), (.event, ⟨.data (protohdr ++ bytes), .took 300⟩), (.event, calm),
    (.timerTask c, calm)] ++ List.replicate 7 (.event, calm)

/-- **No assertion fails** in any run, whatever the peers send, however the kernel
answers and whichever thread comes next, but the one on the first byte of a frame. -/
theorem run_error_frame (is : List (Action × Io)) :
    (∃ s, socket.run boundSock is = .ok s) ∨
      socket.run boundSock is = .error .sipcMsgNormal ∧ ∃ js s conn, js <+: is ∧
        socket.run boundSock js = .ok s ∧ conn ∈ s.conns ∧ BadFrame conn := by
  cases hrun : socket.run boundSock is with
  | ok s => exact .inl ⟨s, rfl⟩
  | error e =>
    obtain ⟨js, i, ks, s, rfl, hjs, hstep⟩ := Checked.run_error hrun
    rcases stepSock_good (run_good hjs) i with ⟨t, ht, -⟩ | ⟨hfail, conn, hmem, hbad⟩
    · cases ht.symm.trans hstep
    · cases hfail.symm.trans hstep
      exact .inr ⟨rfl, js, s, conn, List.prefix_append _ _, hjs, hmem, hbad⟩

/-- A peer ends the process with one frame. -/
example : socket.run boundSock (greet 0 [2, 0, 0, 0, 0, 0, 0, 0, 0]) = .error .sipcMsgNormal := rfl

def visit (asked answer : Msg) : List (Action × Io) :=
  greet 0 (frame asked) ++
    [(.recv true, calm), (.send answer true, calm), (.event, calm), (.event, calm)]

def visited (asked answer : Msg) : Sock :=
  (socket.run boundSock (visit asked answer)).toOption.getD boundSock

def visitor (asked answer : Msg) : Conn := ((visited asked answer).conns[0]?).getD acceptedConn

theorem visited_seven : socket.run boundSock (visit [7] [8]) = .ok (visited [7] [8]) := rfl

theorem visitor_seven : (visited [7] [8]).conns[0]? = some (visitor [7] [8]) := rfl

theorem visitor_sent : (visitor [7] [8]).pipebase.sent = [[8]] := rfl

theorem visited_eight : socket.run boundSock (visit [8] [9]) = .ok (visited [8] [9]) := rfl

theorem visitor_eight : (visited [8] [9]).conns[0]? = some (visitor [8] [9]) := rfl

theorem Core.phase (h : Core s) (hc : s.conns[c]? = some conn) :
    ∃ es, Phase c (seat s.excl s.attached c) es conn := by
  obtain ⟨d, es, hst⟩ := h.stands
  exact ⟨_, hst.phase c conn hc⟩

theorem recvd_readable (h : Core s) (hc : s.conns[c]? = some conn) :
    ∀ msg ∈ conn.pipebase.recvd, frames.Readable msg :=
  fun msg hmsg => frames_readable (h.short c conn hc msg hmsg)

/-- The messages of a connection are frames of its bytes behind the header. -/
theorem Core.recvd_begins (h : Core s) (hc : s.conns[c]? = some conn) :
    conn.pipebase.recvd <+: (frames.parse (conn.usock.rx.drop protohdr.length)).1 := by
  obtain ⟨es, hp⟩ := h.phase hc
  by_cases hs : seat s.excl s.attached c = .fresh
  · rw [(h.fresh c conn hc (of_fresh hs).2).1]
    exact List.nil_prefix
  · obtain ⟨hdr, hd, rest, hrx⟩ := hp.rx hs
    rw [← hrx, List.append_assoc, List.drop_left' hd.1, Codec.parse_encode (recvd_readable h hc)]
    exact List.prefix_append _ _

/-- They are all that are complete, when there is nothing to be received. -/
theorem Core.recvd_all (h : Core s) (hc : s.conns[c]? = some conn) (hq : s.queue = [])
    (hpipe : s.excl.pipe = some c) (hin : s.excl.inpipe = none) (hactive : conn.usock.state = .active) :
    conn.pipebase.recvd = (frames.parse (conn.usock.rx.drop protohdr.length)).1 := by
  have hheld := h.quiet hq hc
  rw [seat_held hpipe, hin] at hheld
  obtain ⟨hdr, rest, hd, hrx, hnext⟩ := hheld.drained hactive
  rw [hrx, List.append_assoc, List.drop_left' hd.1, Codec.parse_unique (recvd_readable h hc) hnext]

theorem Core.tx_begins (h : Core s) (hc : s.conns[c]? = some conn) :
    conn.usock.tx <+: protohdr ++ frames.encode conn.pipebase.sent := by
  obtain ⟨es, hp⟩ := h.phase hc
  exact hp.tx

theorem Core.tx_all (h : Core s) (hc : s.conns[c]? = some conn) (hq : s.queue = [])
    (hpipe : s.excl.pipe = some c) (hout : s.excl.outpipe ≠ none)
    (hactive : conn.usock.state = .active) :
    conn.usock.tx = protohdr ++ frames.encode conn.pipebase.sent := by
  have hheld := h.quiet hq hc
  rw [seat_held hpipe] at hheld
  exact hheld.flushed hout hactive

/-- **What is given out is what the bytes say.** The messages of a connection are frames
of its bytes behind the header, in their order. When it is attached and has nothing to be
received they are all the frames that are complete, however the kernel cut the stream. -/
theorem recvd_parse (h : socket.run boundSock is = .ok s) (hc : s.conns[c]? = some conn) :
    conn.pipebase.recvd <+: (frames.parse (conn.usock.rx.drop protohdr.length)).1 ∧
      (s.queue = [] → s.excl.pipe = some c → s.excl.inpipe = none → conn.usock.state = .active →
        conn.pipebase.recvd = (frames.parse (conn.usock.rx.drop protohdr.length)).1) :=
  have hgood := (run_good h).toCore
  ⟨hgood.recvd_begins hc, hgood.recvd_all hc⟩

theorem recvd_parse_seven : (visitor [7] [8]).pipebase.recvd = [[7]] ∧
    (visitor [7] [8]).pipebase.recvd =
      (frames.parse ((visitor [7] [8]).usock.rx.drop protohdr.length)).1 :=
  ⟨rfl, (recvd_parse visited_seven visitor_seven).2 rfl rfl rfl rfl⟩

/-- **What goes out is what was taken.** The bytes that the kernel took are a beginning of
the header and the frames of the messages, and all of them when the pipe can be sent to. -/
theorem tx_frames (h : socket.run boundSock is = .ok s) (hc : s.conns[c]? = some conn) :
    conn.usock.tx <+: protohdr ++ frames.encode conn.pipebase.sent ∧
      (s.queue = [] → s.excl.pipe = some c → s.excl.outpipe ≠ none → conn.usock.state = .active →
        conn.usock.tx = protohdr ++ frames.encode conn.pipebase.sent) :=
  have hgood := (run_good h).toCore
  ⟨hgood.tx_begins hc, hgood.tx_all hc⟩

theorem tx_frames_seven : (visitor [7] [8]).usock.tx =
    protohdr ++ frames.encode (visitor [7] [8]).pipebase.sent :=
  (tx_frames visited_seven visitor_seven).2 rfl rfl nofun rfl

theorem parse_sent {msgs : List Msg} {bytes : List UInt8}
    (hshort : ∀ msg ∈ msgs, msg.length ≤ rcvmaxsize) (h : bytes <+: protohdr ++ frames.encode msgs) :
    (frames.parse (bytes.drop protohdr.length)).1 <+: msgs := by
  have hrest := List.IsPrefix.drop h protohdr.length
  rw [List.drop_left' rfl] at hrest
  exact Codec.parse_of_prefix (fun msg hmsg => frames_readable (hshort msg hmsg)) hrest

/-- **From one end to the other.** A socket that is fed what another has sent gives out a
beginning of the messages that the other took, and all of them once all has come and there
is nothing to be received. -/
theorem recvd_of_sent {t : Sock} {js : List (Action × Io)} {d : Nat} {peer : Conn}
    (h : socket.run boundSock is = .ok s) (hc : s.conns[c]? = some conn)
    (h' : socket.run boundSock js = .ok t) (hd : t.conns[d]? = some peer)
    (hbytes : conn.usock.rx <+: peer.usock.tx)
    (hshort : ∀ msg ∈ peer.pipebase.sent, msg.length ≤ rcvmaxsize) :
    conn.pipebase.recvd <+: peer.pipebase.sent ∧
      (s.queue = [] → s.excl.pipe = some c → s.excl.inpipe = none → conn.usock.state = .active →
        conn.usock.rx = protohdr ++ frames.encode peer.pipebase.sent →
        conn.pipebase.recvd = peer.pipebase.sent) := by
  have hgood := (run_good h).toCore
  have htx := (run_good h').tx_begins hd
  refine ⟨(hgood.recvd_begins hc).trans (parse_sent hshort (hbytes.trans htx)), ?_⟩
  intro hq hpipe hin hactive hrx
  have hread : ∀ msg ∈ peer.pipebase.sent, frames.Readable msg :=
    fun msg hmsg => frames_readable (hshort msg hmsg)
  have hparse := Codec.parse_encode hread []
  rw [List.append_nil] at hparse
  rw [hgood.recvd_all hc hq hpipe hin hactive, hrx, List.drop_left' rfl, hparse]
  exact List.append_nil _

theorem recvd_of_sent_eight :
    (visitor [8] [9]).pipebase.recvd = (visitor [7] [8]).pipebase.sent := by
  refine (recvd_of_sent visited_eight visitor_eight visited_seven visitor_seven ⟨[], rfl⟩
    fun msg hmsg => ?_).2 rfl rfl rfl rfl rfl
  rw [visitor_sent] at hmsg
  rw [List.mem_singleton.mp hmsg]
  decide

end Nanomsg
