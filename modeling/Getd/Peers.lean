import Getd.Process
import Getd.Refusal

/-!
# Peers

What one peer of the process gets. The replies it reads are those to its own messages,
but for one before them and one behind (`peer_replies`), and they are there as bytes
however the kernel cuts the stream (`peer_bytes`). A session does not end with the peer
that has opened it (`session_outlives_peer`).
-/

namespace Getd

open CLib Nanomsg

variable {g : Daemon} {p q : Process} {c : Nat} {ins : List Input} {is : List (Thread × Io)}
  {js : List (Action × Io)} {s : Sock} {att : List Nat} {conn : Conn}

/-! ## What a peer gets -/

/-- What the peer `c` sent and got, when `att` were attached before it. `before` are the rounds
of the main loop until then and `own` those with the messages of `c`. `stray` is the reply
that the one before did not take any more, and `next` the one that `c` has not taken. -/
structure Served (g : Daemon) (s : Sock) (att : List Nat) (c : Nat) (before own : List Input)
    (stray next : List Msg) : Prop where
  heard : before.map Input.recv = (att.flatMap s.recvdOn).map some
  answered : replies g before = att.flatMap s.sentOn ++ stray
  asked : own.map Input.recv = (s.recvdOn c).map some
  got : stray ++ replies (mainLoop.run g before) own = s.sentOn c ++ next
  stray_le : stray.length ≤ 1
  next_le : next.length ≤ 1

theorem Refines.served (h : Refines g p js ins) (hatt : att ++ [c] <+: p.sock.attached) :
    ∃ before own after stray next, ins = before ++ own ++ after ∧
      Served g p.sock att c before own stray next := by
  obtain ⟨before, after, stray, rfl, hbefore, hearlier, hstray⟩ :=
    h.answered att ((List.prefix_append _ _).trans hatt)
  obtain ⟨all, after', next, hins, hheard, hreplies, hnext⟩ := h.answered _ hatt
  rw [List.flatMap_append, List.flatMap_singleton, List.map_append] at hheard
  -- the rounds before `c` was attached are the first of those until it left
  have hlen : before.length ≤ all.length := by
    have hb := congrArg List.length hbefore
    have hu := congrArg List.length hheard
    simp only [List.length_append, List.length_map] at hb hu
    omega
  obtain ⟨own, rfl⟩ : before <+: all :=
    List.prefix_of_prefix_length_le ⟨after, rfl⟩ ⟨after', hins.symm⟩ hlen
  rw [List.map_append, hbefore] at hheard
  rw [replies_append, hearlier, List.flatMap_append, List.flatMap_singleton, List.append_assoc,
    List.append_assoc] at hreplies
  exact ⟨before, own, after', stray, next, hins, hbefore, hearlier, List.append_cancel_left hheard,
    List.append_cancel_left hreplies, hstray, hnext⟩

/-- **Replies go astray.** What a peer gets are the replies to its own messages, in their
order, but for two: before them may come the last reply to the messages of the peers before
it, and the last of its own may go to the next. -/
theorem peer_replies (h : process.run (start g) is = .ok p)
    (hatt : att ++ [c] <+: p.sock.attached) :
    ∃ before own stray next, Served g p.sock att c before own stray next := by
  obtain ⟨js, ins, href⟩ := run_refines h
  obtain ⟨before, own, -, stray, next, -, hserved⟩ := href.served hatt
  exact ⟨before, own, stray, next, hserved⟩

def asWorker (js : List (Action × Io)) : List (Thread × Io) := js.map fun j => (.worker j.1, j.2)

def asUser : Thread × Io := (.user (fun _ => 0) (envOf none), calm)

/-- `alice` opens a session and leaves before the reply is sent. The next peer says nothing. -/
def leaving : List (Thread × Io) :=
  asWorker (greet 0 (frame (encode0 (chars "alice")))) ++ [asUser] ++
    asWorker ((.fdErr 0, calm) :: List.replicate 10 (.event, calm)) ++ asWorker (greet 1 []) ++
    [asUser] ++ asWorker (List.replicate 2 (.event, calm))

def left : Process := (process.run (start zeroBoot) leaving).toOption.getD (start zeroBoot)

theorem left_run : process.run (start zeroBoot) leaving = .ok left :=
  ok_getD (by decide +kernel) _

theorem left_attached : [0] ++ [1] <+: left.sock.attached := by decide +kernel

/-- The reply of type 1 to `alice` goes to the next peer, which has not asked for anything. -/
theorem peer_replies_left : left.sock.recvdOn 1 = [] ∧
    (left.sock.sentOn 1).map List.head? = [some 1] ∧
    ∃ before own stray next, Served zeroBoot left.sock [0] 1 before own stray next :=
  ⟨by decide +kernel, by decide +kernel, peer_replies left_run left_attached⟩

/-! ## The bytes -/

theorem Served.sentOn_begins {before own : List Input} {stray next : List Msg}
    (h : Served g s att c before own stray next) :
    s.sentOn c <+: stray ++ replies (mainLoop.run g before) own := ⟨next, h.got.symm⟩

theorem Refines.all_got (h : Refines g p js ins) (hlast : p.sock.attached = att ++ [c])
    {before own after : List Input} {stray next : List Msg} (hins : ins = before ++ own ++ after)
    (hserved : Served g p.sock att c before own stray next) (hpacket : p.packet = none) :
    stray ++ replies (mainLoop.run g before) own = p.sock.sentOn c := by
  have hgood := (run_good h.sock).toCore
  have hflat : ∀ f : Nat → List Msg, p.sock.attached.flatMap f = att.flatMap f ++ f c := fun f => by
    rw [hlast, List.flatMap_append, List.flatMap_singleton]
  -- what `c` sent is all that was received behind the others, so `own` goes to the end
  have hafter : after = [] := by
    have hlen := congrArg List.length h.received
    have hheard := congrArg List.length hserved.heard
    have hasked := congrArg List.length hserved.asked
    rw [hgood.received, hflat, hins] at hlen
    simp only [List.length_append, List.length_map] at hlen hheard hasked
    exact List.length_eq_zero_iff.mp (by omega)
  have hsent := h.sent
  have hpending : p.pending = [] := by
    rw [Process.pending, hpacket]
    rfl
  rw [hins, hafter, List.append_nil, replies_append, hserved.answered, hgood.sent, hflat, hpending,
    List.append_nil, List.append_assoc] at hsent
  exact List.append_cancel_left hsent

theorem attached_last (h : Good s) (hatt : att ++ [c] <+: s.attached) (hpipe : s.excl.pipe = some c) :
    s.attached = att ++ [c] := by
  obtain ⟨rest, hrest⟩ := hatt
  by_cases hnil : rest = []
  · rw [← hrest, hnil, List.append_nil]
  · have hlast := h.seats.last c hpipe
    have hnd := h.seats.nodup
    rw [← hrest] at hlast hnd
    rw [List.getLast?_append_of_ne_nil _ hnil] at hlast
    exact absurd (List.mem_of_getLast? hlast)
      (List.disjoint_of_nodup_append hnd (List.mem_append_right _ List.mem_cons_self))

/-- **From bytes to bytes.** What goes out to a peer is a beginning of the header and the
frames of the replies to the frames that it sent, behind at most one that is not for it. When
there is nothing to be received or sent it is all of that, however the kernel cut the streams
and whichever thread came first. -/
theorem peer_bytes (h : process.run (start g) is = .ok p) (hatt : att ++ [c] <+: p.sock.attached)
    (hc : p.sock.conns[c]? = some conn) :
    ∃ before own stray, before.map Input.recv = (att.flatMap p.sock.recvdOn).map some ∧
      stray <:+ replies g before ∧ stray.length ≤ 1 ∧
      (∃ msgs, own.map Input.recv = msgs.map some ∧
        msgs <+: (frames.parse (conn.usock.rx.drop protohdr.length)).1) ∧
      conn.usock.tx <+:
        protohdr ++ frames.encode (stray ++ replies (mainLoop.run g before) own) ∧
      (p.sock.queue = [] → p.sock.excl = ⟨some c, none, some c⟩ → conn.usock.state = .active →
        p.packet = none →
        own.map Input.recv = (frames.parse (conn.usock.rx.drop protohdr.length)).1.map some ∧
        conn.usock.tx =
          protohdr ++ frames.encode (stray ++ replies (mainLoop.run g before) own)) := by
  obtain ⟨js, ins, href⟩ := run_refines h
  have hgood := run_good href.sock
  obtain ⟨before, own, after, stray, next, hins, hserved⟩ := href.served hatt
  have hrecvd : p.sock.recvdOn c = conn.pipebase.recvd := recvdOn_some hc
  have hsent : p.sock.sentOn c = conn.pipebase.sent := sentOn_some hc
  have hasked := hserved.asked
  rw [hrecvd] at hasked
  refine ⟨before, own, stray, hserved.heard, ⟨_, hserved.answered.symm⟩, hserved.stray_le,
    ⟨_, hasked, hgood.recvd_begins hc⟩, ?_, fun hq hexcl hactive hpacket => ⟨?_, ?_⟩⟩
  · have hpre := hserved.sentOn_begins
    rw [hsent] at hpre
    obtain ⟨rest, hrest⟩ := hpre
    refine (hgood.tx_begins hc).trans ?_
    rw [← hrest, Codec.encode_append, ← List.append_assoc]
    exact List.prefix_append _ _
  · rw [hasked, hgood.recvd_all hc hq (congrArg Excl.pipe hexcl) (congrArg Excl.inpipe hexcl) hactive]
  · have hpipe : p.sock.excl.pipe = some c := congrArg Excl.pipe hexcl
    have hout : p.sock.excl.outpipe ≠ none := by
      rw [hexcl]
      nofun
    rw [hgood.tx_all hc hq hpipe hout hactive, ← hsent,
      ← href.all_got (attached_last hgood hatt hpipe) hins hserved hpacket]

theorem left_active : (left.sock.conns[1]?).map (fun conn => conn.usock.state) = some .active := by
  decide +kernel

theorem peer_bytes_left : ∃ conn before own stray, left.sock.conns[1]? = some conn ∧
    stray.length ≤ 1 ∧
    own.map Input.recv = (frames.parse (conn.usock.rx.drop protohdr.length)).1.map some ∧
    conn.usock.tx =
      protohdr ++ frames.encode (stray ++ replies (mainLoop.run zeroBoot before) own) := by
  obtain ⟨conn, hc, hactive⟩ := Option.map_eq_some_iff.mp left_active
  obtain ⟨before, own, stray, -, -, hstray, -, -, hall⟩ := peer_bytes left_run left_attached hc
  have hquiet := hall (by decide +kernel) (by decide +kernel) hactive
    (Option.isNone_iff_eq_none.mp (by decide +kernel))
  exact ⟨conn, before, own, stray, hc, hstray, hquiet.1, hquiet.2⟩

/-! ## What a reader makes of them -/

theorem Due.size_le (d : Due) : d.size ≤ MessageType4.size := by
  cases d with
  | nothing => exact Nat.zero_le _
  | error text => exact show 272 ≤ 4244 by decide
  | issue sid => exact show 144 ≤ 4244 by decide
  | piece sid got => exact Nat.le_refl _
  | finish sid => exact show 144 ≤ 4244 by decide

theorem run_sessionInv (hg : Init g) (is : List Input) : SessionInv (mainLoop.run g is) :=
  Reachable.sessionInv ((Mealy.Reach.init hg).run is)

/-- No reply is longer than one of type 4. -/
theorem replies_short (is : List Input) {g : Daemon} (hinv : SessionInv g) :
    ∀ msg ∈ replies g is, msg.length ≤ MessageType4.size := by
  induction is generalizing g with
  | nil => nofun
  | cons i is ih =>
    intro msg hmsg
    have hcons : replies g (i :: is) = replies g [i] ++ replies (iteration g i).1 is :=
      replies_append [i] is
    rw [hcons] at hmsg
    rcases List.mem_append.mp hmsg with hmsg | hmsg
    · obtain ⟨o, ho, hb⟩ := List.mem_filterMap.mp hmsg
      obtain rfl : o = (iteration g i).2 := List.mem_singleton.mp ho
      obtain ⟨packet, hp, rfl⟩ := Option.map_eq_some_iff.mp hb
      have hsize := (handle_packet (hinv.setBuffer (nnRecv g.buffer i.recv)) hp).2.2
      rw [Packet.bytes, Mem.bytes_length, hsize]
      exact Due.size_le _
    · exact ih (iteration_follows hinv i).inv msg hmsg

/-- **Read off the stream.** Whoever takes the frames off the bytes that went out to a peer
has a beginning of the replies to the messages of that peer, behind at most one that is not
for it. -/
theorem peer_reads (h : process.run (start g) is = .ok p) (hg : Init g)
    (hatt : att ++ [c] <+: p.sock.attached) (hc : p.sock.conns[c]? = some conn) :
    ∃ before own stray next, Served g p.sock att c before own stray next ∧
      (frames.parse (conn.usock.tx.drop protohdr.length)).1 <+:
        stray ++ replies (mainLoop.run g before) own := by
  obtain ⟨js, ins, href⟩ := run_refines h
  have hgood := run_good href.sock
  obtain ⟨before, own, after, stray, next, -, hserved⟩ := href.served hatt
  refine ⟨before, own, stray, next, hserved, ?_⟩
  have hpre := hserved.sentOn_begins
  rw [sentOn_some hc] at hpre
  have hall : ∀ msg ∈ stray ++ replies (mainLoop.run g before) own,
      msg.length ≤ MessageType4.size := fun msg hmsg => by
    rcases List.mem_append.mp hmsg with hmsg | hmsg
    · refine replies_short before hg.sessionInv msg ?_
      rw [hserved.answered]
      exact List.mem_append_right _ hmsg
    · exact replies_short own (run_sessionInv hg before) msg hmsg
  have hshort : ∀ msg ∈ conn.pipebase.sent, msg.length ≤ rcvmaxsize := fun msg hmsg =>
    Nat.le_trans (hall msg (hpre.subset hmsg)) (by decide)
  exact (parse_sent hshort (hgood.tx_begins hc)).trans hpre

theorem peer_reads_left : ∃ conn before own stray next, left.sock.conns[1]? = some conn ∧
    Served zeroBoot left.sock [0] 1 before own stray next ∧
    (frames.parse (conn.usock.tx.drop protohdr.length)).1 <+:
      stray ++ replies (mainLoop.run zeroBoot before) own := by
  obtain ⟨conn, hc, -⟩ := Option.map_eq_some_iff.mp left_active
  obtain ⟨before, own, stray, next, hserved⟩ :=
    peer_reads left_run ⟨_, _, _, _, _, rfl⟩ left_attached hc
  exact ⟨conn, before, own, stray, next, hc, hserved⟩

/-! ## Sessions and peers -/

/-- A message that is of another type than 3 and 6. -/
def Outside (msg : Msg) : Prop := ∃ t, msg.head? = some t ∧ t ≠ 3 ∧ t ≠ 6

theorem view_type (buffer past : Mem) {msg : Msg} {t : UInt8} (h : msg.head? = some t) :
    Header.messageType (view (nnRecv buffer (some msg)) past) = t := by
  cases msg with
  | nil => cases h
  | cons b msg =>
    obtain rfl : b = t := Option.some.inj h
    have hpos : 0 < min (b :: msg).length 4000 := by
      rw [List.length_cons]
      omega
    show (if 0 < min (b :: msg).length 4000 then b else buffer 0) = b
    exact if_pos hpos

/-- An open session takes no note of messages from outside, and refuses them. -/
theorem outside_refused (more : List Input) : ∀ {g : Daemon} {msgs : List Msg}, SessionInv g → g.Open →
    more.map Input.recv = msgs.map some → (∀ msg ∈ msgs, Outside msg) →
      SameCore g (mainLoop.run g more) ∧ ∃ errors : List Packet,
        replies g more = errors.map Packet.bytes ∧ errors.length = more.length ∧
        ∀ packet ∈ errors, ∃ n text, packet.reply = some (.type2 MessageType2.size n text) := by
  induction more with
  | nil => exact fun _ _ _ _ => ⟨.refl _, [], rfl, rfl, nofun⟩
  | cons i more ih =>
    intro g msgs hinv ho hmsgs hout
    cases msgs with
    | nil => cases hmsgs
    | cons msg msgs =>
      obtain ⟨hi, hmore⟩ := List.cons.inj hmsgs
      obtain ⟨t, ht, h3, h6⟩ := hout msg List.mem_cons_self
      have htype : Header.messageType (view (nnRecv g.buffer i.recv) i.past) = t := by
        rw [hi]
        exact view_type g.buffer i.past ht
      have heq := handle_foreign (e := i.env) (g := { g with buffer := nnRecv g.buffer i.recv })
        (hinv.setBuffer (nnRecv g.buffer i.recv)) ho
        ⟨fun h => absurd (htype.symm.trans h) h3, fun h => absurd (htype.symm.trans h) h6⟩
        fun h => h3 (htype.symm.trans h)
      rw [htype] at heq
      have hiter : iteration g i =
          sendError { g with buffer := nnRecv g.buffer i.recv } (refusal t) := heq
      have hcore : SameCore g (iteration g i).1 := by
        rw [hiter]
        have hc := sendError_core { g with buffer := nnRecv g.buffer i.recv } (refusal t)
        exact ⟨hc.state, hc.sendFile, hc.streams, hc.rand, hc.drawn⟩
      have hreply := replyOf_error { g with buffer := nnRecv g.buffer i.recv }
        (refusal_length_lt t)
      rw [← hiter] at hreply
      obtain ⟨packet, hp, hreply⟩ := Option.bind_eq_some_iff.mp hreply
      have ho' : (iteration g i).1.Open := by
        unfold Daemon.Open
        rw [hcore.state]
        exact ho
      obtain ⟨hrun, errors, hreplies, hlength, herrors⟩ := ih (iteration_follows hinv i).inv ho' hmore
        fun m hm => hout m (List.mem_cons_of_mem _ hm)
      refine ⟨⟨hrun.state.trans hcore.state, hrun.sendFile.trans hcore.sendFile,
        hrun.streams.trans hcore.streams, hrun.rand.trans hcore.rand, hrun.drawn.trans hcore.drawn⟩,
        packet :: errors, ?_, ?_, ?_⟩
      · have hcons : replies g (i :: more) = replies g [i] ++ replies (iteration g i).1 more :=
          replies_append [i] more
        have hone : replies g [i] = [packet.bytes] := by
          show [(iteration g i).2].filterMap (fun o => o.map Packet.bytes) = _
          rw [hp]
          rfl
        rw [hcons, hone, hreplies]
        rfl
      · rw [List.length_cons, List.length_cons, hlength]
      · intro packet' hmem
        rcases List.mem_cons.mp hmem with rfl | hmem
        · exact ⟨_, _, hreply⟩
        · exact herrors packet' hmem

/-- **A session outlives its peer.** An open session ends neither with the peer that opened it
nor with any after it: in every run from there on, as long as no message of type 3 or 6 comes
from whomever is attached, the session, its user and its stream stay, and every message is
answered with an error. -/
theorem session_outlives_peer (h : process.run (start g) is = .ok p) (hg : Init g)
    (ho : p.daemon.Open) {is' : List (Thread × Io)} (hrun : process.run p is' = .ok q)
    (hout : ∀ msg ∈ q.sock.received.drop p.sock.received.length, Outside msg) :
    q.daemon.Open ∧ q.daemon.state = p.daemon.state ∧ q.daemon.sendFile = p.daemon.sendFile ∧
      q.daemon.streams = p.daemon.streams ∧ ∃ errors : List Packet,
        q.sock.sent ++ q.pending = p.sock.sent ++ p.pending ++ errors.map Packet.bytes ∧
        errors.length = (q.sock.received.drop p.sock.received.length).length ∧
        ∀ packet ∈ errors, ∃ n text, packet.reply = some (.type2 MessageType2.size n text) := by
  obtain ⟨js, ins, href⟩ := run_refines h
  obtain ⟨js', more, href'⟩ := href.run hrun
  have hinv : SessionInv p.daemon := by
    rw [href.daemon]
    exact run_sessionInv hg ins
  have hmore : more.map Input.recv = (q.sock.received.drop p.sock.received.length).map some := by
    have hall := congrArg (List.drop ins.length) href'.received
    have hlen := congrArg List.length href.received
    rw [List.length_map, List.length_map] at hlen
    rw [← List.map_drop, List.drop_left, hlen, ← List.map_drop] at hall
    exact hall
  obtain ⟨hcore, errors, hreplies, hlength, herrors⟩ := outside_refused more hinv ho hmore hout
  have hdaemon : q.daemon = mainLoop.run p.daemon more := by
    rw [href'.daemon, href.daemon, Mealy.run_append]
  rw [hdaemon]
  refine ⟨?_, hcore.state, hcore.sendFile, hcore.streams, errors, ?_, ?_, herrors⟩
  · unfold Daemon.Open
    rw [hcore.state]
    exact ho
  · rw [← href'.sent, replies_append, href.sent, ← href.daemon, hreplies]
  · have hlen := congrArg List.length hmore
    rw [List.length_map, List.length_map] at hlen
    exact hlength.trans hlen

def opening : List (Thread × Io) :=
  asWorker (greet 0 (frame (encode0 (chars "alice")))) ++ [asUser]

def opened : Process := (process.run (start zeroBoot) opening).toOption.getD (start zeroBoot)

theorem opened_run : process.run (start zeroBoot) opening = .ok opened := ok_getD (by decide +kernel) _

def asking : List (Thread × Io) :=
  asWorker ((.fdErr 0, calm) :: List.replicate 10 (.event, calm)) ++
    asWorker (greet 1 (frame (encode0 (chars "bob")))) ++
    [asUser] ++ asWorker (List.replicate 2 (.event, calm)) ++ [asUser]

def asked : Process := (process.run opened asking).toOption.getD opened

theorem asked_run : process.run opened asking = .ok asked := ok_getD (by decide +kernel) _

theorem asked_received : asked.sock.received.drop opened.sock.received.length =
    [encode0 (chars "bob")] := by decide +kernel

theorem session_outlives_peer_bob : asked.sock.excl.pipe = some 1 ∧
    asked.daemon.state = opened.daemon.state := by
  refine ⟨by decide +kernel, (session_outlives_peer opened_run ⟨_, _, _, _, _, rfl⟩
    (.inl (by decide +kernel)) asked_run fun msg hmsg => ?_).2.1⟩
  rw [asked_received, List.mem_singleton] at hmsg
  exact hmsg ▸ ⟨0, rfl, by decide, by decide⟩

end Getd
