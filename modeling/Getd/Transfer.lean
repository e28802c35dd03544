import Getd.Refusal
import Getd.Authentication

/-!
# A file transfer

A request that is accepted, and then one acknowledgement for each piece: the
pieces of the replies are the file, and the acknowledgement of the last piece
closes it (`file_transfer`). `Serving` is the daemon between two pieces. What
the messages in between that every open session refuses do to it is nothing.
-/

namespace Getd

open CLib Protocol

variable {e : Env} {m : Mem} {g : Daemon} {sid F : List UInt8} {h k c : Nat}

/-! ## The pieces -/

def Reply.content : Reply → List UInt8
  | type4 _ _ _ _ content => content
  | _ => []

def Reply.contentLength : Reply → Nat
  | type4 _ _ contentLength _ _ => contentLength
  | _ => 0

/-- The replies of type 4 among the answers. -/
def sentPieces (answers : List (Option Reply)) : List Reply :=
  (answers.filterMap id).filter fun r => r.type == 4

/-- The reply that carries the `k`-th piece of `F`. -/
def piece (sid F : List UInt8) (k : Nat) : Reply :=
  .type4 MessageType4.size sid.length (block 4096 F k).length sid (block 4096 F k)

theorem sentPieces_append (as bs : List (Option Reply)) :
    sentPieces (as ++ bs) = sentPieces as ++ sentPieces bs := by
  unfold sentPieces
  rw [List.filterMap_append, List.filter_append]

theorem sentPieces_piece (as : List (Option Reply)) :
    sentPieces (some (piece sid F k) :: as) = piece sid F k :: sentPieces as := rfl

theorem sentPieces_error (as : List (Option Reply)) {n l : Nat} {text : List UInt8} :
    sentPieces (some (.type2 n l text) :: as) = sentPieces as := rfl

/-! ## Reading a piece -/

/-- The daemon has sent `k` pieces of `F` from the stream `h`. -/
structure Serving (sid F : List UInt8) (h k : Nat) (g : Daemon) : Prop where
  lastSent : g.state.lastSent = 4
  terminated : g.state.Terminated
  sid : g.state.sid = sid
  sendFile : g.sendFile = some h
  stream : ∃ f, g.streams[h]? = some f ∧ f.closed = false ∧ f.stream.data = F ∧
    f.stream.AtBlock 4096 k

theorem Serving.core {g' : Daemon} (hv : Serving sid F h k g) (hc : SameCore g g') :
    Serving sid F h k g' := by
  refine ⟨?_, ?_, ?_, hc.sendFile.trans hv.sendFile, ?_⟩
  · rw [hc.state]; exact hv.lastSent
  · rw [hc.state]; exact hv.terminated
  · rw [hc.state]; exact hv.sid
  · rw [hc.streams]; exact hv.stream

theorem Serving.inv (hv : Serving sid F h k g) : SessionInv g :=
  .of_terminated (.inr hv.lastSent) hv.terminated

theorem serve_piece {f : OpenFile} (ht : g.state.Terminated) (hs : g.sendFile = some h)
    (hf : g.streams[h]? = some f) (hcl : f.closed = false) (hat : f.stream.AtBlock 4096 k)
    (hk : k ≤ f.stream.data.length / 4096) :
    replyOf (nnSend (messegeType4Builder e g)) = some (piece g.state.sid f.stream.data k) ∧
      Serving g.state.sid f.stream.data h (k + 1) (nnSend (messegeType4Builder e g)).1 := by
  refine ⟨?_, ?_⟩
  · rw [replyOf_type4 ht, got_stream hs hf, hat.fread_block hk]; rfl
  · rw [nnSend_type4 ht]
    exact ⟨rfl, ht, rfl, (readBlock_sendFile _).trans hs, _, readBlock_stream hs hf, hcl,
      Stream.next_data _ _, hat.next (by decide) hk⟩

/-! ## The steps of a transfer -/

/-- A message that every session open under `sid` refuses. -/
def Refused (sid : List UInt8) (m : Mem) : Prop :=
  Header.messageType m = 0 ∨
    (Header.messageType m = 6 ∧ ¬ Spells (MessageType6.sessionId m) sid) ∨
    (Header.messageType m ≠ 0 ∧ Header.messageType m ≠ 3 ∧ Header.messageType m ≠ 6)

theorem Refused.foreign (hr : Refused g.state.sid m) :
    Foreign m g ∧ Header.messageType m ≠ 3 := by
  have h0 : (0 : UInt8) ≠ 3 := by decide
  have h6 : (6 : UInt8) ≠ 3 := by decide
  rcases hr with ht | ⟨ht, hn⟩ | ⟨-, ht, ht'⟩
  · refine ⟨⟨?_, ?_⟩, ?_⟩ <;> rw [ht]
    · exact fun h => absurd h h0
    · exact fun h => absurd h (by decide)
    · exact h0
  · refine ⟨⟨?_, fun _ => hn⟩, ?_⟩ <;> rw [ht]
    · exact fun h => absurd h h6
    · exact h6
  · exact ⟨⟨fun h => absurd h ht, fun h => absurd h ht'⟩, ht⟩

theorem handle_refused (hinv : SessionInv g) (ho : g.Open) (hr : Refused g.state.sid m) :
    SameCore g (handle e m g).1 ∧
      ∃ n text, replyOf (handle e m g) = some (.type2 MessageType2.size n text) := by
  rw [handle_foreign hinv ho hr.foreign.1 hr.foreign.2]
  exact ⟨sendError_core g _, _, _, replyOf_error g (refusal_length_lt _)⟩

theorem handle_start (hinv : SessionInv g) (hl : g.state.lastSent = 1) (ha : Auth3 e m g)
    {file : File} (hf : e.fopen (pathOf m) = some file) (hreg : file.isReg = true)
    (hok : ∀ f ∈ file.faults, f = none) :
    replyOf (handle e m g) = some (piece g.state.sid file.data 0) ∧
      Serving g.state.sid file.data g.streams.length 1 (handle e m g).1 := by
  have hstate : (g.fopen e (pathOf m)).fstat.state = g.state := fopen_state _
  have hserve := serve_piece (e := e) (k := 0) (hinv.starting hl _) (fopen_sendFile hf)
    (fopen_stream hf) rfl (.opened 4096 file.data hok) (Nat.zero_le _)
  rw [hstate] at hserve
  rw [(Exit.start3 ha hl file hf hreg).handle_eq]
  exact hserve

theorem handle_piece (hv : Serving sid F h k g) (hk : k ≤ F.length / 4096)
    (ha : Acknowledges m sid.length sid) :
    replyOf (handle e m g) = some (piece sid F k) ∧
      Serving sid F h (k + 1) (handle e m g).1 := by
  obtain ⟨f, hf, hcl, hd, hat⟩ := hv.stream
  have hauth : Auth6 e m g := acknowledges_auth6 ha hv.terminated hv.sid.symm rfl
  have heof : g.atEof = false := by
    rw [atEof_stream hv.sendFile hf, hat.eof, hd]
    exact decide_eq_false (Nat.not_lt.mpr hk)
  have hserve := serve_piece (e := e) (g := (g.setLastRecieved 6).feof) (hv.terminated.congr rfl)
    hv.sendFile hf hcl hat (hd ▸ hk)
  have hsid : (g.setLastRecieved 6).feof.state.sid = sid := (State.sid_congr rfl).trans hv.sid
  rw [hsid, hd] at hserve
  rw [(Exit.more6 hauth hv.lastSent heof).handle_eq]
  exact hserve

/-- `c` acknowledgements, with refused messages anywhere among them. -/
inductive Acks (sid : List UInt8) : Nat → List (Env × Mem) → Prop where
  | nil : Acks sid 0 []
  | refused {c : Nat} {x : Env × Mem} {ms : List (Env × Mem)} (hr : Refused sid x.2)
      (h : Acks sid c ms) : Acks sid c (x :: ms)
  | ack {c : Nat} {x : Env × Mem} {ms : List (Env × Mem)}
      (ha : Acknowledges x.2 sid.length sid) (h : Acks sid c ms) : Acks sid (c + 1) (x :: ms)

theorem Acks.left {as bs : List (Env × Mem)} (ha : Acks sid c (as ++ bs)) :
    ∃ c' ≤ c, Acks sid c' as := by
  induction as generalizing c with
  | nil => exact ⟨0, Nat.zero_le _, .nil⟩
  | cons x as ih =>
    cases ha with
    | refused hr h =>
      obtain ⟨c', hle, h'⟩ := ih h
      exact ⟨c', hle, .refused hr h'⟩
    | ack ha h =>
      obtain ⟨c', hle, h'⟩ := ih h
      exact ⟨c' + 1, Nat.succ_le_succ hle, .ack ha h'⟩

/-- `c` acknowledgements get the next `c` pieces. -/
theorem Serving.run {ms : List (Env × Mem)} (ha : Acks sid c ms) : ∀ {k : Nat} {g : Daemon},
    Serving sid F h k g → k + c ≤ F.length / 4096 + 1 →
      Serving sid F h (k + c) (handlers.run g ms) ∧
        sentPieces (handlers.outs g ms) = (List.range' k c).map (piece sid F) := by
  induction ha with
  | nil => exact fun hv _ => ⟨hv, rfl⟩
  | @refused c x ms hr _ ih =>
    intro k g hv hk
    obtain ⟨hcore, n, text, hreply⟩ := handle_refused (e := x.1) hv.inv (.inr hv.lastSent)
      (hv.sid.symm ▸ hr)
    obtain ⟨hrun, houts⟩ := ih (hv.core hcore) hk
    refine ⟨hrun, ?_⟩
    rw [handlers_outs_cons, hreply, sentPieces_error]
    exact houts
  | @ack c x ms ha _ ih =>
    intro k g hv hk
    obtain ⟨hreply, hv'⟩ := handle_piece (e := x.1) hv (by omega) ha
    obtain ⟨hrun, houts⟩ := ih hv' (by omega)
    rw [Nat.add_right_comm] at hrun
    refine ⟨hrun, ?_⟩
    rw [handlers_outs_cons, hreply, sentPieces_piece, houts, List.range'_succ, List.map_cons]

/-- Refused messages leave the session where it is. -/
theorem refused_run {ms : List (Env × Mem)} : ∀ {g : Daemon}, SessionInv g → g.Open →
    (∀ x ∈ ms, Refused g.state.sid x.2) →
      SameCore g (handlers.run g ms) ∧ sentPieces (handlers.outs g ms) = [] := by
  induction ms with
  | nil => exact fun _ _ _ => ⟨.refl _, rfl⟩
  | cons x ms ih =>
    intro g hinv ho hr
    obtain ⟨hcore, n, text, hreply⟩ := handle_refused (e := x.1) hinv ho (hr x List.mem_cons_self)
    have hs := hcore.state
    have ho' : (handle x.1 x.2 g).1.Open := by unfold Daemon.Open; rw [hs]; exact ho
    obtain ⟨hrun, houts⟩ := ih (hinv.congr hs) ho' fun y hy => by
      rw [hs]; exact hr y (List.mem_cons_of_mem _ hy)
    refine ⟨hcore.trans hrun, ?_⟩
    rw [handlers_outs_cons, hreply, sentPieces_error]
    exact houts

/-- The requests and acknowledgements of one transfer, and what is refused
before and among them. -/
structure Transfer (g : Daemon) (file : File) (before : List (Env × Mem)) (request : Env × Mem)
    (rest : List (Env × Mem)) : Prop where
  before : ∀ x ∈ before, Refused g.state.sid x.2
  accepted : Auth3 request.1 request.2 g
  opens : request.1.fopen (pathOf request.2) = some file
  regular : file.isReg = true
  noFaults : ∀ f ∈ file.faults, f = none
  acks : Acks g.state.sid (file.data.length / 4096) rest

section Transfer

variable {file : File} {before rest : List (Env × Mem)} {request : Env × Mem}

/-- The accepted request, after the messages refused before it. -/
theorem Transfer.start (ht : Transfer g file before request rest) (hinv : SessionInv g)
    (hl : g.state.lastSent = 1) :
    replyOf (handle request.1 request.2 (handlers.run g before)) =
        some (piece g.state.sid file.data 0) ∧
      Serving g.state.sid file.data g.streams.length 1
        (handle request.1 request.2 (handlers.run g before)).1 := by
  obtain ⟨hcore, -⟩ := refused_run hinv (.inl hl) ht.before
  have hstart := handle_start (hinv.congr hcore.state) (by rw [hcore.state, hl])
    (hcore.auth3 ht.accepted) ht.opens ht.regular ht.noFaults
  rwa [hcore.state, hcore.streams] at hstart

/-- Every start of the run is before the request or between two pieces. -/
theorem Transfer.stands (ht : Transfer g file before request rest) (hinv : SessionInv g)
    (hl : g.state.lastSent = 1) {ms : List (Env × Mem)} (hp : ms <+: before ++ request :: rest) :
    (ms.length ≤ before.length ∧ SameCore g (handlers.run g ms)) ∨
      (before.length < ms.length ∧
        ∃ k, Serving g.state.sid file.data g.streams.length k (handlers.run g ms)) := by
  have hearly : ∀ as bs, before = as ++ bs → SameCore g (handlers.run g as) := fun as bs heq =>
    (refused_run hinv (.inl hl) fun x hx =>
      ht.before x (heq ▸ List.mem_append_left _ hx)).1
  obtain ⟨post, hpost⟩ := hp
  rcases List.append_eq_append_iff.mp hpost with ⟨bs, hb, -⟩ | ⟨cs, rfl, hc⟩
  · exact .inl ⟨by rw [hb, List.length_append]; omega, hearly ms bs hb⟩
  · cases cs with
    | nil =>
      rw [List.append_nil]
      exact .inl ⟨Nat.le_refl _, hearly before [] (List.append_nil _).symm⟩
    | cons c cs =>
      rw [List.cons_append, List.cons.injEq] at hc
      obtain ⟨rfl, hrest⟩ := hc
      obtain ⟨n, hle, hacks⟩ := (hrest ▸ ht.acks).left
      obtain ⟨hrun, -⟩ := (ht.start hinv hl).2.run hacks (by omega)
      refine .inr ⟨by simp, 1 + n, ?_⟩
      rw [Mealy.run_append]
      exact hrun

/-- The whole run sends every piece once, in order. -/
theorem Transfer.pieces (ht : Transfer g file before request rest) (hinv : SessionInv g)
    (hl : g.state.lastSent = 1) :
    sentPieces (handlers.outs g (before ++ request :: rest)) =
        (List.range (file.data.length / 4096 + 1)).map (piece g.state.sid file.data) ∧
      Serving g.state.sid file.data g.streams.length (file.data.length / 4096 + 1)
        (handlers.run g (before ++ request :: rest)) := by
  obtain ⟨-, hbefore⟩ := refused_run hinv (.inl hl) ht.before
  obtain ⟨hreply, hv⟩ := ht.start hinv hl
  obtain ⟨hrun, houts⟩ := hv.run ht.acks (by omega)
  constructor
  · rw [Mealy.outs_append, sentPieces_append, hbefore, List.nil_append, handlers_outs_cons, hreply,
      sentPieces_piece, houts, List.range_eq_range', List.range'_succ, List.map_cons]
  · rw [Mealy.run_append]
    rw [Nat.add_comm] at hrun
    exact hrun

/-- What a run has to do with the file that is asked for after `k` messages, and with the
messages it refuses on the way: they move no stream and change nothing that is read of
later replies. -/
structure Transferred (g : Daemon) (file : File) (k : Nat) (is : List Input) : Prop where
  count : (sentPieces ((mainLoop.outs g is).map (·.bind Packet.reply))).length =
    file.data.length / 4096 + 1
  lengths : (sentPieces ((mainLoop.outs g is).map (·.bind Packet.reply))).map Reply.contentLength =
    List.replicate (file.data.length / 4096) 4096 ++ [file.data.length % 4096]
  contents : ((sentPieces ((mainLoop.outs g is).map (·.bind Packet.reply))).map
    Reply.content).flatten = file.data
  finish : ∀ i, Acknowledges (i.message (mainLoop.run g is)) g.state.sid.length g.state.sid →
    replyOf (iteration (mainLoop.run g is) i) =
        some (.type5 MessageType5.size g.state.sid.length g.state.sid) ∧
      ∃ f, (iteration (mainLoop.run g is) i).1.streams[g.streams.length]? = some f ∧
        f.closed = true
  unfinished : ∀ pre, pre <+: is → k < pre.length →
    ∃ f, (mainLoop.run g pre).streams[g.streams.length]? = some f ∧ f.closed = false
  unmoved : ∀ pre i post, is = pre ++ i :: post →
    Refused g.state.sid (i.message (mainLoop.run g pre)) →
    (mainLoop.run g (pre ++ [i])).streams = (mainLoop.run g pre).streams
  later : ∀ pre i post, is = pre ++ i :: post →
    Refused g.state.sid (i.message (mainLoop.run g pre)) →
    ReadAlike (mainLoop.run g pre) (mainLoop.run g (pre ++ [i]))

end Transfer

/-! ## Between messages of an unknown type -/

theorem Transferred.first {i : Input} {is : List Input} {file : File}
    (h : Transferred g file k (i :: is)) (hr : Refused g.state.sid (i.message g)) :
    ReadAlike g (iteration g i).1 := h.later [] i is rfl hr

/-- A reply with an empty id writes none of the bytes that show. -/
theorem Unnoticed.empty {text : List UInt8} (hu : Unnoticed text g) (hinv : SessionInv g)
    (hd : due e m g = .finish [] ∨ ∃ got, due e m g = .piece [] got) :
    Unnoticed text (handle e m g).1 := by
  refine hu.next hinv fun l hl hlt hcov => ?_
  rcases hd with hd | ⟨got, hd⟩ <;> rw [hd] at hcov
  · have := covers_finish.mp hcov
    rw [List.length_nil] at this
    omega
  · have := covers_piece.mp hcov
    rw [List.length_nil] at this
    omega

theorem Unnoticed.iteration {text : List UInt8} {i : Input} (hu : Unnoticed text g)
    (hinv : SessionInv g)
    (hd : Getd.due i.env (i.message g) { g with buffer := nnRecv g.buffer i.recv } = .finish [] ∨
      ∃ got, Getd.due i.env (i.message g) { g with buffer := nnRecv g.buffer i.recv } =
        .piece [] got) : Unnoticed text (iteration g i).1 :=
  Unnoticed.empty (g := { g with buffer := nnRecv g.buffer i.recv }) hu (hinv.setBuffer _) hd

theorem due_start (hl : g.state.lastSent = 1) (ha : Auth3 e m g) {file : File}
    (hf : e.fopen (pathOf m) = some file) (hreg : file.isReg = true) :
    ∃ got, due e m g = .piece g.state.sid got := by
  rw [ha.due, if_neg (not_not.mpr hl), hf]
  simp only [hreg, if_true]
  exact ⟨_, rfl⟩

theorem Serving.due (hv : Serving sid F h k g) (ha : Acknowledges m sid.length sid) :
    due e m g = .finish sid ∨ ∃ got, due e m g = .piece sid got := by
  have hauth : Auth6 e m g := acknowledges_auth6 ha hv.terminated hv.sid.symm rfl
  rw [hauth.due, if_pos hv.lastSent, hv.sid]
  split
  · exact .inl rfl
  · exact .inr ⟨_, rfl⟩

/-- Nothing shows of a request that is accepted under an empty id. -/
theorem Unnoticed.start {text path : List UInt8} {i : Input} (hu : Unnoticed text g)
    (hinv : SessionInv g) (hl : g.state.lastSent = 1) (hsid : sid = g.state.sid) (hnil : sid = [])
    (ha : Asks (i.message g) sid.length sid path) {file : File}
    (hf : i.env.fopen (pathOf (i.message g)) = some file) (hreg : file.isReg = true) :
    Unnoticed text (Getd.iteration g i).1 := by
  let g' : Daemon := { g with buffer := nnRecv g.buffer i.recv }
  have hauth : Auth3 i.env (i.message g) g' := asks_auth3 ha (hinv.terminated (.inl hl)) hsid rfl
  obtain ⟨got, hd⟩ := due_start (g := g') hl hauth hf hreg
  exact hu.iteration hinv (.inr ⟨got, hd.trans (congrArg (Due.piece · got) (hsid.symm.trans hnil))⟩)

/-- Nor of an acknowledgement of its pieces. -/
theorem Unnoticed.more {text : List UInt8} {i : Input} (hu : Unnoticed text g) (hinv : SessionInv g)
    (hv : Serving sid F h k g) (hnil : sid = []) (ha : Acknowledges (i.message g) sid.length sid) :
    Unnoticed text (Getd.iteration g i).1 := by
  subst hnil
  have hv' : Serving [] F h k { g with buffer := nnRecv g.buffer i.recv } :=
    hv.core ⟨rfl, rfl, rfl, rfl, rfl⟩
  exact hu.iteration hinv (hv'.due ha)

end Getd
