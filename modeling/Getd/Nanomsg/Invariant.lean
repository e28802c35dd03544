import Getd.Nanomsg.Sock
import Getd.Nanomsg.Turns

/-!
# The invariant of the socket

`Good s` holds in every state of every run: all events that wait belong to one
connection, every connection is in a phase, the messages given out and taken are
those of the attached connections one after the other, and the file descriptors tell
the user thread what the pipes can do. `stepSock_good` keeps it over every step,
whatever the peers send and however the kernel answers.
-/

namespace Nanomsg

open CLib

variable {io : Io} {s : Sock} {c d : Nat} {es : List Event} {conn : Conn} {ms ns : List Msg}

namespace Sock

def recvdOn (s : Sock) (c : Nat) : List Msg := ((s.conns[c]?).map fun k => k.pipebase.recvd).getD []

def sentOn (s : Sock) (c : Nat) : List Msg := ((s.conns[c]?).map fun k => k.pipebase.sent).getD []

/-- How many events the ones in the queue can lead to. -/
def load (s : Sock) : Nat :=
  match s.queue with
  | [] => 0
  | (c, e) :: q => ((s.conns[c]?).map fun conn => cost conn (e :: q.map Prod.snd)).getD 0

end Sock

/-- The connections, when the events `es` of `c` wait. -/
structure Stands (s : Sock) (c : Nat) (es : List Event) : Prop where
  queue : s.queue = es.map (Prod.mk c)
  owned : es ≠ [] → c < s.conns.length
  phase : ∀ (d : Nat) (conn : Conn), s.conns[d]? = some conn →
    Phase d (seat s.excl s.attached d) (if d = c then es else []) conn
  cost : ∀ conn : Conn, s.conns[c]? = some conn → cost conn es < 11

/-- What does not depend on the file descriptors. -/
structure Core (s : Sock) : Prop where
  seats : Seats s.excl s.attached
  bound : ∀ c ∈ s.attached, c < s.conns.length
  stands : ∃ c es, Stands s c es
  fresh : ∀ (d : Nat) (conn : Conn), s.conns[d]? = some conn → d ∉ s.attached →
    conn.pipebase.recvd = [] ∧ conn.pipebase.sent = []
  short : ∀ (d : Nat) (conn : Conn), s.conns[d]? = some conn → ∀ msg ∈ conn.pipebase.recvd, msg.length ≤ rcvmaxsize
  received : s.received = s.attached.flatMap s.recvdOn
  sent : s.sent = s.attached.flatMap s.sentOn

/-- Each flag says whether its file descriptor is signalled. -/
structure Ready (s : Sock) : Prop extends Core s where
  flagIn : s.flagIn = s.rcvfd
  flagOut : s.flagOut = s.sndfd

structure Good (s : Sock) : Prop extends Ready s where
  told : s.queue = [] → s.rcvfd = s.excl.inpipe.isSome ∧ s.sndfd = s.excl.outpipe.isSome

/-! ## The messages of the attached connections -/

theorem flatMap_grow {f f' : Nat → List Msg} {att : List Nat} (hnd : att.Nodup)
    (hlast : att.getLast? = some c) (hc : f' c = f c ++ ms) (hd : ∀ d, d ≠ c → f' d = f d) :
    att.flatMap f' = att.flatMap f ++ ms := by
  obtain ⟨init, rfl⟩ := List.getLast?_eq_some_iff.mp hlast
  have hinit : c ∉ init := fun hmem => by
    simpa using List.disjoint_of_nodup_append hnd hmem
  have hsame : init.flatMap f' = init.flatMap f := List.flatMap_congr fun d hmem =>
    hd d fun heq => hinit (heq ▸ hmem)
  rw [List.flatMap_append, List.flatMap_append, hsame, List.flatMap_singleton, List.flatMap_singleton,
    hc, List.append_assoc]

theorem Moves.attached {x x' : Excl} {att att' : List Nat} (hm : Moves c x att x' att') :
    att' = att ∨ att' = att ++ [c] ∧ c ∉ att ∧ x.pipe = none := by
  cases hm with
  | stay | signal | leave => exact .inl rfl
  | attach hnone hc => exact .inr ⟨rfl, hc, hnone⟩

/-- A step of `c` that makes the messages of `c` more by `ms`. -/
theorem flatMap_moves {x x' : Excl} {att att' : List Nat} {f f' : Nat → List Msg} (hx : Seats x att)
    (hm : Moves c x att x' att') (hc : f' c = f c ++ ms) (hd : ∀ d, d ≠ c → f' d = f d)
    (hpipe : ms ≠ [] → x.pipe = some c) (hfresh : c ∉ att → f c = []) :
    att'.flatMap f' = att.flatMap f ++ ms := by
  by_cases hms : ms = []
  · have hsame : f' = f := funext fun d => by
      by_cases heq : d = c
      · rw [heq, hc, hms, List.append_nil]
      · exact hd d heq
    rw [hsame, hms, List.append_nil]
    rcases hm.attached with rfl | ⟨rfl, hatt, -⟩
    · rfl
    · rw [List.flatMap_append, List.flatMap_singleton, hfresh hatt, List.append_nil]
  · have hheld := hpipe hms
    rcases hm.attached with rfl | ⟨-, -, hnone⟩
    · exact flatMap_grow hx.nodup (hx.last c hheld) hc hd
    · rw [hnone] at hheld
      cases hheld

theorem recvdOn_some (hc : s.conns[c]? = some conn) : s.recvdOn c = conn.pipebase.recvd := by
  rw [Sock.recvdOn, hc]
  rfl

theorem sentOn_some (hc : s.conns[c]? = some conn) : s.sentOn c = conn.pipebase.sent := by
  rw [Sock.sentOn, hc]
  rfl

theorem getElem?_put_self {w : World} (hc : s.conns[w.self]? = some conn) :
    (s.put w).conns[w.self]? = some w.conn :=
  List.getElem?_set_self (List.getElem?_eq_some_iff.mp hc).1

theorem getElem?_put_ne {w : World} (hd : d ≠ w.self) : (s.put w).conns[d]? = s.conns[d]? :=
  List.getElem?_set_ne (Ne.symm hd)

/-- **A step of one connection**, which may give out the messages `ms` or take `ns`. -/
theorem Core.put {x' : Excl} {att' : List Nat} {conn' : Conn} (hcore : Core s)
    (hc : s.conns[c]? = some conn)
    (hothers : ∀ (d : Nat) (k : Conn), d ≠ c → s.conns[d]? = some k →
      Phase d (seat s.excl s.attached d) [] k)
    (hm : Moves c s.excl s.attached x' att') (hp : Phase c (seat x' att' c) es conn')
    (hcost : cost conn' es < 11) (hr : conn'.pipebase.recvd = conn.pipebase.recvd ++ ms)
    (hs : conn'.pipebase.sent = conn.pipebase.sent ++ ns)
    (hpipe : ms ≠ [] ∨ ns ≠ [] → s.excl.pipe = some c) (hshort : ∀ msg ∈ ms, msg.length ≤ rcvmaxsize) :
    Core { s.put (here x' att' c es conn') with
      received := s.received ++ ms, sent := s.sent ++ ns } := by
  have hself : (s.put (here x' att' c es conn')).conns[c]? = some conn' := getElem?_put_self hc
  have hne : ∀ d, d ≠ c → (s.put (here x' att' c es conn')).conns[d]? = s.conns[d]? :=
    fun d hd => getElem?_put_ne hd
  have hlt : c < (s.put (here x' att' c es conn')).conns.length :=
    (List.getElem?_eq_some_iff.mp hself).1
  have hlen : (s.put (here x' att' c es conn')).conns.length = s.conns.length := List.length_set
  have hmem : s.excl.pipe = some c → c ∈ s.attached := fun h =>
    List.mem_of_getLast? (hcore.seats.last c h)
  have hsub : ∀ d, d ∈ s.attached → d ∈ att' := fun d hd => by
    rcases hm.attached with rfl | ⟨rfl, -, -⟩
    · exact hd
    · exact List.mem_append_left _ hd
  have hfresh := hcore.fresh c conn hc
  refine ⟨hm.seats hcore.seats, fun d hd => ?_, ⟨c, es, rfl, fun _ => hlt, fun d k hk => ?_,
    fun k hk => ?_⟩, fun d k hk hd => ?_, fun d k hk => ?_, ?_, ?_⟩
  · rcases hm.attached with rfl | ⟨rfl, -, -⟩
    · exact hlen.symm ▸ hcore.bound d hd
    · rcases List.mem_append.mp hd with hd | hd
      · exact hlen.symm ▸ hcore.bound d hd
      · exact List.mem_singleton.mp hd ▸ hlt
  · by_cases heq : d = c
    · subst heq
      obtain rfl := Option.some.inj (hself.symm.trans hk)
      rw [if_pos rfl]
      exact hp
    · rw [if_neg heq]
      exact (hm.others heq).symm ▸ hothers d k heq ((hne d heq).symm.trans hk)
  · obtain rfl := Option.some.inj (hself.symm.trans hk)
    exact hcost
  · by_cases heq : d = c
    · subst heq
      obtain rfl := Option.some.inj (hself.symm.trans hk)
      have hout : s.excl.pipe ≠ some d := fun h => hd (hsub d (hmem h))
      obtain ⟨hr0, hs0⟩ := hfresh fun h => hd (hsub d h)
      have hms : ms = [] := by_contra fun h => hout (hpipe (.inl h))
      have hns : ns = [] := by_contra fun h => hout (hpipe (.inr h))
      rw [hr, hs, hr0, hs0, hms, hns]
      exact ⟨rfl, rfl⟩
    · exact hcore.fresh d k ((hne d heq).symm.trans hk) fun h => hd (hsub d h)
  · by_cases heq : d = c
    · subst heq
      obtain rfl := Option.some.inj (hself.symm.trans hk)
      rw [hr]
      intro msg hmsg
      rcases List.mem_append.mp hmsg with hmsg | hmsg
      · exact hcore.short d conn hc msg hmsg
      · exact hshort msg hmsg
    · exact hcore.short d k ((hne d heq).symm.trans hk)
  · refine (congrArg (· ++ ms) hcore.received).trans (flatMap_moves hcore.seats hm ?_ ?_
      (fun h => hpipe (.inl h)) fun h => ?_).symm
    · rw [recvdOn_some hc, ← hr]
      exact recvdOn_some hself
    · exact fun d heq => congrArg (fun k => (k.map fun k : Conn => k.pipebase.recvd).getD []) (hne d heq)
    · rw [recvdOn_some hc, (hfresh h).1]
  · refine (congrArg (· ++ ns) hcore.sent).trans (flatMap_moves hcore.seats hm ?_ ?_
      (fun h => hpipe (.inr h)) fun h => ?_).symm
    · rw [sentOn_some hc, ← hs]
      exact sentOn_some hself
    · exact fun d heq => congrArg (fun k => (k.map fun k : Conn => k.pipebase.sent).getD []) (hne d heq)
    · rw [sentOn_some hc, (hfresh h).2]

/-! ## Steps -/

/-- The messages `ms` were given out and `ns` taken, on the connection attached before. At most
one connection is attached, and then there were none. -/
structure Grows (s s' : Sock) (ms ns : List Msg) : Prop where
  received : s'.received = s.received ++ ms
  sent : s'.sent = s.sent ++ ns
  attached : s'.attached = s.attached ∨ ms = [] ∧ ns = [] ∧ ∃ c, s'.attached = s.attached ++ [c]
  recvdOn : ∀ d, ms = [] ∨ s.attached.getLast? ≠ some d → s'.recvdOn d = s.recvdOn d
  sentOn : ∀ d, ns = [] ∨ s.attached.getLast? ≠ some d → s'.sentOn d = s.sentOn d

theorem Grows.refl (s : Sock) : Grows s s [] [] :=
  ⟨(List.append_nil _).symm, (List.append_nil _).symm, .inl rfl, fun _ _ => rfl, fun _ _ => rfl⟩

theorem Grows.put {x' : Excl} {att' : List Nat} {conn' : Conn} (hx : Seats s.excl s.attached)
    (hc : s.conns[c]? = some conn) (hm : Moves c s.excl s.attached x' att')
    (hr : conn'.pipebase.recvd = conn.pipebase.recvd ++ ms)
    (hs : conn'.pipebase.sent = conn.pipebase.sent ++ ns)
    (hpipe : ms ≠ [] ∨ ns ≠ [] → s.excl.pipe = some c) :
    Grows s { s.put (here x' att' c es conn') with
      received := s.received ++ ms, sent := s.sent ++ ns } ms ns := by
  have hself : (s.put (here x' att' c es conn')).conns[c]? = some conn' := getElem?_put_self hc
  have hne : ∀ d, d ≠ c → (s.put (here x' att' c es conn')).conns[d]? = s.conns[d]? :=
    fun d hd => getElem?_put_ne hd
  refine ⟨rfl, rfl, ?_, fun d hd => ?_, fun d hd => ?_⟩
  · rcases hm.attached with heq | ⟨heq, -, hnone⟩
    · exact .inl heq
    · have hno : ¬ (ms ≠ [] ∨ ns ≠ []) := fun h => by
        rw [hpipe h] at hnone
        cases hnone
      rw [not_or, not_not, not_not] at hno
      exact .inr ⟨hno.1, hno.2, c, heq⟩
  · by_cases heq : d = c
    · subst heq
      have hms : ms = [] := hd.elim id fun h => by_contra fun hms => h (hx.last d (hpipe (.inl hms)))
      rw [hms, List.append_nil] at hr
      rw [recvdOn_some hc, ← hr]
      exact recvdOn_some hself
    · exact congrArg (fun k => (k.map fun k : Conn => k.pipebase.recvd).getD []) (hne d heq)
  · by_cases heq : d = c
    · subst heq
      have hns : ns = [] := hd.elim id fun h => by_contra fun hns => h (hx.last d (hpipe (.inr hns)))
      rw [hns, List.append_nil] at hs
      rw [sentOn_some hc, ← hs]
      exact sentOn_some hself
    · exact congrArg (fun k => (k.map fun k : Conn => k.pipebase.sent).getD []) (hne d heq)

/-- The process ends on a frame of a type that is not known. -/
def Fails (s : Sock) {α : Type} (r : Except Assert α) : Prop :=
  r = .error .sipcMsgNormal ∧ ∃ conn ∈ s.conns, BadFrame conn

/-- A turn that leaves events that lead to less than `n`, if it does not end the process. -/
def Turn (s : Sock) (n : Nat) (r : Except Assert Sock) : Prop :=
  (∃ s', r = .ok s' ∧ Ready s' ∧ s'.load < n ∧ ∃ ms ns, Grows s s' ms ns) ∨ Fails s r

theorem load_stands (hst : Stands s c es) (hc : s.conns[c]? = some conn) : s.load = cost conn es := by
  cases es with
  | nil =>
    have hq : s.queue = [] := hst.queue
    simp only [Sock.load, hq]
    rfl
  | cons e es =>
    have hq : s.queue = (c, e) :: es.map (Prod.mk c) := hst.queue
    have hes : (es.map (Prod.mk c)).map Prod.snd = es := by
      rw [List.map_map]
      exact List.map_id es
    simp only [Sock.load, hq, hc, hes]
    rfl

theorem load_put {x : Excl} {att : List Nat} {conn' : Conn} (hc : s.conns[c]? = some conn) :
    (s.put (here x att c es conn')).load = cost conn' es := by
  have hself : (s.put (here x att c es conn')).conns[c]? = some conn' := getElem?_put_self hc
  cases es with
  | nil => rfl
  | cons e es =>
    have hes : (es.map (Prod.mk c)).map Prod.snd = es := by
      rw [List.map_map]
      exact List.map_id es
    show (((s.put (here x att c (e :: es) conn')).conns[c]?).map fun conn =>
      cost conn (e :: (es.map (Prod.mk c)).map Prod.snd)).getD 0 = _
    rw [hself, hes]
    rfl

theorem load_quiet (hq : s.queue = []) : s.load = 0 := by
  simp only [Sock.load, hq]

theorem Ready.next {n : Nat} {r : Except Assert World} (hr : Ready s) (hc : s.conns[c]? = some conn)
    (hothers : ∀ (d : Nat) (k : Conn), d ≠ c → s.conns[d]? = some k →
      Phase d (seat s.excl s.attached d) [] k)
    (hnext : Next c s.excl s.attached conn n r) (hn : n ≤ 11) :
    Turn s n (r >>= fun w => pure (s.put w)) := by
  cases hnext with
  | bad hbad => exact .inr ⟨rfl, conn, List.mem_of_getElem? hc, hbad⟩
  | @ok x' att' es conn' hm hp hrecvd hsent hcost =>
    have hput : Core { s.put (here x' att' c es conn') with
        received := s.received ++ [], sent := s.sent ++ [] } := hr.put hc hothers hm hp (Nat.lt_of_lt_of_le hcost hn)
      (by rw [hrecvd, List.append_nil]) (by rw [hsent, List.append_nil]) (by simp) nofun
    have hgrows : Grows s { s.put (here x' att' c es conn') with
        received := s.received ++ [], sent := s.sent ++ [] } [] [] := .put hr.seats hc hm
      (by rw [hrecvd, List.append_nil]) (by rw [hsent, List.append_nil]) (by simp)
    rw [List.append_nil, List.append_nil] at hput hgrows
    exact .inl ⟨_, rfl, ⟨hput, hr.flagIn, hr.flagOut⟩, lt_of_eq_of_lt (load_put hc) hcost, _, _, hgrows⟩

theorem Core.quiet (h : Core s) (hq : s.queue = []) {d : Nat} {k : Conn} (hk : s.conns[d]? = some k) :
    Phase d (seat s.excl s.attached d) [] k := by
  obtain ⟨c, es, hst⟩ := h.stands
  have hes : es = [] := List.map_eq_nil_iff.mp (hst.queue.symm.trans hq)
  have hp := hst.phase d k hk
  rw [hes, ite_self] at hp
  exact hp

theorem on_eq (hq : s.queue = []) (hc : s.conns[c]? = some conn) (f : World → Except Assert World) :
    s.on c f = f (here s.excl s.attached c [] conn) >>= fun w => pure (s.put w) := by
  have hworld : s.world c conn = here s.excl s.attached c [] conn := by
    rw [Sock.world, here, hq]
    rfl
  rw [← hworld]
  simp only [Sock.on, hc]

theorem Ready.on (h : Ready s) (hq : s.queue = []) {f : World → Except Assert World}
    (hf : ∀ conn, Phase c (seat s.excl s.attached c) [] conn →
      Next c s.excl s.attached conn 11 (f (here s.excl s.attached c [] conn))) :
    Turn s 11 (s.on c f) := by
  cases hc : s.conns[c]? with
  | none =>
    refine .inl ⟨s, ?_, h, (load_quiet hq).symm ▸ Nat.succ_pos _, _, _, .refl s⟩
    simp only [Sock.on, hc]
  | some conn =>
    rw [on_eq hq hc]
    exact h.next hc (fun d k _ hk => h.quiet hq hk) (hf conn (h.quiet hq hc)) (Nat.le_refl _)

theorem nnFsmEventProcess_eq {e : Event} (io : Io) (hst : Stands s c (e :: es)) : ∃ conn,
    s.conns[c]? = some conn ∧ Phase c (seat s.excl s.attached c) (e :: es) conn ∧
      nnFsmEventProcess io s =
        process io (here s.excl s.attached c es conn) e >>= fun w => pure (s.put w) := by
  have hq : s.queue = (c, e) :: es.map (Prod.mk c) := hst.queue
  have hc := List.getElem?_eq_getElem (hst.owned (List.cons_ne_nil _ _))
  have hp := hst.phase c _ hc
  rw [if_pos rfl] at hp
  refine ⟨_, hc, hp, ?_⟩
  simp only [nnFsmEventProcess, hq, Sock.on, hc]
  rfl

theorem nnFsmEventProcess_turn (h : Ready s) (hbusy : s.queue ≠ []) :
    Turn s s.load (nnFsmEventProcess io s) ∧ s.load < 11 := by
  obtain ⟨c, es, hst⟩ := h.stands
  cases es with
  | nil => exact absurd hst.queue hbusy
  | cons e es =>
    obtain ⟨conn, hc, hp, hstep⟩ := nnFsmEventProcess_eq io hst
    have hothers : ∀ (d : Nat) (k : Conn), d ≠ c → s.conns[d]? = some k →
        Phase d (seat s.excl s.attached d) [] k := fun d k hd hk => by
      have hpd := hst.phase d k hk
      rwa [if_neg hd] at hpd
    rw [hstep, load_stands hst hc]
    exact ⟨h.next hc hothers (process_next h.seats hp) (Nat.le_of_lt (hst.cost conn hc)),
      hst.cost conn hc⟩

theorem conns_accept (d : Nat) : (s.conns ++ [acceptedConn])[d]? =
    if d = s.conns.length then some acceptedConn else s.conns[d]? := by
  rcases Nat.lt_trichotomy d s.conns.length with hlt | rfl | hgt
  · rw [if_neg (Nat.ne_of_lt hlt), List.getElem?_append_left hlt]
  · rw [if_pos rfl, List.getElem?_concat_length]
  · rw [if_neg (Nat.ne_of_gt hgt), List.getElem?_eq_none (Nat.le_of_lt hgt), List.getElem?_eq_none]
    rw [List.length_append, List.length_singleton]
    exact hgt

theorem accept_turn (h : Ready s) (hq : s.queue = []) : Turn s 11 (work io s .accept) := by
  have hout : s.conns.length ∉ s.attached := fun hmem => Nat.lt_irrefl _ (h.bound _ hmem)
  have hseat : seat s.excl s.attached s.conns.length = .fresh := by
    have hpipe : s.excl.pipe ≠ some s.conns.length := fun hp =>
      hout (List.mem_of_getLast? (h.seats.last _ hp))
    simp only [seat, hpipe, hout, if_false]
  have hnone : s.conns[s.conns.length]? = none := List.getElem?_eq_none (Nat.le_refl _)
  have hmsgs : ∀ f : Conn → List Msg, f acceptedConn = [] → (fun d : Nat =>
      (((s.conns ++ [acceptedConn])[d]?).map f).getD []) = fun d => ((s.conns[d]?).map f).getD [] := by
    intro f hf
    funext d
    rw [conns_accept]
    by_cases hd : d = s.conns.length
    · rw [if_pos hd, hd, hnone, Option.map_some, hf]
      rfl
    · rw [if_neg hd]
  refine .inl ⟨_, rfl, ⟨⟨h.seats, fun c hc => ?_, ⟨s.conns.length, [.usock .aipc .accepted], ?_, ?_, ?_,
    ?_⟩, ?_, ?_, ?_, ?_⟩, h.flagIn, h.flagOut⟩, ?_, [], [],
    (List.append_nil _).symm, (List.append_nil _).symm, .inl rfl, fun d _ => congrFun (hmsgs _ rfl) d,
    fun d _ => congrFun (hmsgs _ rfl) d⟩
  · rw [List.length_append]
    exact Nat.lt_add_right _ (h.bound c hc)
  · rw [hq]
    rfl
  · intro _
    rw [List.length_append]
    exact Nat.lt_succ_self _
  · intro d k hk
    rw [conns_accept] at hk
    by_cases hd : d = s.conns.length
    · rw [if_pos hd] at hk ⊢
      cases hk
      rw [hd, hseat]
      exact .accepting
    · rw [if_neg hd] at hk ⊢
      exact h.quiet hq hk
  · intro k hk
    rw [conns_accept, if_pos rfl] at hk
    cases hk
    exact show 3 < 11 by decide
  · intro d k hk hd
    rw [conns_accept] at hk
    split at hk
    · cases hk
      exact ⟨rfl, rfl⟩
    · exact h.fresh d k hk hd
  · intro d k hk
    rw [conns_accept] at hk
    split at hk
    · cases hk
      exact fun _ hmsg => absurd hmsg List.not_mem_nil
    · exact h.short d k hk
  · exact h.received.trans (congrArg s.attached.flatMap (hmsgs _ rfl).symm)
  · exact h.sent.trans (congrArg s.attached.flatMap (hmsgs _ rfl).symm)
  · rw [Sock.load, hq]
    show (((s.conns ++ [acceptedConn])[s.conns.length]?).map fun conn => _).getD 0 < 11
    rw [conns_accept, if_pos rfl]
    exact show 3 < 11 by decide

/-! ## The user thread -/

theorem Core.attached (h : Core s) (hq : s.queue = []) (hp : s.excl.pipe ≠ none) : ∃ c conn,
    s.excl.pipe = some c ∧ s.conns[c]? = some conn ∧
      Phase c (.held s.excl.inpipe s.excl.outpipe) [] conn := by
  obtain ⟨c, hc⟩ := Option.ne_none_iff_exists'.mp hp
  have hlt := h.bound c (List.mem_of_getLast? (h.seats.last c hc))
  refine ⟨c, s.conns[c], hc, List.getElem?_eq_getElem hlt, ?_⟩
  rw [← seat_held hc]
  exact h.quiet hq (List.getElem?_eq_getElem hlt)

/-- `nn_sock_recv` gives out the message of the attached pipe, if there is one. -/
theorem sockRecv_turn (h : Ready s) (hq : s.queue = []) (io : Io) :
    (s.excl.inpipe = none ∧ sockRecv io s = .ok (s, none)) ∨
      ∃ s' msg, sockRecv io s = .ok (s', some msg) ∧ Ready s' ∧ s'.load < 11 ∧
        Grows s s' [msg] [] := by
  cases hin : s.excl.inpipe with
  | none => exact .inl ⟨rfl, by rw [sockRecv, hin]⟩
  | some p =>
    have hpipe : s.excl.pipe ≠ none := fun hnone => by
      have hfree := (h.seats.free hnone).1
      rw [hin] at hfree
      cases hfree
    obtain ⟨c, conn, hc, hconn, hp⟩ := h.toCore.attached hq hpipe
    obtain ⟨msg, es, conn', hrecv, heq, hp', hlen, hr, hs, hcost⟩ := nnPipeRecv_held io
      s.excl s.attached hp (by rw [hin]; nofun)
    obtain rfl : p = c := Option.some.inj (hin.symm.trans heq)
    have hworld : s.world p conn = here s.excl s.attached p [] conn := by
      rw [Sock.world, here, hq]
      rfl
    have hput : Core { s.put (here { s.excl with inpipe := none } s.attached p es conn') with
        received := s.received ++ [msg], sent := s.sent ++ [] } := h.put hconn
      (fun d k _ hk => h.quiet hq hk) (.signal hc hc)
      (by rw [seat_held (x := { s.excl with inpipe := none }) hc]; exact hp') hcost hr
      (by rw [hs, List.append_nil]) (fun _ => hc) (by simpa using hlen)
    refine .inr ⟨_, msg, ?_, ⟨hput, h.flagIn, h.flagOut⟩, lt_of_eq_of_lt (load_put hconn) hcost,
      .put h.seats hconn (.signal hc hc) hr (by rw [hs, List.append_nil]) fun _ => hc⟩
    simp only [sockRecv, hin, hconn, hworld, hrecv, ok_bind, List.append_nil]
    rfl

/-- `nn_sock_send` hands the message to the attached pipe, if that is idle. -/
theorem sockSend_turn (h : Ready s) (hq : s.queue = []) (io : Io) (msg : Msg) :
    (s.excl.outpipe = none ∧ sockSend io s msg = .ok (s, false)) ∨
      ∃ s', sockSend io s msg = .ok (s', true) ∧ Ready s' ∧ s'.load < 11 ∧
        Grows s s' [] [msg] := by
  cases hout : s.excl.outpipe with
  | none => exact .inl ⟨rfl, by rw [sockSend, hout]⟩
  | some p =>
    have hpipe : s.excl.pipe ≠ none := fun hnone => by
      have hfree := (h.seats.free hnone).2
      rw [hout] at hfree
      cases hfree
    obtain ⟨c, conn, hc, hconn, hp⟩ := h.toCore.attached hq hpipe
    obtain ⟨es, conn', hsend, heq, hp', hr, hs, hcost⟩ := nnPipeSend_held io
      s.excl s.attached hp (by rw [hout]; nofun) msg
    obtain rfl : p = c := Option.some.inj (hout.symm.trans heq)
    have hworld : s.world p conn = here s.excl s.attached p [] conn := by
      rw [Sock.world, here, hq]
      rfl
    have hput : Core { s.put (here { s.excl with outpipe := none } s.attached p es conn') with
        received := s.received ++ [], sent := s.sent ++ [msg] } := h.put hconn
      (fun d k _ hk => h.quiet hq hk) (.signal hc hc)
      (by rw [seat_held (x := { s.excl with outpipe := none }) hc]; exact hp') hcost
      (by rw [hr, List.append_nil]) hs (fun _ => hc) fun _ hmsg => absurd hmsg List.not_mem_nil
    refine .inr ⟨_, ?_, ⟨hput, h.flagIn, h.flagOut⟩, lt_of_eq_of_lt (load_put hconn) hcost,
      .put h.seats hconn (.signal hc hc) (by rw [hr, List.append_nil]) hs fun _ => hc⟩
    simp only [sockSend, hout, hconn, hworld, hsend, ok_bind, List.append_nil]
    rfl

/-- A round that waits finds the socket as it is: the flag is set already. -/
theorem nnSockRecv_eq (h : Ready s) (first : Bool) : nnSockRecv io s first =
    if first = false ∧ s.rcvfd = false then .ok (s, none) else sockRecv io s := by
  cases first with
  | true => rfl
  | false =>
    cases hfd : s.rcvfd with
    | false => simp only [nnSockRecv, hfd, reduceCtorEq, if_false, if_true, and_self]
    | true =>
      have hflag : s.flagIn = true := h.flagIn.trans hfd
      rw [if_neg (fun hno => nomatch hno.2)]
      show (if s.rcvfd = false then .ok (s, none) else sockRecv io { s with flagIn := true }) = _
      rw [if_neg (ne_false_of_eq_true hfd), ← hflag]

theorem nnSockSend_eq (h : Ready s) (msg : Msg) (first : Bool) : nnSockSend io s msg first =
    if first = false ∧ s.sndfd = false then .ok (s, false) else sockSend io s msg := by
  cases first with
  | true => rfl
  | false =>
    cases hfd : s.sndfd with
    | false => simp only [nnSockSend, hfd, reduceCtorEq, if_false, if_true, and_self]
    | true =>
      have hflag : s.flagOut = true := h.flagOut.trans hfd
      rw [if_neg (fun hno => nomatch hno.2)]
      show (if s.sndfd = false then .ok (s, false) else sockSend io { s with flagOut := true } msg) = _
      rw [if_neg (ne_false_of_eq_true hfd), ← hflag]

/-! ## The lock is given up -/

theorem signal_eq (event b : Bool) : signal event b b = .ok (event, event) := by
  cases event <;> cases b <;> rfl

/-- The socket with the file descriptors as the pipes are. -/
def Sock.signalled (s : Sock) : Sock :=
  { s with
    flagIn := s.excl.inpipe.isSome, rcvfd := s.excl.inpipe.isSome
    flagOut := s.excl.outpipe.isSome, sndfd := s.excl.outpipe.isSome }

theorem nnCtxLeave_eq (h : Ready s) :
    nnCtxLeave s = .ok (if s.queue = [] then s.signalled else s) := by
  unfold nnCtxLeave
  split
  · rw [nnSockOnleave, h.flagIn, h.flagOut, signal_eq, signal_eq]
    rfl
  · rfl

theorem Ready.leave (h : Ready s) : Good (if s.queue = [] then s.signalled else s) := by
  split
  · have hst : Core s.signalled := ⟨h.seats, h.bound, by
      obtain ⟨c, es, hst⟩ := h.stands
      exact ⟨c, es, hst.queue, hst.owned, hst.phase, hst.cost⟩, h.fresh, h.short, h.received, h.sent⟩
    exact ⟨⟨hst, rfl, rfl⟩, fun _ => ⟨rfl, rfl⟩⟩
  · rename_i hq
    exact ⟨h, fun hnil => absurd hnil hq⟩

theorem boundSock_good : Good boundSock := by
  have hnone : ∀ (d : Nat) (conn : Conn), boundSock.conns[d]? ≠ some conn := fun d conn h => by
    rw [boundSock, List.getElem?_nil] at h
    cases h
  exact ⟨⟨⟨⟨List.nodup_nil, fun c h => absurd h nofun, fun _ => ⟨rfl, rfl⟩⟩,
    fun c h => absurd h List.not_mem_nil,
    ⟨0, [], rfl, fun h => absurd rfl h, fun d k h => absurd h (hnone d k),
      fun k h => absurd h (hnone 0 k)⟩,
    fun d k h => absurd h (hnone d k), fun d k h => absurd h (hnone d k), rfl, rfl⟩, rfl, rfl⟩,
    fun _ => ⟨rfl, rfl⟩⟩

/-- What the threads do when no event waits: the worker does something to a connection,
or it is one of the other actions. -/
theorem work_cases (io : Io) (a : Action) :
    a = .event ∨ a = .accept ∨ (∃ first, a = .recv first) ∨ (∃ msg first, a = .send msg first) ∨
      ∃ c f, (∀ s, work io s a = s.on c f) ∧ Worker f c := by
  have hworks : ∀ c f, (∀ s, work io s a = s.on c f) → Worker f c → a = .event ∨ a = .accept ∨
      (∃ first, a = .recv first) ∨ (∃ msg first, a = .send msg first) ∨
      ∃ c f, (∀ s, work io s a = s.on c f) ∧ Worker f c :=
    fun c f heq hf => .inr (.inr (.inr (.inr ⟨c, f, heq, hf⟩)))
  cases a with
  | event => exact .inl rfl
  | accept => exact .inr (.inl rfl)
  | recv first => exact .inr (.inr (.inl ⟨first, rfl⟩))
  | send msg first => exact .inr (.inr (.inr (.inl ⟨msg, first, rfl⟩)))
  | fdIn c => exact hworks c (usockFdIn io) (fun _ => rfl) (.inl fun _ _ => fun hl => fdIn_keeps hl)
  | fdOut c => exact hworks c (usockFdOut io) (fun _ => rfl) (.inl fun _ _ => fun hl => fdOut_keeps hl)
  | fdErr c => exact hworks c usockFdErr (fun _ => rfl) (.inl fun _ _ => fun hl => fdErr_keeps hl)
  | taskSend c =>
    exact hworks c (fun w => .ok (usockTaskSend w)) (fun _ => rfl)
      (.inl fun _ _ => fun hl => taskSend_keeps hl)
  | taskRecv c =>
    exact hworks c (fun w => .ok (usockTaskRecv w)) (fun _ => rfl)
      (.inl fun _ _ => fun hl => taskRecv_keeps hl)
  | taskStop c =>
    exact hworks c usockTaskStop (fun _ => rfl) (.inl fun _ _ => fun hl => taskStop_keeps hl)
  | timeout c => exact hworks c timerTimeout (fun _ => rfl) (.inr (.inl rfl))
  | timerTask c => exact hworks c timerStopTask (fun _ => rfl) (.inr (.inr rfl))

theorem work_turn (h : Ready s) (hq : s.queue = []) (a : Action) : Turn s 11 (work io s a) := by
  have hload : s.load < 11 := (load_quiet hq).symm ▸ Nat.succ_pos _
  rcases work_cases io a with rfl | rfl | ⟨first, rfl⟩ | ⟨msg, first, rfl⟩ | ⟨c, f, heq, hf⟩
  · exact .inl ⟨s, rfl, h, hload, _, _, .refl s⟩
  · exact accept_turn h hq
  · show Turn s 11 (nnSockRecv io s first >>= fun r => pure r.1)
    rw [nnSockRecv_eq h]
    split
    · exact .inl ⟨s, rfl, h, hload, _, _, .refl s⟩
    · rcases sockRecv_turn h hq io with ⟨-, hr⟩ | ⟨s', msg, hr, hs', hlt, hgrows⟩
      · exact .inl ⟨s, by rw [hr]; rfl, h, hload, _, _, .refl s⟩
      · exact .inl ⟨s', by rw [hr]; rfl, hs', hlt, _, _, hgrows⟩
  · show Turn s 11 (nnSockSend io s msg first >>= fun r => pure r.1)
    rw [nnSockSend_eq h]
    split
    · exact .inl ⟨s, rfl, h, hload, _, _, .refl s⟩
    · rcases sockSend_turn h hq io msg with ⟨-, hr⟩ | ⟨s', hr, hs', hlt, hgrows⟩
      · exact .inl ⟨s, by rw [hr]; rfl, h, hload, _, _, .refl s⟩
      · exact .inl ⟨s', by rw [hr]; rfl, hs', hlt, _, _, hgrows⟩
  · rw [heq]
    exact h.on hq fun conn hp => hf.next hp

theorem stepSock_quiet (hq : s.queue = []) (a : Action) (io : Io) :
    a = .event ∧ stepSock s (a, io) = .ok s ∨ stepSock s (a, io) = work io s a >>= nnCtxLeave := by
  cases a <;> simp [stepSock, hq]

/-- A step when events wait: the first is handled, all else has to wait. -/
theorem stepSock_busy (hq : s.queue ≠ []) (a : Action) (io : Io) :
    a ≠ .event ∧ stepSock s (a, io) = .ok s ∨
      a = .event ∧ stepSock s (a, io) = nnFsmEventProcess io s >>= nnCtxLeave := by
  obtain ⟨e, es, hcons⟩ := List.exists_cons_of_ne_nil hq
  cases a <;> simp [stepSock, hcons]

theorem load_leave : (if s.queue = [] then s.signalled else s).load = s.load := by
  split <;> rfl

theorem Grows.leave {s' : Sock} (h : Grows s s' ms ns) :
    Grows s (if s'.queue = [] then s'.signalled else s') ms ns := by
  split
  · exact ⟨h.received, h.sent, h.attached, h.recvdOn, h.sentOn⟩
  · exact h

theorem Turn.leave {n : Nat} {r : Except Assert Sock} (ht : Turn s n r) :
    (∃ s', r >>= nnCtxLeave = .ok s' ∧ Good s' ∧ s'.load < n ∧
      ∃ ms ns, Grows s s' ms ns) ∨ Fails s (r >>= nnCtxLeave) := by
  rcases ht with ⟨s', rfl, hs', hload, ms, ns, hgrows⟩ | ⟨rfl, hbad⟩
  · exact .inl ⟨_, nnCtxLeave_eq hs', hs'.leave, lt_of_eq_of_lt load_leave hload, ms, ns, hgrows.leave⟩
  · exact .inr ⟨rfl, hbad⟩

/-- **Every step keeps the invariant**, or a frame of a type that is not known has ended
the process. -/
theorem stepSock_good (h : Good s) (i : Action × Io) :
    (∃ s', stepSock s i = .ok s' ∧ Good s' ∧ ∃ ms ns, Grows s s' ms ns) ∨ Fails s (stepSock s i) := by
  have hforget : ∀ {n r},
      ((∃ s', r = .ok s' ∧ Good s' ∧ s'.load < n ∧ ∃ ms ns, Grows s s' ms ns) ∨ Fails s r) →
        (∃ s', r = .ok s' ∧ Good s' ∧ ∃ ms ns, Grows s s' ms ns) ∨ Fails s r := by
    rintro n r (⟨s', hr, hs', -, hgrows⟩ | hfail)
    · exact .inl ⟨s', hr, hs', hgrows⟩
    · exact .inr hfail
  obtain ⟨a, io⟩ := i
  by_cases hq : s.queue = []
  · rcases stepSock_quiet hq a io with ⟨-, hstep⟩ | hstep
    · exact .inl ⟨s, hstep, h, _, _, .refl s⟩
    · rw [hstep]
      exact hforget (work_turn h.toReady hq a).leave
  · rcases stepSock_busy hq a io with ⟨-, hstep⟩ | ⟨-, hstep⟩
    · exact .inl ⟨s, hstep, h, _, _, .refl s⟩
    · rw [hstep]
      exact hforget (nnFsmEventProcess_turn h.toReady hq).1.leave

/-- Handling an event brings the queue closer to its end. -/
theorem stepSock_event (h : Good s) (hbusy : s.queue ≠ []) (io : Io) :
    (∃ s', stepSock s (.event, io) = .ok s' ∧ Good s' ∧ s'.load < s.load ∧
      ∃ ms ns, Grows s s' ms ns) ∨ Fails s (stepSock s (.event, io)) := by
  rcases stepSock_busy hbusy .event io with ⟨hne, -⟩ | ⟨-, hstep⟩
  · exact absurd rfl hne
  · rw [hstep]
    exact (nnFsmEventProcess_turn h.toReady hbusy).1.leave

/-! ## Messages -/

theorem recv_round (h : Good s) (hq : s.queue = []) (io : Io) (first : Bool) : ∃ s' msg t,
    nnSockRecv io s first = .ok (s', msg) ∧ nnCtxLeave s' = .ok t ∧ Good t ∧
      Grows s t msg.toList [] := by
  rw [nnSockRecv_eq h.toReady]
  have hstay : ∃ t, nnCtxLeave s = .ok t ∧ Good t ∧ Grows s t [] [] :=
    ⟨_, nnCtxLeave_eq h.toReady, h.toReady.leave, (Grows.refl s).leave⟩
  split
  · exact ⟨s, none, hstay.imp fun _ ht => ⟨rfl, ht⟩⟩
  · rcases sockRecv_turn h.toReady hq io with ⟨-, hr⟩ | ⟨s', msg, hr, hs', -, hgrows⟩
    · exact ⟨s, none, hstay.imp fun _ ht => ⟨hr, ht⟩⟩
    · exact ⟨s', some msg, _, hr, nnCtxLeave_eq hs', hs'.leave, hgrows.leave⟩

theorem send_round (h : Good s) (hq : s.queue = []) (io : Io) (msg : Msg) (first : Bool) :
    ∃ s' taken t, nnSockSend io s msg first = .ok (s', taken) ∧ nnCtxLeave s' = .ok t ∧ Good t ∧
      Grows s t [] (if taken then [msg] else []) := by
  rw [nnSockSend_eq h.toReady]
  have hstay : ∃ t, nnCtxLeave s = .ok t ∧ Good t ∧ Grows s t [] [] :=
    ⟨_, nnCtxLeave_eq h.toReady, h.toReady.leave, (Grows.refl s).leave⟩
  split
  · exact ⟨s, false, hstay.imp fun _ ht => ⟨rfl, ht⟩⟩
  · rcases sockSend_turn h.toReady hq io msg with ⟨-, hr⟩ | ⟨s', hr, hs', -, hgrows⟩
    · exact ⟨s, false, hstay.imp fun _ ht => ⟨hr, ht⟩⟩
    · exact ⟨s', true, _, hr, nnCtxLeave_eq hs', hs'.leave, hgrows.leave⟩

/-- No message goes between the user thread and the socket. -/
def Silent (s t : Sock) : Prop := t.received = s.received ∧ t.sent = s.sent

theorem on_silent {t : Sock} {f : World → Except Assert World} (h : s.on c f = .ok t) :
    Silent s t := by
  unfold Sock.on at h
  split at h
  · cases h
    exact ⟨rfl, rfl⟩
  · rename_i conn _
    cases hf : f (s.world c conn) with
    | error e =>
      rw [hf] at h
      cases h
    | ok w =>
      rw [hf] at h
      cases h
      exact ⟨rfl, rfl⟩

/-- Only the user thread gets and gives messages. -/
theorem stepSock_silent (h : Good s) {a : Action} {t : Sock} (hrecv : ∀ first, a ≠ .recv first)
    (hsend : ∀ msg first, a ≠ .send msg first) (hstep : stepSock s (a, io) = .ok t) : Silent s t := by
  have hleave : ∀ {r : Except Assert Sock} {n : Nat}, Turn s n r → r >>= nnCtxLeave = .ok t →
      (∀ s', r = .ok s' → Silent s s') → Silent s t := by
    rintro r n (⟨s', rfl, hs', -⟩ | ⟨rfl, -⟩) ht hr
    · have heq := (nnCtxLeave_eq hs').symm.trans ht
      cases heq
      have hsame := hr s' rfl
      split
      · exact ⟨hsame.1, hsame.2⟩
      · exact hsame
    · cases ht
  by_cases hq : s.queue = []
  · rcases stepSock_quiet hq a io with ⟨-, heq⟩ | heq
    · cases heq.symm.trans hstep
      exact ⟨rfl, rfl⟩
    · refine hleave (work_turn h.toReady hq a) (heq.symm.trans hstep) fun s' hs' => ?_
      rcases work_cases io a with rfl | rfl | ⟨first, rfl⟩ | ⟨msg, first, rfl⟩ | ⟨c, f, hf, -⟩
      · cases hs'
        exact ⟨rfl, rfl⟩
      · cases hs'
        exact ⟨rfl, rfl⟩
      · exact absurd rfl (hrecv first)
      · exact absurd rfl (hsend msg first)
      · exact on_silent ((hf s).symm.trans hs')
  · rcases stepSock_busy hq a io with ⟨-, heq⟩ | ⟨-, heq⟩
    · cases heq.symm.trans hstep
      exact ⟨rfl, rfl⟩
    · refine hleave (nnFsmEventProcess_turn h.toReady hq).1 (heq.symm.trans hstep) fun s' hs' => ?_
      unfold nnFsmEventProcess at hs'
      split at hs'
      · cases hs'
        exact ⟨rfl, rfl⟩
      · have hsame := on_silent hs'
        exact ⟨hsame.1, hsame.2⟩

end Nanomsg
