import Getd.Lib.Trace
import Getd.Transfer
import Getd.UserName

/-!
# What a session has seen

A `Chronicle` is the history of the session opened last, as its client has it: the
message that opened it, the request that its first piece answers, and the answers
since. `chronicler` is the main loop with that history beside it. `handle_tells`
says, for each kind of answer, what becomes of the session and of its stream.
-/

namespace Getd

open CLib

variable {e : Env} {m : Mem} {g : Daemon}

structure Chronicle where
  greeting : Option Mem
  request : Option (Env × Mem)
  answers : List (Option Reply)

namespace Chronicle

def empty : Chronicle := ⟨none, none, []⟩

/-- What the answer to a message adds. The first piece settles the request. -/
def next (c : Chronicle) (e : Env) (m : Mem) : Option Reply → Chronicle
  | some (.type1 ..) => ⟨some m, none, []⟩
  | some (.type4 n l k sid got) =>
    ⟨c.greeting, c.request.or (some (e, m)), c.answers ++ [some (.type4 n l k sid got)]⟩
  | o => ⟨c.greeting, c.request, c.answers ++ [o]⟩

def delivered (c : Chronicle) : List UInt8 := ((sentPieces c.answers).map Reply.content).flatten

/-- The end of the file has been announced. -/
def Finished (c : Chronicle) : Prop := ∃ r, some r ∈ c.answers ∧ r.type = 5

variable {c : Chronicle} {o : Option Reply}

theorem next_delivered (h : ∀ r, o = some r → r.type ≠ 1) :
    (c.next e m o).delivered = c.delivered ++ (o.map Reply.content).getD [] := by
  have hsent : ∀ o, ((sentPieces (c.answers ++ [o])).map Reply.content).flatten =
      c.delivered ++ ((sentPieces [o]).map Reply.content).flatten := fun o => by
    rw [sentPieces_append, List.map_append, List.flatten_append, delivered]
  rcases o with _ | r
  · exact hsent none
  · cases r with
    | type1 => exact absurd rfl (h _ rfl)
    | type2 | type4 | type5 => exact (hsent _).trans (by simp [sentPieces, Reply.type, Reply.content])

theorem next_finished (h : ∀ r, o = some r → r.type ≠ 1) :
    (c.next e m o).Finished ↔ c.Finished ∨ ∃ r, o = some r ∧ r.type = 5 := by
  have hadd : ∀ o, (∃ r, some r ∈ c.answers ++ [o] ∧ r.type = 5) ↔
      c.Finished ∨ ∃ r, o = some r ∧ r.type = 5 := fun o => by
    simp only [Finished, List.mem_append, List.mem_singleton, or_and_right, exists_or,
      eq_comm (a := o)]
  rcases o with _ | r
  · exact hadd none
  · cases r with
    | type1 => exact absurd rfl (h _ rfl)
    | type2 | type4 | type5 => exact hadd _

theorem next_quiet (h1 : ∀ r, o = some r → r.type ≠ 1 ∧ r.type ≠ 5)
    (h0 : (o.map Reply.content).getD [] = []) :
    (c.next e m o).delivered = c.delivered ∧ ((c.next e m o).Finished ↔ c.Finished) := by
  constructor
  · rw [next_delivered fun r hr => (h1 r hr).1, h0, List.append_nil]
  · rw [next_finished fun r hr => (h1 r hr).1]
    exact or_iff_left fun ⟨r, hr, h5⟩ => (h1 r hr).2 h5

theorem next_type2 {n l : Nat} {text : List UInt8} :
    (c.next e m (some (.type2 n l text))).delivered = c.delivered ∧
      ((c.next e m (some (.type2 n l text))).Finished ↔ c.Finished) := by
  have h21 : (2 : UInt8) ≠ 1 := by decide
  have h25 : (2 : UInt8) ≠ 5 := by decide
  exact next_quiet (fun _ hr => by cases hr; exact ⟨h21, h25⟩) rfl

theorem next_none :
    (c.next e m none).delivered = c.delivered ∧ ((c.next e m none).Finished ↔ c.Finished) :=
  next_quiet (by simp) rfl

theorem next_type4 {n l k : Nat} {sid got : List UInt8} :
    (c.next e m (some (.type4 n l k sid got))).delivered = c.delivered ++ got ∧
      ((c.next e m (some (.type4 n l k sid got))).Finished ↔ c.Finished) := by
  have h41 : (4 : UInt8) ≠ 1 := by decide
  have h45 : (4 : UInt8) ≠ 5 := by decide
  constructor
  · rw [next_delivered fun r hr => by cases hr; exact h41]
    rfl
  · rw [next_finished fun r hr => by cases hr; exact h41]
    exact or_iff_left fun ⟨r, hr, h5⟩ => by cases hr; exact h45 h5

theorem next_type5 {n l : Nat} {sid : List UInt8} :
    (c.next e m (some (.type5 n l sid))).delivered = c.delivered := by
  have h51 : (5 : UInt8) ≠ 1 := by decide
  rw [next_delivered fun r hr => by cases hr; exact h51]
  exact List.append_nil _

end Chronicle

/-- The main loop with the chronicle of its session. -/
def chronicler : Mealy (Chronicle × Daemon) Input (Option Packet) :=
  mainLoop.observe fun c g i o => c.next i.env (i.message g) (o.bind Packet.reply)

theorem chronicler_cons (s : Chronicle × Daemon) (i : Input) (is : List Input) :
    chronicler.run s (i :: is) = chronicler.run (chronicler.step s i).1 is := rfl

theorem chronicler_step (c : Chronicle) (g : Daemon) (i : Input) :
    (chronicler.step (c, g) i).1 = (c.next i.env (i.message g) (replyOf (iteration g i)),
      (iteration g i).1) := rfl

def userOf (m : Mem) : List UInt8 :=
  ((MessageType0.distinguishedName m).bytes 0 33).takeWhile (· ≠ 0)

/-! ## What one message tells -/

/-- The round reads a block from the stream `f`. -/
inductive Reads (e : Env) (m : Mem) (g : Daemon) : OpenFile → Prop where
  | start {f : File} (ha : Auth3 e m g) (hl : g.state.lastSent = 1)
      (hf : e.fopen (pathOf m) = some f) (hr : f.isReg = true) :
      Reads e m g ⟨pathOf m, f.isReg, Stream.opened f.data f.faults, false⟩
  | more {f : OpenFile} (ha : Auth6 e m g) (hl : g.state.lastSent = 4) (he : g.atEof = false)
      (hf : g.file = some f) : Reads e m g f

theorem Reads.unique {f f' : OpenFile} (h : Reads e m g f) (h' : Reads e m g f') : f = f' := by
  have h14 : (1 : UInt8) ≠ 4 := by decide
  cases h with
  | start _ hl hf =>
    cases h' with
    | start _ _ hf' => rw [Option.some.inj (hf.symm.trans hf')]
    | more _ hl' => exact absurd (hl.symm.trans hl') h14
  | more _ hl _ hf =>
    cases h' with
    | start _ hl' => exact absurd (hl'.symm.trans hl) h14
    | more _ _ _ hf' => exact Option.some.inj (hf.symm.trans hf')

/-- What a message does to the session and its stream, by its answer. -/
inductive Tells (e : Env) (m : Mem) (g : Daemon) : Option Reply → Daemon → Prop where
  | refused {n l : Nat} {text : List UInt8} {g' : Daemon} (hs : g'.state = g.state)
      (hf : g'.file = g.file) : Tells e m g (some (.type2 n l text)) g'
  | failed {n l : Nat} {text : List UInt8} {g' : Daemon} (hl : g'.state.lastSent = 2) :
      Tells e m g (some (.type2 n l text)) g'
  | issued {n l : Nat} {sid : List UInt8} {g' : Daemon} (hl : g'.state.lastSent = 1)
      (hu : g'.state.user = userOf m) : Tells e m g (some (.type1 n l sid)) g'
  | piece {n l : Nat} {sid : List UInt8} {f : OpenFile} {g' : Daemon} (hr : Reads e m g f)
      (hl : g'.state.lastSent = 4) (hu : g'.state.user = g.state.user)
      (hf : g'.file = some { f with stream := f.stream.next 4096 }) :
      Tells e m g (some (.type4 n l (f.stream.fread 4096).1.length sid (f.stream.fread 4096).1)) g'
  | finished {n l : Nat} {sid : List UInt8} {g' : Daemon} (h4 : g.state.lastSent = 4)
      (he : g.atEof = true) (hl : g'.state.lastSent = 5) : Tells e m g (some (.type5 n l sid)) g'
  | silent {g' : Daemon} (hl : g'.state.lastSent = 5) : Tells e m g none g'

theorem tells_refused {text : List UInt8} (ht : text.length < 2 ^ 32) :
    Tells e m g (replyOf (sendError g text)) (sendError g text).1 := by
  rw [replyOf_error g ht, sendError_eq]
  exact .refused rfl rfl

theorem tells_failed {g1 : Daemon} {text : List UInt8} (hl : g1.state.lastSent = 2)
    (ht : text.length < 2 ^ 32) : Tells e m g (replyOf (sendError g1 text)) (sendError g1 text).1 := by
  rw [replyOf_error g1 ht, sendError_eq]
  exact .failed hl

theorem newSession_user : (newSession m g).state.user = userOf m := by
  have hname := copyName_user_field g.state (MessageType0.distinguishedName m)
  rw [newSession_eq, userOf, ← hname]
  exact State.user_congr rfl

theorem Reads.handle_eq {f : OpenFile} (hinv : SessionInv g) (hr : Reads e m g f) :
    ∃ g1, handle e m g = nnSend (messegeType4Builder e g1) ∧ g1.state.Terminated ∧
      g1.state.identity = g.state.identity ∧ g1.file = some f := by
  cases hr with
  | start ha hl hf hr =>
    have hst : (g.fopen e (pathOf m)).fstat.state = g.state := fopen_state _
    exact ⟨_, (Exit.start3 ha hl _ hf hr).handle_eq, hinv.starting hl _, by rw [hst], fopen_file hf⟩
  | more ha hl he hf =>
    exact ⟨_, (Exit.more6 ha hl he).handle_eq, hinv.sending hl, rfl, hf⟩

theorem Reads.tells {f : OpenFile} (hinv : SessionInv g) (hr : Reads e m g f) :
    Tells e m g (replyOf (handle e m g)) (handle e m g).1 := by
  obtain ⟨g1, heq, ht, hid, hf⟩ := hr.handle_eq hinv
  rw [heq, replyOf_type4 ht, nnSend_type4 ht, got_file hf]
  exact .piece hr rfl (State.user_congr (congrArg Identity.userName hid)) (readBlock_file hf)

/-- **What one message tells.** -/
theorem handle_tells (hinv : SessionInv g) (hfile : g.state.lastSent = 4 → ∃ f, g.file = some f) :
    Tells e m g (replyOf (handle e m g)) (handle e m g).1 := by
  have hexit := handle_exit e m g
  generalize handle e m g = r at hexit ⊢
  cases hexit with
  | busy0 | stranger6 => exact tells_refused (by decide)
  | corrupt0 | corrupt3 | stranger3 | invalid3 | noFile3 | irregular3 | corrupt6 | invalid6 =>
    exact tells_failed rfl (by decide)
  | accept0 =>
    have ht := newSession_terminated m g
    have hu : (newSession m g).state.user = userOf m := newSession_user
    generalize newSession m g = g1 at ht hu ⊢
    rw [replyOf_type1 ht, nnSend_type1 ht]
    exact .issued rfl hu
  | start3 ha hl f hf hr =>
    rw [← (Exit.start3 ha hl f hf hr).handle_eq]
    exact Reads.tells hinv (.start ha hl hf hr)
  | more6 ha hl he =>
    obtain ⟨f, hf⟩ := hfile hl
    rw [← (Exit.more6 ha hl he).handle_eq]
    exact Reads.tells hinv (.more ha hl he hf)
  | finish6 ha hl he =>
    rw [replyOf_type5 (hinv.sending hl), nnSend_type5 (hinv.sending hl)]
    exact .finished hl he rfl
  | silent6 ha hl => exact .silent hl
  | other =>
    exact tells_refused (Nat.lt_of_le_of_lt (invalidType_length_le _) (by decide))

/-! ## Rounds that read -/

theorem reads_setBuffer (b : Mem) {f : OpenFile} :
    Reads e m { g with buffer := b } f ↔ Reads e m g f := by
  constructor
  · intro h
    cases h with
    | start ha hl hf hr => exact .start ⟨ha.type, ha.ver, ha.sid⟩ hl hf hr
    | more ha hl he hf => exact .more ⟨ha.type, ha.sid, ha.ver⟩ hl he hf
  · intro h
    cases h with
    | start ha hl hf hr => exact .start ⟨ha.type, ha.ver, ha.sid⟩ hl hf hr
    | more ha hl he hf => exact .more ⟨ha.type, ha.sid, ha.ver⟩ hl he hf

/-- What a round that reads from `f` adds to the chronicle. -/
structure Adds (c : Chronicle) (e : Env) (m : Mem) (f : OpenFile) (s : Chronicle × Daemon) :
    Prop where
  session : SessionInv s.2
  greeting : s.1.greeting = c.greeting
  request : s.1.request = c.request.or (some (e, m))
  delivered : s.1.delivered = c.delivered ++ (f.stream.fread 4096).1
  lastSent : s.2.state.lastSent = 4
  file : s.2.file = some { f with stream := f.stream.next 4096 }

theorem Reads.adds {c : Chronicle} {i : Input} {f : OpenFile} (hinv : SessionInv g)
    (hr : Reads i.env (i.message g) g f) :
    Adds c i.env (i.message g) f (chronicler.step (c, g) i).1 := by
  obtain ⟨g1, heq, ht, -, hf⟩ := Reads.handle_eq (hinv.setBuffer (nnRecv g.buffer i.recv))
    ((reads_setBuffer _).mpr hr)
  have hstep : (chronicler.step (c, g) i).1 = (c.next i.env (i.message g)
      (replyOf (nnSend (messegeType4Builder i.env g1))),
      (nnSend (messegeType4Builder i.env g1)).1) := by
    rw [← heq]
    rfl
  rw [hstep, replyOf_type4 ht, nnSend_type4 ht, got_file hf]
  exact ⟨.of_terminated (.inr rfl) ht, rfl, rfl, Chronicle.next_type4.1, rfl, readBlock_file hf⟩

theorem Reads.user {i : Input} {f : OpenFile} (hinv : SessionInv g)
    (hr : Reads i.env (i.message g) g f) : (iteration g i).1.state.user = g.state.user := by
  obtain ⟨g1, heq, ht, hid, -⟩ := Reads.handle_eq (hinv.setBuffer (nnRecv g.buffer i.recv))
    ((reads_setBuffer _).mpr hr)
  have hnext : (iteration g i).1 = (nnSend (messegeType4Builder i.env g1)).1 := by
    rw [← heq]
    rfl
  rw [hnext, nnSend_type4 ht]
  exact State.user_congr (congrArg Identity.userName hid)

def acknowledge (g : Daemon) (e : Env) : Input := ⟨some (encode6 g.state.sid), fun _ => 0, e⟩

theorem acknowledge_auth6 (ht : g.state.Terminated) (e : Env) :
    Auth6 e ((acknowledge g e).message g) g :=
  acknowledges_auth6 (acknowledges_recv g.buffer _ (State.sid_ne_nul _) (State.sid_length_le ht))
    ht rfl rfl

/-! ## A session of `alice` -/

def aliceOpens (g : Daemon) (path : List UInt8) (e : Env) : List Input :=
  [greeting, ask (iteration g greeting).1 path e]

def aliceReads (g : Daemon) (path : List UInt8) (e : Env) : List Input :=
  let opened := (iteration g greeting).1
  let request := ask opened path e
  [greeting, request, acknowledge (iteration opened request).1 e]

theorem Init.greeted_chronicle (hg : Init g) (c : Chronicle) :
    (chronicler.step (c, g) greeting).1 =
      (⟨some (greeting.message g), none, []⟩, (iteration g greeting).1) := by
  have hi := greeting_introduces g
  have hexit := Exit.accept0 (e := greeting.env)
    (g := { g with buffer := nnRecv g.buffer greeting.recv }) hi.type (.inl hg.lastSent) hi.ver
  have hreply : replyOf (iteration g greeting) = _ :=
    (congrArg replyOf hexit.handle_eq).trans (replyOf_type1 (newSession_terminated _ _))
  rw [chronicler_step, hreply]
  rfl

theorem ask_pathOf {path : List UInt8} (ht : g.state.Terminated) (h0 : 0 ∉ path)
    (hp : path.length ≤ 4095) : pathOf ((ask g path e).message g) = path := by
  have haddr : 4095 ≤ addrSpace := by decide
  rw [ask_message ht hp]
  exact (asks_encode3 (State.sid_ne_nul _) (State.sid_length_le ht) h0 hp).pathName.cstr (by omega)

theorem ask_reads {path : List UInt8} {file : File} (hinv : SessionInv g)
    (hl : g.state.lastSent = 1) (h0 : 0 ∉ path) (hp : path.length ≤ 4095)
    (hf : e.fopen path = some file) (hr : file.isReg = true) :
    Reads e ((ask g path e).message g) g
      ⟨path, file.isReg, Stream.opened file.data file.faults, false⟩ := by
  have ht := hinv.terminated (.inl hl)
  have hpath : pathOf ((ask g path e).message g) = path := ask_pathOf ht h0 hp
  have hread := Reads.start (ask_auth3 ht h0 hp) hl (hpath.symm ▸ hf) hr
  rwa [hpath] at hread

theorem acknowledge_reads {f : OpenFile} (hinv : SessionInv g) (hl : g.state.lastSent = 4)
    (hf : g.file = some f) (he : f.stream.eof = false) :
    Reads e ((acknowledge g e).message g) g f :=
  .more (acknowledge_auth6 (hinv.terminated (.inr hl)) e) hl ((atEof_file hf).trans he) hf

theorem Introduces.userOf_eq {name : List UInt8} (hi : Introduces m name) : userOf m = name :=
  (copyName_user_field zeroBoot.state _).symm.trans (copyName_user hi.distinguishedName hi.fits)

theorem introduces_user {name : List UInt8} (hi : Introduces m name)
    (hl : g.state.lastSent = 5 ∨ g.state.lastSent = 2) : (handle e m g).1.state.user = name := by
  rw [(Exit.accept0 (e := e) (g := g) hi.type hl hi.ver).handle_eq]
  have ht := newSession_terminated m g
  have hu : (newSession m g).state.user = userOf m := newSession_user
  generalize newSession m g = g1 at ht hu ⊢
  rw [nnSend_type1 ht]
  exact ((State.user_congr rfl).trans hu).trans hi.userOf_eq

theorem greeted_user (hl : g.state.lastSent = 5 ∨ g.state.lastSent = 2) :
    (iteration g greeting).1.state.user = chars "alice" := by
  have hopen : (handle greeting.env (greeting.message g)
      { g with buffer := nnRecv g.buffer greeting.recv }).1.state.user = chars "alice" :=
    introduces_user (greeting_introduces g) hl
  exact hopen

section AliceReads

variable {path : List UInt8} {file : File}

theorem aliceReads_atEach {P : Daemon → OpenFile → Prop} (hg : Init g) (h0 : 0 ∉ path)
    (hp : path.length ≤ 4095) (hf : e.fopen path = some file) (hr : file.isReg = true)
    (hread : ∀ g f, g.state.user = chars "alice" → f.path = path →
      (f.stream = Stream.opened file.data file.faults ∨
        f.stream = (Stream.opened file.data file.faults).next 4096) → P g f) :
    AtEach (fun pre i => ∀ f, Reads i.env (i.message (mainLoop.run g pre)) (mainLoop.run g pre) f →
      P (mainLoop.run g pre) f) (aliceReads g path e) := by
  have hl := (greeting_accepted (.inl hg.lastSent)).1
  have hu := greeted_user (.inl hg.lastSent)
  have hinv := (iteration_follows hg.sessionInv greeting).inv
  have h5 := hg.lastSent
  unfold aliceReads
  rw [AtEach.cons_iff, AtEach.cons_iff, AtEach.cons_iff]
  simp only [run_cons, run_nil]
  generalize (iteration g greeting).1 = opened at hinv hl hu ⊢
  have ht := hinv.terminated (.inl hl)
  have hasks : Reads (ask opened path e).env ((ask opened path e).message opened) opened _ :=
    ask_reads hinv hl h0 hp hf hr
  have hsent := hasks.adds (c := .empty) hinv
  rw [chronicler_step] at hsent
  have hfile2 := hsent.file
  have hlast2 := hsent.lastSent
  have hu2 := (hasks.user hinv).trans hu
  dsimp only at hfile2 hlast2
  refine ⟨fun f hread1 => ?_, fun f hread2 => ?_, fun f hread3 => ?_, .nil⟩
  · -- no session yet
    cases hread1 with
    | start _ hl => exact absurd (h5.symm.trans hl) (by decide)
    | more _ hl => exact absurd (h5.symm.trans hl) (by decide)
  · cases hread2 with
    | start _ _ hopen =>
      have hpath : pathOf ((ask opened path e).message opened) = path := ask_pathOf ht h0 hp
      obtain rfl := Option.some.inj (hf.symm.trans (hpath ▸ hopen))
      rw [hpath]
      exact hread _ _ hu rfl (.inl rfl)
    | more _ hl4 => exact absurd (hl.symm.trans hl4) (by decide)
  · cases hread3 with
    | start _ hl1 => exact absurd (hlast2.symm.trans hl1) (by decide)
    | more _ _ _ hfile =>
      obtain rfl := Option.some.inj (hfile2.symm.trans hfile)
      exact hread _ _ hu2 rfl (.inr rfl)

theorem aliceOpens_adds (hg : Init g) (h0 : 0 ∉ path) (hp : path.length ≤ 4095)
    (hf : e.fopen path = some file) (hr : file.isReg = true) :
    ∃ m, pathOf m = path ∧ Adds ⟨some (greeting.message g), none, []⟩ e m
      ⟨path, file.isReg, Stream.opened file.data file.faults, false⟩
      (chronicler.run (.empty, g) (aliceOpens g path e)) := by
  have hl := (greeting_accepted (.inl hg.lastSent)).1
  have hinv := (iteration_follows hg.sessionInv greeting).inv
  unfold aliceOpens
  rw [chronicler_cons, hg.greeted_chronicle, chronicler_cons]
  generalize (iteration g greeting).1 = opened at hinv hl ⊢
  have hasks : Reads (ask opened path e).env ((ask opened path e).message opened) opened _ :=
    ask_reads hinv hl h0 hp hf hr
  exact ⟨_, ask_pathOf (hinv.terminated (.inl hl)) h0 hp, hasks.adds hinv⟩

theorem aliceReads_eq (c : Chronicle) : aliceReads g path e =
    aliceOpens g path e ++
      [acknowledge (chronicler.run (c, g) (aliceOpens g path e)).2 e] := by
  have hsent : (chronicler.run (c, g) (aliceOpens g path e)).2 =
      (iteration (iteration g greeting).1 (ask (iteration g greeting).1 path e)).1 :=
    Mealy.observe_run _ _ g
  rw [hsent]
  rfl

theorem aliceReads_delivers (hg : Init g) (h0 : 0 ∉ path) (hp : path.length ≤ 4095)
    (hf : e.fopen path = some file) (hr : file.isReg = true)
    (he : ((Stream.opened file.data file.faults).next 4096).eof = false) :
    ∃ m, pathOf m = path ∧
      (chronicler.run (.empty, g) (aliceReads g path e)).1.request = some (e, m) ∧
      (chronicler.run (.empty, g) (aliceReads g path e)).1.delivered =
        ((Stream.opened file.data file.faults).fread 4096).1 ++
          (((Stream.opened file.data file.faults).next 4096).fread 4096).1 := by
  obtain ⟨m, hpath, hfirst⟩ := aliceOpens_adds hg h0 hp hf hr
  rw [aliceReads_eq .empty, Mealy.run_append, chronicler_cons]
  generalize chronicler.run (.empty, g) (aliceOpens g path e) = s at hfirst ⊢
  obtain ⟨c, sending⟩ := s
  have hsecond := (acknowledge_reads (e := e) hfirst.session hfirst.lastSent hfirst.file he).adds
    (c := c) (i := acknowledge sending e) hfirst.session
  refine ⟨m, hpath, ?_, hsecond.delivered.trans (congrArg (· ++ _) hfirst.delivered)⟩
  exact hsecond.request.trans (by rw [hfirst.request]; rfl)

end AliceReads

end Getd
