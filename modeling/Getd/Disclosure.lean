import Getd.Lib.Trace
import Getd.Chronicle

/-!
# Disclosure

`MessageType3Handler` has `fstat` look at the stream that `fopen` returned, which has
followed every link, and no handler compares the stored name with an owner. So a
session delivers its user's own regular file and nothing else exactly as long as no
block is read under a path that is a link or has another owner (`own_only_iff`).
-/

namespace Getd

open CLib

variable {e : Env} {m : Mem} {g : Daemon} {c : Chronicle}

/-! ## File systems -/

/-- What has a path. A link has one of its own and names another. -/
inductive Node where
  | regular (owner data : List UInt8)
  | directory (owner : List UInt8)
  | special (owner : List UInt8)
  | symlink (owner target : List UInt8)
  deriving DecidableEq

namespace Node

def owner : Node → List UInt8
  | regular o _ | directory o | special o | symlink o _ => o

def isReg : Node → Bool
  | regular .. => true
  | _ => false

def isLink : Node → Bool
  | symlink .. => true
  | _ => false

def data : Node → List UInt8
  | regular _ d => d
  | _ => []

end Node

abbrev FileSystem := List UInt8 → Option Node

variable {fs : FileSystem} {path : List UInt8} {n n' : Node}

/-- Following the links from a path ends at `n`. -/
inductive Resolves (fs : FileSystem) : List UInt8 → Node → Prop where
  | here {path : List UInt8} {n : Node} (h : fs path = some n) (hl : n.isLink = false) :
      Resolves fs path n
  | link {path owner target : List UInt8} {n : Node} (h : fs path = some (.symlink owner target))
      (ht : Resolves fs target n) : Resolves fs path n

/-- `fopen` follows symbolic links, and `fstat` describes the file reached. -/
def FollowsLinks (fs : FileSystem) (e : Env) : Prop :=
  ∀ path f, e.fopen path = some f →
    ∃ n, Resolves fs path n ∧ f.isReg = n.isReg ∧ (n.isReg = true → f.data = n.data)

/-- The path itself is a regular file of the user. -/
def OwnFile (fs : FileSystem) (path user : List UInt8) : Prop :=
  ∃ data, fs path = some (.regular user data)

theorem Resolves.eq_of_not_link (h : Resolves fs path n) (hp : fs path = some n')
    (hl : n'.isLink = false) : n = n' := by
  cases h with
  | here h => exact Option.some.inj (h.symm.trans hp)
  | link h =>
    cases h.symm.trans hp
    exact absurd hl (by simp [Node.isLink])

/-- A path that resolves to a regular file is one of the user's, unless it is a link
or has another owner. -/
theorem Resolves.ownFile_iff {user : List UInt8} (h : Resolves fs path n) (hr : n.isReg = true) :
    OwnFile fs path user ↔ ∃ n, fs path = some n ∧ n.isLink = false ∧ n.owner = user := by
  constructor
  · rintro ⟨data, hp⟩
    exact ⟨_, hp, rfl, rfl⟩
  · rintro ⟨n', hp, hl, ho⟩
    obtain rfl := h.eq_of_not_link hp hl
    cases n with
    | regular o d =>
      obtain rfl : o = user := ho
      exact ⟨d, hp⟩
    | directory | special | symlink => exact absurd hr (by simp [Node.isReg])

/-! ## The statement -/

/-- What the session has delivered is from the file its request named, a regular
file of the user who opened it. -/
def OwnOnly (fs : FileSystem) (c : Chronicle) : Prop :=
  c.delivered ≠ [] → ∃ e m m0, c.request = some (e, m) ∧ Header.messageType m = 3 ∧
    c.greeting = some m0 ∧ OwnFile fs (pathOf m) (userOf m0)

/-- A block with bytes in it is read under a path that is no link and belongs to
the user of the session. -/
def OwnRound (fs : FileSystem) (g : Daemon) (i : Input) : Prop :=
  ∀ f, Reads i.env (i.message g) g f → (f.stream.fread 4096).1 ≠ [] →
    ∃ n, fs f.path = some n ∧ n.isLink = false ∧ n.owner = g.state.user

/-! ## The invariant -/

/-- The session is sending the file that `m` named, for the user named in `m0`. -/
structure SendsPath (fs : FileSystem) (c : Chronicle) (g : Daemon) (e : Env) (m m0 : Mem)
    (s : OpenFile) (n : Node) : Prop where
  request : c.request = some (e, m)
  type : Header.messageType m = 3
  greeting : c.greeting = some m0
  user : g.state.user = userOf m0
  file : g.file = some s
  path : s.path = pathOf m
  resolves : Resolves fs s.path n
  regular : n.isReg = true

/-- The daemon's session is the one of the chronicle. -/
structure Linked (fs : FileSystem) (s : Chronicle × Daemon) : Prop where
  session : SessionInv s.2
  opened : s.2.state.lastSent = 1 → s.1.request = none ∧ s.1.delivered = [] ∧
    ∃ m0, s.1.greeting = some m0 ∧ s.2.state.user = userOf m0
  sending : s.2.state.lastSent = 4 → ∃ e m m0 f n, SendsPath fs s.1 s.2 e m m0 f n

theorem Linked.of_idle (hl : g.state.lastSent = 2 ∨ g.state.lastSent = 5) : Linked fs (c, g) := by
  refine ⟨.of_idle hl, fun h1 => ?_, fun h4 => ?_⟩
  · rcases hl with hl | hl <;> rw [hl] at h1 <;> exact absurd h1 (by decide)
  · rcases hl with hl | hl <;> rw [hl] at h4 <;> exact absurd h4 (by decide)

theorem Linked.of_sends {m0 : Mem} {s : OpenFile} (hinv : SessionInv g)
    (hl : g.state.lastSent = 4) (h : SendsPath fs c g e m m0 s n) : Linked fs (c, g) := by
  refine ⟨hinv, fun h1 => ?_, fun _ => ⟨e, m, m0, s, n, h⟩⟩
  rw [hl] at h1
  exact absurd h1 (by decide)

theorem SendsPath.ownOnly_iff {m0 : Mem} {s : OpenFile} (h : SendsPath fs c g e m m0 s n) :
    OwnOnly fs c ↔ (c.delivered ≠ [] →
      ∃ n, fs s.path = some n ∧ n.isLink = false ∧ n.owner = g.state.user) := by
  refine imp_congr_right fun _ => ?_
  rw [← h.resolves.ownFile_iff h.regular, h.path, h.user]
  constructor
  · rintro ⟨e', m', m0', hr, -, hg, hown⟩
    obtain ⟨rfl, rfl⟩ := Prod.mk.inj (Option.some.inj (h.request.symm.trans hr))
    obtain rfl := Option.some.inj (h.greeting.symm.trans hg)
    exact hown
  · exact fun hown => ⟨e, m, m0, h.request, h.type, h.greeting, hown⟩

theorem OwnOnly.congr {c' : Chronicle} (h : OwnOnly fs c) (hr : c'.request = c.request)
    (hg : c'.greeting = c.greeting) (hd : c'.delivered = c.delivered) : OwnOnly fs c' := by
  rw [OwnOnly, hr, hg, hd]
  exact h

theorem ownOnly_nil (h : c.delivered = []) : OwnOnly fs c := fun hd => absurd h hd

/-! ## One message -/

/-- **One message** keeps the session linked to its chronicle. -/
theorem Linked.next {o : Option Reply} {g' : Daemon} (hfs : FollowsLinks fs e)
    (h : Linked fs (c, g)) (hinv : SessionInv g') (ht : Tells e m g o g') :
    Linked fs (c.next e m o, g') := by
  cases ht with
  | refused hs hf =>
    refine ⟨hinv, fun h1 => ?_, fun h4 => ?_⟩
    · obtain ⟨hreq, hd, m0, hgr, hu⟩ := h.opened (hs ▸ h1)
      exact ⟨hreq, (Chronicle.next_type2 (e := e) (m := m)).1.trans hd, m0, hgr, hs.symm ▸ hu⟩
    · obtain ⟨e0, m1, m0, s, n, hsend⟩ := h.sending (hs ▸ h4)
      exact ⟨e0, m1, m0, s, n, hsend.request, hsend.type, hsend.greeting, hs.symm ▸ hsend.user,
        hf.trans hsend.file, hsend.path, hsend.resolves, hsend.regular⟩
  | failed hl => exact .of_idle (.inl hl)
  | issued hl hu =>
    have h14 : (1 : UInt8) ≠ 4 := by decide
    exact ⟨hinv, fun _ => ⟨rfl, rfl, m, rfl, hu⟩, fun h4 => absurd (hl.symm.trans h4) h14⟩
  | piece hr hl hu hf =>
    cases hr with
    | start ha hl1 ho hreg =>
      obtain ⟨hreq, -, m0, hgr, huser⟩ := h.opened hl1
      obtain ⟨n, hres, hisreg, -⟩ := hfs _ _ ho
      have hreq' : c.request.or (some (e, m)) = some (e, m) := by rw [hreq]; rfl
      exact .of_sends hinv hl ⟨hreq', ha.type, hgr, hu.trans huser, hf, rfl, hres,
        hisreg.symm.trans hreg⟩
    | more ha hl4 he hfile =>
      obtain ⟨e0, m1, m0, s, n, hsend⟩ := h.sending hl4
      obtain rfl := Option.some.inj (hfile.symm.trans hsend.file)
      have hreq' : c.request.or (some (e, m)) = some (e0, m1) := by rw [hsend.request]; rfl
      exact .of_sends hinv hl ⟨hreq', hsend.type, hsend.greeting, hu.trans hsend.user, hf,
        hsend.path, hsend.resolves, hsend.regular⟩
  | finished _ _ hl => exact .of_idle (.inr hl)
  | silent hl => exact .of_idle (.inr hl)

theorem OwnOnly.next_of_not_reads {o : Option Reply} {g' : Daemon} (h : OwnOnly fs c)
    (ht : Tells e m g o g') (hr : ∀ f, ¬ Reads e m g f) : OwnOnly fs (c.next e m o) := by
  cases ht with
  | refused | failed => exact h.congr rfl rfl Chronicle.next_type2.1
  | issued => exact ownOnly_nil rfl
  | piece hread => exact absurd hread (hr _)
  | finished => exact h.congr rfl rfl Chronicle.next_type5
  | silent => exact h.congr rfl rfl Chronicle.next_none.1

/-! ## The run -/

theorem Linked.tells {i : Input} (h : Linked fs (c, g)) :
    Tells i.env (i.message g) { g with buffer := nnRecv g.buffer i.recv }
      (replyOf (iteration g i)) (iteration g i).1 := by
  refine handle_tells (h.session.setBuffer (nnRecv g.buffer i.recv)) fun h4 => ?_
  obtain ⟨e0, m1, m0, s, n, hsend⟩ := h.sending h4
  exact ⟨s, hsend.file⟩

theorem Linked.setBuffer (b : Mem) (h : Linked fs (c, g)) :
    Linked fs (c, { g with buffer := b }) := by
  refine ⟨h.session.setBuffer b, h.opened, fun h4 => ?_⟩
  obtain ⟨e0, m1, m0, s, n, hsend⟩ := h.sending h4
  exact ⟨e0, m1, m0, s, n, hsend.request, hsend.type, hsend.greeting, hsend.user, hsend.file,
    hsend.path, hsend.resolves, hsend.regular⟩

theorem linked_step {i : Input} (hfs : FollowsLinks fs i.env) (h : Linked fs (c, g)) :
    Linked fs (chronicler.step (c, g) i).1 := by
  rw [chronicler_step]
  exact (h.setBuffer _).next hfs (iteration_follows h.session i).inv h.tells

theorem Linked.owns_more {f : OpenFile} (h : Linked fs (c, g)) (hown : OwnOnly fs c)
    (hr : Reads e m g f) (hd : c.delivered ≠ []) :
    ∃ n, fs f.path = some n ∧ n.isLink = false ∧ n.owner = g.state.user := by
  cases hr with
  | start _ hl => exact absurd (h.opened hl).2.1 hd
  | more _ hl _ hf =>
    obtain ⟨e0, m1, m0, s, n, hsend⟩ := h.sending hl
    obtain rfl := Option.some.inj (hf.symm.trans hsend.file)
    exact hsend.ownOnly_iff.mp hown hd

/-- **One round** delivers its user's own bytes exactly when it reads them under a
path that is no link and has no other owner. -/
theorem ownOnly_step {i : Input} (hfs : FollowsLinks fs i.env) (h : Linked fs (c, g))
    (hown : OwnOnly fs c) : OwnOnly fs (chronicler.step (c, g) i).1.1 ↔ OwnRound fs g i := by
  by_cases hreads : ∃ f, Reads i.env (i.message g) g f
  · obtain ⟨f, hr⟩ := hreads
    have hadds := hr.adds (c := c) h.session
    have huser := hr.user h.session
    have hnext := linked_step hfs h
    rw [chronicler_step] at hadds hnext ⊢
    generalize (iteration g i).1 = g' at hadds huser hnext ⊢
    generalize c.next i.env (i.message g) (replyOf (iteration g i)) = c' at hadds hnext ⊢
    obtain ⟨e0, m1, m0, s, n, hsend⟩ := hnext.sending hadds.lastSent
    have hpath : s.path = f.path := by
      rw [← Option.some.inj (hadds.file.symm.trans hsend.file)]
    rw [hsend.ownOnly_iff, hadds.delivered, huser, hpath]
    constructor
    · intro hall f' hr' hne
      obtain rfl := hr'.unique hr
      exact hall fun hnil => hne (List.append_eq_nil_iff.mp hnil).2
    · intro hround hne
      by_cases hd : c.delivered = []
      · exact hround f hr fun hnil => hne (by rw [hd, hnil, List.append_nil])
      · exact h.owns_more hown hr hd
  · refine iff_of_true ?_ fun f hr => absurd ⟨f, hr⟩ hreads
    exact hown.next_of_not_reads h.tells fun f hr => hreads ⟨f, (reads_setBuffer _).mp hr⟩

theorem Init.linked (hg : Init g) : Linked fs (.empty, g) := .of_idle (.inr hg.lastSent)

/-- **Only its user's own regular file is disclosed** at every point of a run exactly
when each block with bytes in it is read under a path that is no link and belongs
to the user of the session. -/
theorem own_only_iff (hg : Init g) {is : List Input} (hfs : ∀ i ∈ is, FollowsLinks fs i.env) :
    (∀ pre, pre <+: is → OwnOnly fs (chronicler.run (.empty, g) pre).1) ↔
      AtEach (fun pre i => OwnRound fs (mainLoop.run g pre) i) is := by
  have hobs : ∀ pre, (chronicler.run (.empty, g) pre).2 = mainLoop.run g pre := fun pre =>
    Mealy.observe_run pre _ g
  simp only [← hobs]
  exact Mealy.always_iff (M := chronicler) (I := Linked fs) (R := fun s => OwnOnly fs s.1)
    (Q := fun s i => OwnRound fs s.2 i) (fun s i hi h hown => ownOnly_step (hfs i hi) h hown)
    (fun s i hi h => linked_step (hfs i hi) h) hg.linked (ownOnly_nil rfl)

/-! ## Sessions of `alice` -/

def openOnly (path : List UInt8) (file : File) : Env :=
  ⟨fun _ => 0, fun p => if p = path then some file else none⟩

theorem openOnly_fopen (path : List UInt8) (file : File) :
    (openOnly path file).fopen path = some file := if_pos rfl

theorem openOnly_follows {file : File} (h : Resolves fs path n) (hr : file.isReg = n.isReg)
    (hd : file.data = n.data) : FollowsLinks fs (openOnly path file) := by
  intro p f hf
  obtain ⟨rfl, hopen⟩ := Option.ite_none_right_eq_some.mp hf
  obtain rfl := Option.some.inj hopen
  exact ⟨n, h, hr, fun _ => hd⟩

theorem aliceReads_follows {file : File} (h : Resolves fs path n) (hr : file.isReg = n.isReg)
    (hd : file.data = n.data) :
    ∀ i ∈ aliceReads g path (openOnly path file), FollowsLinks fs i.env := by
  have hopen := openOnly_follows h hr hd
  intro i hi
  simp only [aliceReads, List.mem_cons, List.not_mem_nil, or_false] at hi
  rcases hi with rfl | rfl | rfl
  · exact fun _ _ hf => absurd hf (by simp [greeting, recvOf, envOf])
  · exact hopen
  · exact hopen

def homeFs : FileSystem := fun p =>
  if p = chars "/tmp/a" then some (.regular (chars "alice") (chars "hi")) else none

def homeEnv : Env := openOnly (chars "/tmp/a") ⟨true, chars "hi", []⟩

theorem own_only_alice : OwnOnly homeFs
    (chronicler.run (.empty, zeroBoot) (aliceReads zeroBoot (chars "/tmp/a") homeEnv)).1 := by
  have hhome : homeFs (chars "/tmp/a") = some (.regular (chars "alice") (chars "hi")) := rfl
  refine (own_only_iff zeroBoot_init (aliceReads_follows (.here hhome rfl) rfl rfl)).mpr
    (aliceReads_atEach (P := fun g f => (f.stream.fread 4096).1 ≠ [] →
      ∃ n, homeFs f.path = some n ∧ n.isLink = false ∧ n.owner = g.state.user) zeroBoot_init
      (by decide) (by decide) (openOnly_fopen _ _) rfl fun g f hu hp _ _ => ?_) _ List.prefix_rfl
  rw [hp, hu]
  exact ⟨_, hhome, rfl, rfl⟩

def shadowFs : FileSystem := fun p =>
  if p = chars "/tmp/a" then some (.symlink (chars "alice") (chars "/etc/shadow"))
  else if p = chars "/etc/shadow" then some (.regular (chars "root") (chars "root:x")) else none

def shadowEnv : Env := openOnly (chars "/tmp/a") ⟨true, chars "root:x", []⟩

/-- `alice` is sent the file of `root`. -/
theorem shadow_disclosed : Init zeroBoot ∧
    (∀ i ∈ aliceOpens zeroBoot (chars "/tmp/a") shadowEnv, FollowsLinks shadowFs i.env) ∧
    ¬ OwnOnly shadowFs
      (chronicler.run (.empty, zeroBoot) (aliceOpens zeroBoot (chars "/tmp/a") shadowEnv)).1 := by
  have hlink : shadowFs (chars "/tmp/a") =
    some (.symlink (chars "alice") (chars "/etc/shadow")) := rfl
  have hroot : shadowFs (chars "/etc/shadow") =
    some (.regular (chars "root") (chars "root:x")) := rfl
  have hfollows : ∀ i ∈ aliceReads zeroBoot (chars "/tmp/a") shadowEnv,
      FollowsLinks shadowFs i.env :=
    aliceReads_follows (.link hlink (.here hroot rfl)) rfl rfl
  refine ⟨zeroBoot_init, fun i hi => hfollows i (List.mem_append_left [_] hi), fun h => ?_⟩
  obtain ⟨m, hpath, hadds⟩ := aliceOpens_adds (e := shadowEnv) zeroBoot_init (by decide)
    (by decide) (openOnly_fopen (chars "/tmp/a") ⟨true, chars "root:x", []⟩) rfl
  generalize chronicler.run _ _ = s at hadds h
  have hbytes : s.1.delivered ≠ [] := by
    rw [hadds.delivered]
    decide
  obtain ⟨e', m', m0, hr, -, -, data, hreg⟩ := h hbytes
  obtain ⟨-, rfl⟩ := Prod.mk.inj (Option.some.inj (hadds.request.symm.trans hr))
  rw [hpath, hlink] at hreg
  exact absurd hreg (by simp)

end Getd
