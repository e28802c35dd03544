import Getd.Lib.Trace
import Getd.Chronicle

/-!
# Read errors

`MessegeType4Builder` takes a short `fread` for the end of the file and calls `getc`
to have the end-of-file indicator set. After an error the `getc` can succeed, and
then its byte is in no reply. A run in which each error that stops an `fread` is
harmless to the `getc` behind it skips no byte of any file (`none_skipped`).
-/

namespace Getd

open CLib

variable {e : Env} {m : Mem} {g : Daemon} {c : Chronicle}

/-! ## The statement -/

/-- What the session has delivered is a beginning of the file its request named,
and all of it once the end has been announced. -/
structure NoneSkipped (c : Chronicle) : Prop where
  unasked : c.request = none → c.delivered = [] ∧ ¬ c.Finished
  asked : ∀ e m, c.request = some (e, m) → Header.messageType m = 3 ∧
    ∃ f, e.fopen (pathOf m) = some f ∧ c.delivered <+: f.data ∧ (c.Finished → c.delivered = f.data)

/-- An error that stops the `fread` of the round does not let the `getc` behind it
get a byte. -/
def HarmlessRound (g : Daemon) (i : Input) : Prop :=
  ∀ f, Reads i.env (i.message g) g f → f.stream.Harmless 4096

/-! ## The invariant -/

/-- The session is sending the file its request named, and the stream has delivered
what the replies have. -/
structure SendsFile (c : Chronicle) (g : Daemon) (e : Env) (m : Mem) (f : File) (s : OpenFile) :
    Prop where
  request : c.request = some (e, m)
  type : Header.messageType m = 3
  opens : e.fopen (pathOf m) = some f
  file : g.file = some s
  data : s.stream.data = f.data
  delivered : s.stream.Delivered c.delivered
  unfinished : ¬ c.Finished

structure Told (s : Chronicle × Daemon) : Prop where
  session : SessionInv s.2
  skipped : NoneSkipped s.1
  opened : s.2.state.lastSent = 1 → s.1.request = none
  sending : s.2.state.lastSent = 4 → ∃ e m f file, SendsFile s.1 s.2 e m f file

theorem SendsFile.noneSkipped {f : File} {s : OpenFile} (h : SendsFile c g e m f s) :
    NoneSkipped c := by
  refine ⟨fun hn => absurd (h.request.symm.trans hn) (by simp), fun e' m' hr => ?_⟩
  obtain ⟨rfl, rfl⟩ := Prod.mk.inj (Option.some.inj (h.request.symm.trans hr))
  exact ⟨h.type, f, h.opens, h.data ▸ h.delivered.isPrefix, fun hc => absurd hc h.unfinished⟩

theorem NoneSkipped.congr {c' : Chronicle} (h : NoneSkipped c) (hr : c'.request = c.request)
    (hd : c'.delivered = c.delivered) (hf : c'.Finished ↔ c.Finished) : NoneSkipped c' := by
  refine ⟨?_, ?_⟩ <;> rw [hr, hd, hf]
  · exact h.unasked
  · exact h.asked

theorem noneSkipped_empty (m : Option Mem) : NoneSkipped ⟨m, none, []⟩ :=
  ⟨fun _ => ⟨rfl, fun ⟨_, h, _⟩ => absurd h List.not_mem_nil⟩, fun _ _ h => absurd h (by simp)⟩

/-- After the session the history stays as it is. -/
theorem Told.of_idle (hl : g.state.lastSent = 2 ∨ g.state.lastSent = 5) (h : NoneSkipped c) :
    Told (c, g) := by
  refine ⟨.of_idle hl, h, fun h1 => ?_, fun h4 => ?_⟩
  · rcases hl with hl | hl <;> rw [hl] at h1 <;> exact absurd h1 (by decide)
  · rcases hl with hl | hl <;> rw [hl] at h4 <;> exact absurd h4 (by decide)

theorem Told.of_sends {f : File} {s : OpenFile} (hinv : SessionInv g) (hl : g.state.lastSent = 4)
    (h : SendsFile c g e m f s) : Told (c, g) := by
  refine ⟨hinv, h.noneSkipped, fun h1 => ?_, fun _ => ⟨e, m, f, s, h⟩⟩
  rw [hl] at h1
  exact absurd h1 (by decide)

/-! ## One message -/

theorem SendsFile.piece {e0 : Env} {m0 : Mem} {f : File} {s : OpenFile} {n l k : Nat}
    {sid : List UInt8} (hreq : c.request.or (some (e, m)) = some (e0, m0))
    (ht : Header.messageType m0 = 3) (ho : e0.fopen (pathOf m0) = some f)
    (hd : s.stream.data = f.data) (hdel : s.stream.Delivered c.delivered) (hu : ¬ c.Finished)
    (hh : s.stream.Harmless 4096) (hf : g.file = some { s with stream := s.stream.next 4096 }) :
    SendsFile (c.next e m (some (.type4 n l k sid (s.stream.fread 4096).1))) g e0 m0 f
      { s with stream := s.stream.next 4096 } := by
  refine ⟨hreq, ht, ho, hf, (Stream.next_data _ _).trans hd, ?_, mt Chronicle.next_type4.2.mp hu⟩
  rw [Chronicle.next_type4.1]
  exact hdel.next hh

theorem SendsFile.finish {e0 : Env} {m0 : Mem} {f : File} {s : OpenFile} {n l : Nat}
    {sid : List UInt8} (h : SendsFile c g e0 m0 f s) (he : g.atEof = true) :
    NoneSkipped (c.next e m (some (.type5 n l sid))) := by
  have hwhole : c.delivered = f.data := by
    rw [atEof_file h.file] at he
    rw [h.delivered.whole he, h.data]
  have hdel : (c.next e m (some (.type5 n l sid))).delivered = f.data :=
    Chronicle.next_type5.trans hwhole
  refine ⟨fun hn => absurd (h.request.symm.trans hn) (by simp), fun e' m' hr => ?_⟩
  obtain ⟨rfl, rfl⟩ := Prod.mk.inj (Option.some.inj (h.request.symm.trans hr))
  exact ⟨h.type, f, h.opens, hdel ▸ List.prefix_rfl, fun _ => hdel⟩

/-- **One message** keeps the invariant when its errors are harmless. -/
theorem Told.next {o : Option Reply} {g' : Daemon} (h : Told (c, g)) (hinv : SessionInv g')
    (ht : Tells e m g o g') (hh : ∀ f, Reads e m g f → f.stream.Harmless 4096) :
    Told (c.next e m o, g') := by
  cases ht with
  | refused hs hf =>
    refine ⟨hinv, h.skipped.congr rfl (Chronicle.next_type2 (e := e) (m := m)).1
      (Chronicle.next_type2 (e := e) (m := m)).2, fun h1 => h.opened (hs ▸ h1), fun h4 => ?_⟩
    obtain ⟨e0, m0, f, s, hsend⟩ := h.sending (hs ▸ h4)
    refine ⟨e0, m0, f, s, hsend.request, hsend.type, hsend.opens, hf.trans hsend.file, hsend.data,
      ?_, mt (Chronicle.next_type2 (e := e) (m := m)).2.mp hsend.unfinished⟩
    rw [Chronicle.next_type2.1]
    exact hsend.delivered
  | failed hl =>
    exact .of_idle (.inl hl) (h.skipped.congr rfl Chronicle.next_type2.1 Chronicle.next_type2.2)
  | issued hl hu =>
    have h14 : (1 : UInt8) ≠ 4 := by decide
    exact ⟨hinv, noneSkipped_empty _, fun _ => rfl, fun h4 => absurd (hl.symm.trans h4) h14⟩
  | piece hr hl hu hf =>
    have hharm := hh _ hr
    cases hr with
    | @start f ha hl1 ho hreg =>
      have hreq := h.opened hl1
      obtain ⟨hnil, hfin⟩ := h.skipped.unasked hreq
      refine .of_sends hinv hl (SendsFile.piece (by rw [hreq]; rfl) ha.type ho rfl ?_ hfin hharm hf)
      rw [hnil]
      exact .opened _ _
    | more ha hl4 he hfile =>
      obtain ⟨e0, m0, f, s, hsend⟩ := h.sending hl4
      obtain rfl := Option.some.inj (hfile.symm.trans hsend.file)
      exact .of_sends hinv hl (.piece (by rw [hsend.request]; rfl) hsend.type hsend.opens hsend.data
        hsend.delivered hsend.unfinished hharm hf)
  | finished h4 he hl =>
    obtain ⟨e0, m0, f, s, hsend⟩ := h.sending h4
    exact .of_idle (.inr hl) (hsend.finish he)
  | silent hl =>
    exact .of_idle (.inr hl) (h.skipped.congr rfl Chronicle.next_none.1 Chronicle.next_none.2)

/-! ## The run -/

theorem told_iteration {s : Chronicle × Daemon} {i : Input} (h : Told s)
    (hh : HarmlessRound s.2 i) : Told (chronicler.step s i).1 := by
  obtain ⟨c, g⟩ := s
  have hinv : SessionInv { g with buffer := nnRecv g.buffer i.recv } := h.session.setBuffer _
  have hfile : g.state.lastSent = 4 → ∃ f, g.file = some f := fun h4 => by
    obtain ⟨e0, m0, f, s, hsend⟩ := h.sending h4
    exact ⟨s, hsend.file⟩
  have ht := handle_tells (e := i.env) (m := i.message g) hinv hfile
  have h' : Told (c, { g with buffer := nnRecv g.buffer i.recv }) :=
    ⟨hinv, h.skipped, h.opened, fun h4 => by
      obtain ⟨e0, m0, f, s, hsend⟩ := h.sending h4
      exact ⟨e0, m0, f, s, hsend.request, hsend.type, hsend.opens, hsend.file, hsend.data,
        hsend.delivered, hsend.unfinished⟩⟩
  exact h'.next (iteration_follows h.session i).inv ht fun f hr => hh f ((reads_setBuffer _).mp hr)

theorem Init.told (hg : Init g) : Told (.empty, g) :=
  .of_idle (.inr hg.lastSent) (noneSkipped_empty none)

/-- **No byte is skipped** in a run whose read errors are harmless: at each point
of a session its pieces are a beginning of the file, and the whole of it once a
type 5 is sent. -/
theorem none_skipped (hg : Init g) (is : List Input)
    (hh : AtEach (fun pre i => HarmlessRound (mainLoop.run g pre) i) is) :
    ∀ pre, pre <+: is → NoneSkipped (chronicler.run (.empty, g) pre).1 := by
  rintro pre ⟨post, rfl⟩
  have hpre := (AtEach.append_iff.mp hh).1
  have hobs : AtEach (fun pre i => HarmlessRound (chronicler.run (.empty, g) pre).2 i) pre := by
    intro as i bs heq
    rw [chronicler, Mealy.observe_run]
    exact hpre as i bs heq
  exact (Mealy.run_of_atEach (M := chronicler) (I := Told)
    (Q := fun s i => HarmlessRound s.2 i) (fun s i h hq => told_iteration h hq) hg.told hobs).skipped

/-! ## A session of `alice` -/

theorem none_skipped_alice : NoneSkipped (chronicler.run (.empty, zeroBoot)
    (aliceReads zeroBoot (chars "/tmp/a") (envOf (some ⟨true, chars "hi", []⟩)))).1 := by
  have hnone : (Stream.opened (chars "hi") []).NoFaults := fun _ h => absurd h List.not_mem_nil
  refine none_skipped zeroBoot_init _ (aliceReads_atEach (P := fun _ f => f.stream.Harmless 4096)
    zeroBoot_init (by decide) (by decide) rfl rfl fun _ f _ _ hf => ?_) _ List.prefix_rfl
  rcases hf with hf | hf <;> rw [hf]
  · exact hnone.harmless _
  · exact (hnone.next _).harmless _

/-- A file of three bytes. The first read of it fails after one byte. -/
def lossyFile : File := ⟨true, chars "abc", [some 1]⟩

/-- Of `abc` the byte `b` is skipped. -/
theorem aliceReads_skips : Init zeroBoot ∧ ¬ NoneSkipped (chronicler.run (.empty, zeroBoot)
    (aliceReads zeroBoot (chars "/tmp/a") (envOf (some lossyFile)))).1 := by
  refine ⟨zeroBoot_init, fun h => ?_⟩
  have hreg : lossyFile.isReg = true := rfl
  have hopen : (envOf (some lossyFile)).fopen (chars "/tmp/a") = some lossyFile := rfl
  obtain ⟨m, -, hreq, hdel⟩ :=
    aliceReads_delivers zeroBoot_init (by decide) (by decide) hopen hreg (by decide)
  obtain ⟨-, f, hf, hpre, -⟩ := h.asked _ _ hreq
  cases hf
  rw [hdel] at hpre
  exact absurd hpre (by decide)

end Getd
