import Getd.Transfer
import Getd.Lib.Trace

/-!
# What is done to the streams

Every call on `sendFile` and every packet is in the trace, so the discipline of
streams is a property of what each round adds to it (`Disciplined`). Under
`StreamInv` a round is disciplined unless it starts a transfer with a piece
shorter than one sent before (`stream_discipline_iff`): the rest of the old
piece is still in `outMessage` and is sent with the new one.
-/

namespace Getd

open CLib Protocol Buf

variable {e : Env} {m : Mem} {g : Daemon} {h : Nat} {tr es : List Event} {ev : Event}

/-! ## Discipline -/

/-- The stream of a call that needs an open one. -/
def Event.call? : Event → Option (Option Nat)
  | .fread file _ | .getc file | .feof file | .fclose file => some file
  | _ => none

/-- A session begins with its type 1. -/
def Event.issues : Event → Bool
  | .send p => p.type == 1
  | _ => false

/-- What has happened in the last session. -/
def sessionTrace (tr : List Event) : List Event := sinceLast Event.issues tr

/-- `h` was opened in the last session, is a regular file, and was not closed. -/
structure Live (tr : List Event) (h : Nat) : Prop where
  opened : ∃ path, .fopen path (some h) ∈ sessionTrace tr
  regular : .fstat (some h) true ∈ sessionTrace tr
  unclosed : .fclose (some h) ∉ tr

/-- A call is made in an open session on a live stream of that session, and the
bytes of a type 4 that were read from a stream were read from one of the session. -/
structure Lawful (g : Daemon) (tr : List Event) (ev : Event) : Prop where
  call : ∀ file, ev.call? = some file → g.Open ∧ ∃ h, file = some h ∧ Live tr h
  own : ∀ p, ev = .send p → p.type = 4 → ∀ k < p.size, ∀ h, p.buf.origin k = some h →
    ∃ path, .fopen path (some h) ∈ sessionTrace tr

/-- What a step adds to the trace. -/
def added (g g' : Daemon) : List Event := g'.trace.drop g.trace.length

/-- What a round adds to the trace is lawful. -/
def Disciplined (g : Daemon) (i : Input) : Prop :=
  AtEach (fun pre ev => Lawful g (g.trace ++ pre) ev) (added g (iteration g i).1)

/-- The message starts a transfer of `f`. -/
structure Starts (e : Env) (m : Mem) (g : Daemon) (f : File) : Prop where
  auth : Auth3 e m g
  lastSent : g.state.lastSent = 1
  opens : e.fopen (pathOf m) = some f
  regular : f.isReg = true

/-- A transfer starts with a piece at least as long as every piece before. -/
def Covered (g : Daemon) (i : Input) : Prop :=
  ∀ f, Starts i.env (view (nnRecv g.buffer i.recv) i.past) g f →
    ∀ file got, .fread file got ∈ g.trace →
      got.length ≤ ((Stream.opened f.data f.faults).fread 4096).1.length

theorem added_append {g' : Daemon} (ht : g'.trace = g.trace ++ es) : added g g' = es := by
  unfold added
  rw [ht, List.drop_left]

theorem sessionTrace_append (hes : ∀ ev ∈ es, ev.issues = false) :
    sessionTrace (tr ++ es) = sessionTrace tr ++ es := sinceLast_append hes

theorem Live.append (hl : Live tr h) (hi : ∀ ev ∈ es, ev.issues = false)
    (hc : .fclose (some h) ∉ es) : Live (tr ++ es) h := by
  obtain ⟨path, ho⟩ := hl.opened
  refine ⟨⟨path, ?_⟩, ?_, ?_⟩
  · rw [sessionTrace_append hi]
    exact List.mem_append_left _ ho
  · rw [sessionTrace_append hi]
    exact List.mem_append_left _ hl.regular
  · rw [List.mem_append, not_or]
    exact ⟨hl.unclosed, hc⟩

/-- An event that reads nothing and sends no piece. -/
def Event.Quiet (ev : Event) : Prop := ev.call? = none ∧ ∀ p, ev = .send p → p.type ≠ 4

theorem Event.Quiet.lawful (hq : ev.Quiet) : Lawful g tr ev where
  call file hf := absurd (hq.1.symm.trans hf) (by simp)
  own p hp ht := absurd ht (hq.2 p hp)

theorem lawful_append {tr' es' : List Event} (ht : tr' = tr ++ es) :
    AtEach (fun pre ev => Lawful g (tr ++ pre) ev) (es ++ es') ↔
      AtEach (fun pre ev => Lawful g (tr ++ pre) ev) es ∧
        AtEach (fun pre ev => Lawful g (tr' ++ pre) ev) es' := by
  subst ht
  rw [AtEach.append_iff]
  simp only [List.append_assoc]

theorem lawful_of_quiet (hes : ∀ ev ∈ es, ev.Quiet) :
    AtEach (fun pre ev => Lawful g (tr ++ pre) ev) es := by
  rintro pre ev post rfl
  exact (hes ev (by simp)).lawful

/-- An event that reads and closes nothing. -/
def Event.Idle (ev : Event) : Prop :=
  (∀ file got, ev ≠ .fread file got) ∧ ∀ file, ev ≠ .fclose file

theorem Event.Quiet.idle (hq : ev.Quiet) : ev.Idle := by
  refine ⟨fun file got heq => ?_, fun file heq => ?_⟩ <;> exact absurd hq.1 (by rw [heq]; simp [Event.call?])

/-- A call other than `fclose`. -/
def Event.Uses (h : Nat) (ev : Event) : Prop :=
  ev = .feof (some h) ∨ (∃ got, ev = .fread (some h) got) ∨ ev = .getc (some h)

theorem Event.Uses.issues (hu : ev.Uses h) : ev.issues = false := by
  rcases hu with rfl | ⟨got, rfl⟩ | rfl <;> rfl

theorem Live.uses (hl : Live tr h) (hes : ∀ ev ∈ es, ev.Uses h) : Live (tr ++ es) h := by
  refine hl.append (fun ev hev => (hes ev hev).issues) fun hc => ?_
  rcases hes _ hc with hu | ⟨got, hu⟩ | hu <;> cases hu

theorem lawful_of_uses (hl : Live tr h) (ho : g.Open) (hes : ∀ ev ∈ es, ev.Uses h) :
    AtEach (fun pre ev => Lawful g (tr ++ pre) ev) es := by
  rintro pre ev post rfl
  have hpre : Live (tr ++ pre) h := hl.uses fun b hb => hes b (List.mem_append_left _ hb)
  have hev : ev.Uses h := hes ev (by simp)
  refine ⟨fun file hf => ⟨ho, h, ?_, hpre⟩, fun p hp => ?_⟩
  · rcases hev with rfl | ⟨got, rfl⟩ | rfl <;> exact (Option.some.inj hf).symm
  · rcases hev with rfl | ⟨got, rfl⟩ | rfl <;> cases hp

/-! ## Where the bytes of `outMessage` come from -/

section Origins

variable {b : Buf} {sid got text : List UInt8} {file : Option Nat}

/-- No byte before the contents was read from a stream. -/
def Low (b : Buf) : Prop := ∀ k < 145, b.origin k = none

theorem Low.write_origin (hb : Low b) {k : Nat} {bs : List UInt8} (hk : k + bs.length ≤ 145) :
    (b.write k bs).origin = b.origin := by
  funext i
  by_cases hi : k ≤ i ∧ i < k + bs.length
  · rw [store_origin_in hi, hb i (by omega)]
  · exact store_origin_out (by omega)

theorem Low.congr {b' : Buf} (hb : Low b) (ho : b'.origin = b.origin) : Low b' :=
  fun k hk => (congrFun ho k).trans (hb k hk)

theorem Low.write (hb : Low b) (k : Nat) (bs : List UInt8) (hk : k + bs.length ≤ 145) :
    Low (b.write k bs) := hb.congr (hb.write_origin hk)

theorem Low.store (hb : Low b) : Low (b.store 145 got file) :=
  fun k hk => (store_origin_out (.inl hk)).trans (hb k hk)

theorem out2_origin (hb : Low b) (ht : text.length ≤ 100) :
    (out2 b text).origin = b.origin := by
  have h1 := hb.write 4 (le32 MessageType2.size) (by simp)
  have h2 := h1.write 0 [2] (by simp)
  have h3 := h2.write 8 (le32 text.length) (by simp)
  have h4 := h3.write 12 text (by omega)
  unfold out2
  rw [h4.write_origin (by simp; omega), h3.write_origin (by omega), h2.write_origin (by simp),
    h1.write_origin (by simp), hb.write_origin (by simp)]

theorem out1_origin (hb : Low b) (hs : sid.length ≤ 128) : (out1 b sid).origin = b.origin := by
  have h1 := hb.write 0 [1] (by simp)
  have h2 := h1.write 12 (sid ++ [0]) (by simp; omega)
  have h3 := h2.write 8 (le32 sid.length) (by simp)
  unfold out1
  rw [h3.write_origin (by simp), h2.write_origin (by simp), h1.write_origin (by simp; omega),
    hb.write_origin (by simp)]

theorem out5_origin (hb : Low b) (hs : sid.length ≤ 128) : (out5 b sid).origin = b.origin := by
  have h1 := hb.write 0 [5] (by simp)
  have h2 := h1.write 12 (sid ++ [0]) (by simp; omega)
  have h3 := h2.write 8 (le32 sid.length) (by simp)
  unfold out5
  rw [h3.write_origin (by simp), h2.write_origin (by simp), h1.write_origin (by simp; omega),
    hb.write_origin (by simp)]

theorem out4_origin (hb : Low b) (hs : sid.length ≤ 128) :
    (out4 b file got sid).origin = (b.store 145 got file).origin := by
  have h0 : ((b.write 0 [4]).store 145 got file).origin = (b.store 145 got file).origin :=
    store_origin_congr (hb.write_origin (by simp))
  have h1 : Low ((b.write 0 [4]).store 145 got file) := hb.store.congr h0
  have h2 := h1.write 12 (le32 got.length) (by simp)
  have h3 := h2.write 16 (sid ++ [0]) (by simp; omega)
  have h4 := h3.write 8 (le32 sid.length) (by simp)
  unfold out4
  rw [h4.write_origin (by simp), h3.write_origin (by simp), h2.write_origin (by simp; omega),
    h1.write_origin (by simp), h0]

end Origins

/-! ## The record of the streams -/

/-- `outMessage` and the trace agree on what was read, and neither knows a
stream that was not opened. -/
structure Records (g : Daemon) : Prop where
  low : Low g.outMessage
  known : ∀ k h, g.outMessage.origin k = some h → h < g.streams.length
  read : ∀ j, (∃ h, g.outMessage.origin (145 + j) = some h) ↔
    ∃ file got, .fread file got ∈ g.trace ∧ j < got.length
  length : ∀ file got, .fread file got ∈ g.trace → got.length ≤ 4096
  closed : ∀ h, .fclose (some h) ∈ g.trace → h < g.streams.length

theorem Records.idle {g' : Daemon} (hr : Records g)
    (ho : g'.outMessage.origin = g.outMessage.origin)
    (hs : g.streams.length ≤ g'.streams.length) (ht : g'.trace = g.trace ++ es)
    (hes : ∀ ev ∈ es, ev.Idle) : Records g' := by
  have hfread : ∀ file got, .fread file got ∈ g'.trace ↔ .fread file got ∈ g.trace := by
    intro file got
    rw [ht, List.mem_append]
    exact or_iff_left fun hm => (hes _ hm).1 file got rfl
  refine ⟨hr.low.congr ho, fun k h hk => ?_, fun j => ?_, fun file got hm => ?_, fun h hm => ?_⟩
  · exact Nat.lt_of_lt_of_le (hr.known k h ((congrFun ho k).symm.trans hk)) hs
  · simp only [hfread, ho]
    exact hr.read j
  · exact hr.length file got ((hfread file got).mp hm)
  · rw [ht, List.mem_append] at hm
    refine Nat.lt_of_lt_of_le (hr.closed h (hm.resolve_right fun hm => ?_)) hs
    exact (hes _ hm).2 (some h) rfl

theorem Records.close {g' : Daemon} (hr : Records g) (hh : h < g.streams.length)
    (ho : g'.outMessage = g.outMessage) (hs : g'.streams.length = g.streams.length)
    (ht : g'.trace = g.trace ++ [.fclose (some h)]) : Records g' := by
  have hfread : ∀ file got, .fread file got ∈ g'.trace ↔ .fread file got ∈ g.trace := by
    intro file got
    rw [ht, List.mem_append]
    exact or_iff_left (by simp)
  refine ⟨ho ▸ hr.low, fun k h hk => hs ▸ hr.known k h (ho ▸ hk), fun j => ?_, fun file got hm => ?_,
    fun h' hm => ?_⟩
  · simp only [hfread, ho]
    exact hr.read j
  · exact hr.length file got ((hfread file got).mp hm)
  · rw [ht, List.mem_append, List.mem_singleton] at hm
    rcases hm with hm | hm
    · exact hs ▸ hr.closed h' hm
    · cases hm
      exact hs ▸ hh

def reads (file : Option Nat) (got : List UInt8) : List Event :=
  .fread file got :: if got.length ≠ 4096 then [.getc file] else []

theorem readBlock_trace (g : Daemon) :
    g.readBlock.trace = g.trace ++ reads g.sendFile (g.got 4096) := by
  unfold Daemon.readBlock reads
  split
  · exact List.append_assoc _ _ _
  · rfl

theorem onFile_length (φ : OpenFile → OpenFile) : (g.onFile φ).length = g.streams.length := by
  unfold Daemon.onFile
  split
  · rfl
  · exact List.length_modify _ _ _

theorem readBlock_streams_length : g.readBlock.streams.length = g.streams.length := by
  unfold Daemon.readBlock
  split
  · exact (onFile_length (g := g.fread 145 4096) _).trans (onFile_length _)
  · exact onFile_length _

theorem uses_reads {got : List UInt8} : ∀ ev ∈ reads (some h) got, ev.Uses h := by
  intro ev hev
  rcases List.mem_cons.mp hev with rfl | hev
  · exact .inr (.inl ⟨got, rfl⟩)
  · split at hev
    · exact .inr (.inr (List.mem_singleton.mp hev))
    · exact absurd hev List.not_mem_nil

theorem fread_mem_reads {file file' : Option Nat} {got got' : List UInt8} :
    .fread file' got' ∈ reads file got ↔ file' = file ∧ got' = got := by
  unfold reads
  split <;> simp

theorem Records.piece {g' : Daemon} {p : Packet} (hr : Records g) (hh : h < g.streams.length)
    (hlen : g'.streams.length = g.streams.length)
    (ho : g'.outMessage.origin = (g.outMessage.store 145 (g.got 4096) (some h)).origin)
    (ht : g'.trace = g.trace ++ (reads (some h) (g.got 4096) ++ [.send p])) : Records g' := by
  have hle := got_length_le g 4096
  have hfread : ∀ file got, .fread file got ∈ g'.trace ↔
      .fread file got ∈ g.trace ∨ (file = some h ∧ got = g.got 4096) := by
    intro file got
    rw [ht, List.mem_append, List.mem_append, fread_mem_reads]
    simp
  refine ⟨hr.low.store.congr ho, fun k h' hk => ?_, fun j => ?_, fun file got hm => ?_,
    fun h' hm => ?_⟩
  · rw [congrFun ho k] at hk
    rw [hlen]
    by_cases hin : 145 ≤ k ∧ k < 145 + (g.got 4096).length
    · rw [store_origin_in hin] at hk
      exact Option.some.inj hk ▸ hh
    · rw [store_origin_out (by omega)] at hk
      exact hr.known k h' hk
  · rw [congrFun ho (145 + j)]
    by_cases hin : j < (g.got 4096).length
    · refine iff_of_true ⟨h, store_origin_in (by omega)⟩ ⟨some h, g.got 4096, ?_, hin⟩
      exact (hfread _ _).mpr (.inr ⟨rfl, rfl⟩)
    · rw [store_origin_out (by omega), hr.read j]
      constructor
      · rintro ⟨file, got, hm, hj⟩
        exact ⟨file, got, (hfread file got).mpr (.inl hm), hj⟩
      · rintro ⟨file, got, hm, hj⟩
        rcases (hfread file got).mp hm with hm | ⟨-, rfl⟩
        · exact ⟨file, got, hm, hj⟩
        · exact absurd hj hin
  · rcases (hfread file got).mp hm with hm | ⟨-, rfl⟩
    · exact hr.length file got hm
    · exact hle
  · rw [hlen]
    rw [ht, List.mem_append, List.mem_append] at hm
    refine hr.closed h' (hm.resolve_right ?_)
    rintro (hm | hm)
    · rcases uses_reads _ hm with hu | ⟨got, hu⟩ | hu <;> cases hu
    · simp at hm

/-! ## The invariant -/

/-- In a session that has not asked for a file no stream was opened. One that
sends has a live stream, and what `outMessage` has read it read in this session. -/
structure StreamInv (g : Daemon) : Prop where
  session : SessionInv g
  records : Records g
  fresh : g.state.lastSent = 1 → ∀ path h, .fopen path (some h) ∉ sessionTrace g.trace
  live : g.state.lastSent = 4 → ∃ h, g.sendFile = some h ∧ h < g.streams.length ∧ Live g.trace h
  own : g.state.lastSent = 4 → ∀ k h, g.outMessage.origin k = some h →
    ∃ path, .fopen path (some h) ∈ sessionTrace g.trace

theorem StreamInv.setBuffer (hi : StreamInv g) (b : Mem) : StreamInv { g with buffer := b } :=
  ⟨hi.session.setBuffer b, ⟨hi.records.low, hi.records.known, hi.records.read, hi.records.length,
    hi.records.closed⟩, hi.fresh, hi.live, hi.own⟩

theorem Init.streamInv (hi : Init g) : StreamInv g := by
  have hsess := hi.sessionInv
  obtain ⟨sid, user, out, buf, rand, rfl⟩ := hi
  refine ⟨hsess, ⟨fun _ _ => rfl, ?_, ?_, ?_, ?_⟩, ?_, ?_, ?_⟩ <;> simp [boot, sessionTrace, sinceLast]

theorem StreamInv.of_idle (hl : g.state.lastSent = 2 ∨ g.state.lastSent = 5) (hr : Records g) :
    StreamInv g := by
  have h1 : g.state.lastSent ≠ 1 := by rcases hl with hl | hl <;> rw [hl] <;> decide
  have h4 : g.state.lastSent ≠ 4 := by rcases hl with hl | hl <;> rw [hl] <;> decide
  exact ⟨.of_idle hl, hr, fun h => absurd h h1, fun h => absurd h h4, fun h => absurd h h4⟩

/-- What a step does that neither opens, closes nor reads: it may send a reply
other than type 1 and type 4. -/
structure Still (g g' : Daemon) (es : List Event) : Prop where
  trace : g'.trace = g.trace ++ es
  streams : g'.streams = g.streams
  sendFile : g'.sendFile = g.sendFile
  origin : g'.outMessage.origin = g.outMessage.origin
  events : ∀ ev ∈ es, ∃ p, ev = .send p ∧ p.type ≠ 1 ∧ p.type ≠ 4

theorem Still.issues {g' : Daemon} (hs : Still g g' es) : ∀ ev ∈ es, ev.issues = false := by
  intro ev hev
  obtain ⟨p, rfl, h1, -⟩ := hs.events ev hev
  exact beq_false_of_ne h1

theorem Still.quiet {g' : Daemon} (hs : Still g g' es) : ∀ ev ∈ es, ev.Quiet := by
  intro ev hev
  obtain ⟨p, rfl, -, h4⟩ := hs.events ev hev
  exact ⟨rfl, fun q hq => by cases hq; exact h4⟩

theorem Still.records {g' : Daemon} (hs : Still g g' es) (hr : Records g) : Records g' :=
  hr.idle hs.origin (by rw [hs.streams]) hs.trace fun ev hev => (hs.quiet ev hev).idle

theorem StreamInv.still {g' : Daemon} (hi : StreamInv g) (hs : Still g g' es)
    (hstate : SessionInv g') (hl : g'.state.lastSent = g.state.lastSent) : StreamInv g' := by
  have htrace : sessionTrace g'.trace = sessionTrace g.trace ++ es := by
    rw [hs.trace, sessionTrace_append hs.issues]
  have hnot : ∀ ev ∈ es, ∀ path h, ev ≠ .fopen path h ∧ ev ≠ .fclose h := by
    intro ev hev
    obtain ⟨p, rfl, -⟩ := hs.events ev hev
    exact fun path h => ⟨by simp, by simp⟩
  refine ⟨hstate, hs.records hi.records, fun h1 path h => ?_, fun h4 => ?_, fun h4 k h hk => ?_⟩
  · rw [htrace, List.mem_append, not_or]
    exact ⟨hi.fresh (hl ▸ h1) path h, fun hm => (hnot _ hm path (some h)).1 rfl⟩
  · obtain ⟨h, hf, hlt, hlive⟩ := hi.live (hl ▸ h4)
    refine ⟨h, hs.sendFile.trans hf, hs.streams.symm ▸ hlt, ?_⟩
    rw [hs.trace]
    exact hlive.append hs.issues fun hm => (hnot _ hm [] (some h)).2 rfl
  · obtain ⟨path, hm⟩ := hi.own (hl ▸ h4) k h ((congrFun hs.origin k).symm.trans hk)
    exact ⟨path, htrace ▸ List.mem_append_left _ hm⟩

/-! ## The steps -/

/-- A step is lawful and keeps the invariant. -/
structure Obeys (g g' : Daemon) : Prop where
  lawful : AtEach (fun pre ev => Lawful g (g.trace ++ pre) ev) (added g g')
  inv : StreamInv g'

theorem Still.obeys {g' : Daemon} (hi : StreamInv g) (hs : Still g g' es)
    (hstate : SessionInv g') (hl : g'.state.lastSent = g.state.lastSent) : Obeys g g' := by
  refine ⟨?_, hi.still hs hstate hl⟩
  rw [added_append hs.trace]
  exact lawful_of_quiet hs.quiet

theorem error_packet (g : Daemon) {text : List UInt8} (ht : text.length ≤ 100) :
    (Packet.mk (out2 g.outMessage text) MessageType2.size).type = 2 :=
  Packet.type_of_reply (reply_error g (by omega))

theorem obeys_refused {text : List UInt8} (hi : StreamInv g) (ht : text.length ≤ 100) :
    Obeys g (sendError g text).1 := by
  have htype := error_packet g ht
  have hstate : (sendError g text).1.state = g.state := sendError_state g text
  have hstill : Still g (sendError g text).1
      [.send ⟨out2 g.outMessage text, MessageType2.size⟩] := by
    rw [sendError_eq]
    refine ⟨rfl, rfl, rfl, out2_origin hi.records.low ht,
      fun ev hev => ⟨_, List.mem_singleton.mp hev, ?_⟩⟩
    rw [htype]
    decide
  exact hstill.obeys hi (hi.session.congr hstate) (by rw [hstate])

theorem obeys_failed {g1 : Daemon} {text : List UInt8} (es : List Event) (hi : StreamInv g)
    (h2 : g1.state.lastSent = 2) (htrace : g1.trace = g.trace ++ es) (hes : ∀ ev ∈ es, ev.Quiet)
    (hs : g.streams.length ≤ g1.streams.length) (ho : g1.outMessage = g.outMessage)
    (ht : text.length ≤ 100) : Obeys g (sendError g1 text).1 := by
  have htype := error_packet g1 ht
  have hgrow : (sendError g1 text).1.trace =
      g.trace ++ (es ++ [.send ⟨out2 g1.outMessage text, MessageType2.size⟩]) := by
    rw [sendError_eq, ← List.append_assoc, ← htrace]
  have hquiet : ∀ ev ∈ es ++ [.send ⟨out2 g1.outMessage text, MessageType2.size⟩], ev.Quiet := by
    intro ev hev
    rcases List.mem_append.mp hev with hev | hev
    · exact hes ev hev
    · rw [List.mem_singleton.mp hev]
      refine ⟨rfl, fun p hp => ?_⟩
      cases hp
      rw [htype]
      decide
  have horigin : (sendError g1 text).1.outMessage.origin = g.outMessage.origin := by
    rw [sendError_eq]
    exact (out2_origin (ho ▸ hi.records.low) ht).trans (by rw [ho])
  refine ⟨?_, .of_idle (.inl (by rw [sendError_state, h2])) ?_⟩
  · rw [added_append hgrow]
    exact lawful_of_quiet hquiet
  · exact hi.records.idle horigin (by rw [sendError_eq]; exact hs) hgrow
      fun ev hev => (hquiet ev hev).idle

theorem obeys_type1 (hi : StreamInv g) :
    Obeys g (nnSend (messageType1Builder e (newSession m g))).1 := by
  have hterm := newSession_terminated m g
  have htype : (Packet.mk (out1 (newSession m g).outMessage (newSession m g).state.sid)
      MessageType1.size).type = 1 := Packet.type_of_reply (reply_type1 hterm)
  have hlen := State.sid_length_le hterm
  rw [nnSend_type1 hterm]
  rw [newSession_eq] at htype hterm hlen ⊢
  generalize hout : out1 g.outMessage _ = b at htype ⊢
  have horigin : b.origin = g.outMessage.origin := hout ▸ out1_origin hi.records.low hlen
  have hquiet : ∀ ev ∈ [Event.send ⟨b, MessageType1.size⟩], ev.Quiet := by
    intro ev hev
    rw [List.mem_singleton.mp hev]
    refine ⟨rfl, fun p hp => ?_⟩
    cases hp
    rw [htype]
    decide
  have hbegin : sessionTrace (g.trace ++ [Event.send ⟨b, MessageType1.size⟩]) = [] := by
    refine sinceLast_snoc_of ?_
    rw [Event.issues, htype]
    rfl
  have h4 : (1 : UInt8) ≠ 4 := by decide
  refine ⟨?_, .of_terminated (.inl rfl) hterm, ?_, fun _ path h hm => ?_, fun hl => absurd hl h4,
    fun hl => absurd hl h4⟩
  · rw [added_append rfl]
    exact lawful_of_quiet hquiet
  · exact hi.records.idle horigin (Nat.le_refl _) rfl fun ev hev => (hquiet ev hev).idle
  · rw [hbegin] at hm
    exact List.not_mem_nil hm

/-- A piece read from `h` and sent. -/
structure Piece (g : Daemon) (h : Nat) (g' : Daemon) (p : Packet) : Prop where
  state : g'.state = { g.state with lastSent := 4 }
  sendFile : g'.sendFile = some h
  streams : g'.streams.length = g.streams.length
  buf : g'.outMessage = p.buf
  trace : g'.trace = g.trace ++ (reads (some h) (g.got 4096) ++ [.send p])
  type : p.type = 4
  size : p.size = MessageType4.size
  origin : p.buf.origin = (g.outMessage.store 145 (g.got 4096) (some h)).origin

theorem piece_type4 (ht : g.state.Terminated) (hb : Low g.outMessage) (hs : g.sendFile = some h) :
    ∃ p, Piece g h (nnSend (messegeType4Builder e g)).1 p := by
  rw [nnSend_type4 ht, hs]
  refine ⟨_, rfl, (readBlock_sendFile _).trans hs, readBlock_streams_length, rfl, ?_,
    Packet.type_of_reply (hs ▸ reply_type4 ht), rfl, out4_origin hb (State.sid_length_le ht)⟩
  rw [readBlock_trace, hs, List.append_assoc]

/-- Every byte of the packet that was read was read in the session. -/
def Own (tr : List Event) (p : Packet) : Prop :=
  ∀ k h, p.buf.origin k = some h → ∃ path, .fopen path (some h) ∈ sessionTrace tr

section Piece

variable {g' : Daemon} {p : Packet}

theorem Piece.records (hp : Piece g h g' p) (hr : Records g) (hh : h < g.streams.length) :
    Records g' :=
  hr.piece hh hp.streams (by rw [hp.buf, hp.origin]) hp.trace

theorem Piece.issues (hp : Piece g h g' p) :
    ∀ ev ∈ reads (some h) (g.got 4096) ++ [.send p], ev.issues = false := by
  intro ev hev
  rcases List.mem_append.mp hev with hev | hev
  · exact (uses_reads ev hev).issues
  · rw [List.mem_singleton.mp hev, Event.issues, hp.type]
    rfl

theorem Piece.streamInv (hp : Piece g h g' p) (ht : g.state.Terminated) (hr : Records g)
    (hh : h < g.streams.length) (hl : Live g.trace h) (hown : Own g.trace p) : StreamInv g' := by
  have h4 : g'.state.lastSent = 4 := by rw [hp.state]
  have h1 : g'.state.lastSent ≠ 1 := by rw [h4]; decide
  refine ⟨.of_terminated (.inr h4) (ht.congr (by rw [hp.state])), hp.records hr hh,
    fun hl => absurd hl h1, fun _ => ⟨h, hp.sendFile, hp.streams ▸ hh, ?_⟩, fun _ k h' hk => ?_⟩
  · rw [hp.trace, ← List.append_assoc]
    exact (hl.uses uses_reads).append (fun ev hev => hp.issues ev (List.mem_append_right _ hev))
      (by simp)
  · obtain ⟨path, hm⟩ := hown k h' (hp.buf ▸ hk)
    refine ⟨path, ?_⟩
    rw [hp.trace, sessionTrace_append hp.issues]
    exact List.mem_append_left _ hm

/-- The calls and the packet are lawful exactly when the packet is the session's own. -/
theorem Piece.lawful_iff {g0 : Daemon} (hp : Piece g h g' p) (hr : Records g)
    (hh : h < g.streams.length) (hl : Live g.trace h) (ho : g0.Open) :
    AtEach (fun pre ev => Lawful g0 (g.trace ++ pre) ev)
      (reads (some h) (g.got 4096) ++ [.send p]) ↔ Own g.trace p := by
  have hsess : sessionTrace (g.trace ++ reads (some h) (g.got 4096)) =
      sessionTrace g.trace ++ reads (some h) (g.got 4096) :=
    sessionTrace_append fun ev hev => (uses_reads ev hev).issues
  have hopen : ∀ path h', .fopen path (some h') ∈ sessionTrace g.trace ++ reads (some h) (g.got 4096) ↔
      .fopen path (some h') ∈ sessionTrace g.trace := by
    intro path h'
    rw [List.mem_append]
    refine or_iff_left fun hm => ?_
    rcases uses_reads _ hm with hu | ⟨got, hu⟩ | hu <;> cases hu
  rw [AtEach.append_iff, AtEach.cons_iff, List.append_nil]
  constructor
  · rintro ⟨-, hsend, -⟩ k h' hk
    have hlt : k < p.size := by
      -- no byte behind the contents was read
      have hrec := hp.records hr hh
      have hlow : 145 ≤ k := by
        by_contra hlt
        exact absurd (hrec.low k (by omega)) (by rw [hp.buf, hk]; simp)
      obtain ⟨file, got, hm, hj⟩ := (hrec.read (k - 145)).mp
        ⟨h', by rw [Nat.add_sub_cancel' hlow, hp.buf, hk]⟩
      have := hrec.length file got hm
      rw [hp.size]
      unfold MessageType4.size
      omega
    obtain ⟨path, hm⟩ := hsend.own p rfl hp.type k hlt h' hk
    rw [hsess, hopen] at hm
    exact ⟨path, hm⟩
  · intro hown
    refine ⟨lawful_of_uses hl ho uses_reads, ⟨fun file hf => absurd hf (by simp [Event.call?]),
      fun q hq _ k _ h' hk => ?_⟩, .nil⟩
    cases hq
    obtain ⟨path, hm⟩ := hown k h' hk
    rw [hsess]
    exact ⟨path, (hopen path h').mpr hm⟩

end Piece

theorem obeys_more (hi : StreamInv g) (hl : g.state.lastSent = 4) :
    Obeys g (nnSend (messegeType4Builder e (g.setLastRecieved 6).feof)).1 := by
  obtain ⟨h, hs, hh, hlive⟩ := hi.live hl
  let g1 := (g.setLastRecieved 6).feof
  have ht : g1.state.Terminated := hi.session.sending hl
  have htrace : g1.trace = g.trace ++ [.feof (some h)] := by rw [← hs]; rfl
  have huse : ∀ ev ∈ [Event.feof (some h)], ev.Uses h :=
    fun ev hev => .inl (List.mem_singleton.mp hev)
  have hr : Records g1 := hi.records.idle rfl (Nat.le_refl _) htrace fun ev hev => by
    rw [List.mem_singleton.mp hev]
    exact ⟨fun _ _ => by simp, fun _ => by simp⟩
  have hlive1 : Live g1.trace h := htrace ▸ hlive.uses huse
  have hsess : sessionTrace g1.trace = sessionTrace g.trace ++ [.feof (some h)] := by
    rw [htrace, sessionTrace_append fun ev hev => (huse ev hev).issues]
  obtain ⟨p, hp⟩ := piece_type4 (e := e) (g := g1) ht hr.low hs
  -- the new bytes are from `h`, the others were the session's own before
  have hown : Own g1.trace p := by
    intro k h' hk
    rw [congrFun hp.origin k] at hk
    by_cases hin : 145 ≤ k ∧ k < 145 + (g1.got 4096).length
    · rw [store_origin_in hin] at hk
      exact Option.some.inj hk ▸ hlive1.opened
    · rw [store_origin_out (by omega)] at hk
      obtain ⟨path, hm⟩ := hi.own hl k h' hk
      exact ⟨path, hsess ▸ List.mem_append_left _ hm⟩
  refine ⟨?_, hp.streamInv ht hr hh hlive1 hown⟩
  have hgrow := hp.trace
  rw [htrace, List.append_assoc] at hgrow
  rw [added_append hgrow, lawful_append htrace]
  exact ⟨lawful_of_uses hlive (.inr hl) huse, (hp.lawful_iff hr hh hlive1 (.inr hl)).mpr hown⟩

theorem obeys_finish (hi : StreamInv g) (hl : g.state.lastSent = 4) :
    Obeys g (nnSend (messegeType5Builder e (g.setLastRecieved 6).feof)).1 := by
  obtain ⟨h, hs, hh, hlive⟩ := hi.live hl
  let g1 := (g.setLastRecieved 6).feof
  have ht : g1.state.Terminated := hi.session.sending hl
  have htrace : g1.trace = g.trace ++ [.feof (some h)] := by rw [← hs]; rfl
  have hclose : g1.fclose.trace = g1.trace ++ [.fclose (some h)] := by rw [← hs]; rfl
  have huse : ∀ ev ∈ [Event.feof (some h)], ev.Uses h :=
    fun ev hev => .inl (List.mem_singleton.mp hev)
  have hr : Records g1 := hi.records.idle rfl (Nat.le_refl _) htrace fun ev hev => by
    rw [List.mem_singleton.mp hev]
    exact ⟨fun _ _ => by simp, fun _ => by simp⟩
  have hr' : Records g1.fclose := hr.close hh rfl (onFile_length _) hclose
  have horigin := out5_origin (b := g1.outMessage) hi.records.low (State.sid_length_le ht)
  have htype := Packet.type_of_reply (reply_type5 ht)
  show Obeys g (nnSend (messegeType5Builder e g1)).1
  rw [nnSend_type5 ht]
  generalize out5 g1.outMessage g1.state.sid = b at horigin htype ⊢
  have hquiet : ∀ ev ∈ [Event.send ⟨b, MessageType5.size⟩], ev.Quiet := by
    intro ev hev
    rw [List.mem_singleton.mp hev]
    refine ⟨rfl, fun p hp => ?_⟩
    cases hp
    rw [htype]
    exact (by decide : (5 : UInt8) ≠ 4)
  refine ⟨?_, .of_idle (.inr rfl) (hr'.idle horigin (Nat.le_refl _) rfl fun ev hev =>
    (hquiet ev hev).idle)⟩
  have hgrow : g1.fclose.trace ++ [Event.send ⟨b, MessageType5.size⟩] = g.trace ++
      ([.feof (some h)] ++ ([.fclose (some h)] ++ [Event.send ⟨b, MessageType5.size⟩])) := by
    rw [hclose, htrace, List.append_assoc, List.append_assoc]
  rw [added_append hgrow, lawful_append htrace, lawful_append hclose]
  refine ⟨lawful_of_uses hlive (.inr hl) huse, ?_, lawful_of_quiet hquiet⟩
  rw [AtEach.cons_iff, List.append_nil]
  refine ⟨⟨fun file hf => ⟨.inr hl, h, (Option.some.inj hf).symm, ?_⟩, fun p hp => by cases hp⟩, .nil⟩
  exact htrace ▸ hlive.uses huse

/-- When every byte of the first piece of a transfer was read in its session. -/
theorem own_start_iff {g1 g' : Daemon} {p : Packet} {path : List UInt8} (hi : StreamInv g)
    (hl : g.state.lastSent = 1) (ho : g1.outMessage = g.outMessage)
    (ht : g1.trace = g.trace ++ [.fopen path (some g.streams.length),
      .fstat (some g.streams.length) true]) (hp : Piece g1 g.streams.length g' p) :
    Own g1.trace p ↔ ∀ file got, .fread file got ∈ g.trace →
      got.length ≤ (g1.got 4096).length := by
  have hsess : ∀ path' h', .fopen path' (some h') ∈ sessionTrace g1.trace ↔
      path' = path ∧ h' = g.streams.length := by
    intro path' h'
    rw [ht, sessionTrace_append (by simp [Event.issues]), List.mem_append]
    refine (or_iff_right (hi.fresh hl path' h')).trans ?_
    simp
  constructor
  · -- a longer piece would show, and no stream was opened in this session before
    intro hown file got hm
    by_contra hlt
    obtain ⟨h', hk⟩ := (hi.records.read (g1.got 4096).length).mpr ⟨file, got, hm, by omega⟩
    have hk' : p.buf.origin (145 + (g1.got 4096).length) = some h' := by
      rw [hp.origin, store_origin_out (by omega), ho, hk]
    obtain ⟨path', hm'⟩ := hown _ h' hk'
    have := hi.records.known _ h' hk
    have := ((hsess path' h').mp hm').2
    omega
  · intro hle k h' hk
    refine ⟨path, (hsess path h').mpr ⟨rfl, ?_⟩⟩
    rw [hp.origin, ho] at hk
    by_cases hin : 145 ≤ k ∧ k < 145 + (g1.got 4096).length
    · rw [store_origin_in hin] at hk
      exact (Option.some.inj hk).symm
    · rw [store_origin_out (by omega)] at hk
      have hlow : 145 ≤ k := by
        by_contra hlt
        exact absurd (hi.records.low k (by omega)) (by rw [hk]; simp)
      obtain ⟨file, got, hm, hj⟩ := (hi.records.read (k - 145)).mp
        ⟨h', by rw [Nat.add_sub_cancel' hlow, hk]⟩
      have := hle file got hm
      omega

/-- A transfer starts lawfully exactly when its first piece covers the ones before. -/
theorem handle_start_iff {f : File} (hi : StreamInv g) (hs : Starts e m g f) :
    (AtEach (fun pre ev => Lawful g (g.trace ++ pre) ev) (added g (handle e m g).1) ↔
      ∀ file got, .fread file got ∈ g.trace →
        got.length ≤ ((Stream.opened f.data f.faults).fread 4096).1.length) ∧
    ((∀ file got, .fread file got ∈ g.trace →
        got.length ≤ ((Stream.opened f.data f.faults).fread 4096).1.length) →
      StreamInv (handle e m g).1) := by
  have hf := hs.opens
  let g1 := (g.fopen e (pathOf m)).fstat
  have hstate : g1.state = g.state := fopen_state _
  have hfile : g1.sendFile = some g.streams.length := fopen_sendFile hf
  have hlen : g1.streams.length = g.streams.length + 1 := by
    show (g.fopen e (pathOf m)).streams.length = _
    rw [fopen_some hf]
    exact List.length_append
  have ho : g1.outMessage = g.outMessage := fopen_outMessage _
  have htrace : g1.trace = g.trace ++ [.fopen (pathOf m) (some g.streams.length),
      .fstat (some g.streams.length) true] := by
    have hreg := fopen_isReg (g := g) hf
    show (g.fopen e (pathOf m)).trace ++ [.fstat (g.fopen e (pathOf m)).sendFile
      (g.fopen e (pathOf m)).isReg] = _
    rw [hreg, hs.regular, fopen_some hf]
    exact List.append_assoc _ _ _
  have hquiet : ∀ ev ∈ [Event.fopen (pathOf m) (some g.streams.length),
      .fstat (some g.streams.length) true], ev.Quiet := by simp [Event.Quiet, Event.call?]
  have ht : g1.state.Terminated := hi.session.starting hs.lastSent _
  have hr : Records g1 := hi.records.idle (by rw [ho]) (by omega) htrace fun ev hev =>
    (hquiet ev hev).idle
  have hsess : sessionTrace g1.trace = sessionTrace g.trace ++
      [.fopen (pathOf m) (some g.streams.length), .fstat (some g.streams.length) true] := by
    rw [htrace, sessionTrace_append (by simp [Event.issues])]
  have hlive : Live g1.trace g.streams.length := by
    refine ⟨⟨pathOf m, by rw [hsess]; simp⟩, by rw [hsess]; simp, ?_⟩
    rw [htrace, List.mem_append, not_or]
    exact ⟨fun hm => absurd (hi.records.closed _ hm) (Nat.lt_irrefl _), by simp⟩
  obtain ⟨p, hp⟩ := piece_type4 (e := e) (g := g1) ht hr.low hfile
  have hown := own_start_iff hi hs.lastSent ho htrace hp
  rw [show g1.got 4096 = _ from fopen_got hf 4096] at hown
  have hgrow := hp.trace
  rw [htrace, List.append_assoc] at hgrow
  rw [(Exit.start3 hs.auth hs.lastSent f hf hs.regular).handle_eq]
  refine ⟨?_, fun hle => hp.streamInv ht hr (by omega) hlive (hown.mpr hle)⟩
  rw [added_append hgrow, lawful_append htrace]
  refine (and_iff_right (lawful_of_quiet hquiet)).trans ?_
  exact (hp.lawful_iff hr (by omega) hlive (.inl hs.lastSent)).trans hown

/-- Every other message is handled lawfully. -/
theorem handle_obeys (hi : StreamInv g) (hn : ∀ f, ¬ Starts e m g f) :
    Obeys g (handle e m g).1 := by
  have hexit := handle_exit e m g
  have hnil : ∀ ev ∈ ([] : List Event), ev.Quiet := fun ev hev => absurd hev List.not_mem_nil
  generalize handle e m g = r at hexit ⊢
  cases hexit with
  | busy0 | stranger6 => exact obeys_refused hi (by decide)
  | corrupt0 | corrupt3 | stranger3 | invalid3 | corrupt6 | invalid6 =>
    exact obeys_failed [] hi rfl (List.append_nil _).symm hnil (Nat.le_refl _) rfl (by decide)
  | accept0 => exact obeys_type1 hi
  | noFile3 ha hl hf =>
    refine obeys_failed [.fopen (pathOf m) none] hi rfl ?_ ?_ ?_ ?_ (by decide)
    · rw [fopen_none hf]; rfl
    · simp [Event.Quiet, Event.call?]
    · rw [fopen_none hf]; exact Nat.le_refl _
    · exact fopen_outMessage _
  | irregular3 ha hl f hf hr =>
    refine obeys_failed [.fopen (pathOf m) (some g.streams.length),
      .fstat (g.fopen e (pathOf m)).sendFile (g.fopen e (pathOf m)).isReg] hi rfl ?_ ?_ ?_ ?_
      (by decide)
    · show (g.fopen e (pathOf m)).trace ++ [_] = _
      rw [fopen_some hf]
      exact List.append_assoc _ _ _
    · simp [Event.Quiet, Event.call?]
    · show _ ≤ (g.fopen e (pathOf m)).streams.length
      rw [fopen_some hf, List.length_append]
      exact Nat.le_add_right _ _
    · exact fopen_outMessage _
  | start3 ha hl f hf hr => exact absurd ⟨ha, hl, hf, hr⟩ (hn f)
  | finish6 ha hl => exact obeys_finish hi hl
  | more6 ha hl => exact obeys_more hi hl
  | silent6 ha hl =>
    have hstill : Still g (g.setLastRecieved 6) [] :=
      ⟨(List.append_nil _).symm, rfl, rfl, rfl, fun ev hev => absurd hev List.not_mem_nil⟩
    exact hstill.obeys hi (.of_idle (.inr hl)) rfl
  | other => exact obeys_refused hi (Nat.le_trans (invalidType_length_le _) (by decide))

/-! ## The discipline of a run -/

theorem auth3_setBuffer (b : Mem) : Auth3 e m { g with buffer := b } ↔ Auth3 e m g :=
  ⟨fun h => ⟨h.type, h.ver, h.sid⟩, fun h => ⟨h.type, h.ver, h.sid⟩⟩

theorem starts_setBuffer {f : File} (b : Mem) :
    Starts e m { g with buffer := b } f ↔ Starts e m g f :=
  ⟨fun h => ⟨(auth3_setBuffer b).mp h.auth, h.lastSent, h.opens, h.regular⟩,
    fun h => ⟨(auth3_setBuffer b).mpr h.auth, h.lastSent, h.opens, h.regular⟩⟩

theorem lawful_setBuffer (b : Mem) : Lawful { g with buffer := b } tr ev ↔ Lawful g tr ev :=
  ⟨fun h => ⟨h.call, h.own⟩, fun h => ⟨h.call, h.own⟩⟩

/-- **One round** is disciplined exactly when it is covered. -/
theorem disciplined_iff (hi : StreamInv g) (i : Input) : Disciplined g i ↔ Covered g i := by
  have hi' := hi.setBuffer (nnRecv g.buffer i.recv)
  by_cases hs : ∃ f, Starts i.env (view (nnRecv g.buffer i.recv) i.past) g f
  · obtain ⟨f, hs⟩ := hs
    have hstart := (handle_start_iff hi' ((starts_setBuffer _).mpr hs)).1
    simp only [lawful_setBuffer] at hstart
    refine Iff.trans hstart ⟨fun hle f' hs' => ?_, fun hc => hc f hs⟩
    rwa [← Option.some.inj (hs.opens.symm.trans hs'.opens)]
  · have hother := (handle_obeys hi' fun f hf => hs ⟨f, (starts_setBuffer _).mp hf⟩).lawful
    simp only [lawful_setBuffer] at hother
    exact iff_of_true hother fun f hf => absurd ⟨f, hf⟩ hs

theorem iteration_streamInv (hi : StreamInv g) {i : Input} (hc : Covered g i) :
    StreamInv (iteration g i).1 := by
  have hi' := hi.setBuffer (nnRecv g.buffer i.recv)
  by_cases hs : ∃ f, Starts i.env (view (nnRecv g.buffer i.recv) i.past) g f
  · obtain ⟨f, hs⟩ := hs
    exact (handle_start_iff hi' ((starts_setBuffer _).mpr hs)).2 (hc f hs)
  · exact (handle_obeys hi' fun f hf => hs ⟨f, (starts_setBuffer _).mp hf⟩).inv

/-- **The discipline of streams** is kept all along a run exactly when no transfer
starts with a piece shorter than one sent before. -/
theorem stream_discipline_iff (hg : Init g) (is : List Input) :
    AtEach (fun pre i => Disciplined (mainLoop.run g pre) i) is ↔
      AtEach (fun pre i => Covered (mainLoop.run g pre) i) is :=
  Mealy.atEach_iff (M := mainLoop) (I := StreamInv) (fun _ i _ hi => disciplined_iff hi i)
    (fun _ _ _ hi hc => iteration_streamInv hi hc) hg.streamInv

theorem Covered.of_quiet {i : Input} (hq : ∀ ev ∈ g.trace, ev.call? = none) : Covered g i :=
  fun _ _ file got hm => absurd (hq _ hm) (by simp [Event.call?])

theorem Covered.of_lastSent {i : Input} (hl : g.state.lastSent ≠ 1) : Covered g i :=
  fun _ hs => absurd hs.lastSent hl

def askFor (g : Daemon) (data : List UInt8) : Input :=
  ask g (chars "/etc/motd") (envOf (some ⟨true, data, []⟩))

theorem askFor_auth3 (ht : g.state.Terminated) (data : List UInt8) :
    Auth3 (askFor g data).env
      (view (nnRecv g.buffer (askFor g data).recv) (askFor g data).past) g :=
  ask_auth3 ht (by decide) (by decide)

theorem askFor_starts (ht : g.state.Terminated) (hl : g.state.lastSent = 1) (data : List UInt8) :
    Starts (askFor g data).env (view (nnRecv g.buffer (askFor g data).recv) (askFor g data).past) g
      ⟨true, data, []⟩ := ⟨askFor_auth3 ht data, hl, rfl, rfl⟩

theorem starts_read {f : File} (ht : g.state.Terminated) (hs : Starts e m g f) :
    (handle e m g).1.state.lastSent = 4 ∧
      .fread (g.fopen e (pathOf m)).sendFile ((Stream.opened f.data f.faults).fread 4096).1 ∈
        (handle e m g).1.trace := by
  have ht' : (g.fopen e (pathOf m)).fstat.state.Terminated := fopen_state (g := g) _ ▸ ht
  rw [(Exit.start3 hs.auth hs.lastSent f hs.opens hs.regular).handle_eq, nnSend_type4 ht']
  refine ⟨rfl, List.mem_append_left _ ?_⟩
  rw [readBlock_trace, fopen_got hs.opens]
  exact List.mem_append_right _ List.mem_cons_self

/-- A daemon in state `t` that has read a piece. -/
structure HasRead (t : UInt8) (got : List UInt8) (g : Daemon) : Prop where
  inv : StreamInv g
  lastSent : g.state.lastSent = t
  read : ∃ file, .fread file got ∈ g.trace

theorem askFor_read {data : List UInt8} (hi : StreamInv g) (hl : g.state.lastSent = 1)
    (hq : ∀ ev ∈ g.trace, ev.call? = none) :
    HasRead 4 ((Stream.opened data []).fread 4096).1 (iteration g (askFor g data)).1 := by
  have ht := hi.session.terminated (.inl hl)
  obtain ⟨h4, hread⟩ := starts_read
    (g := { g with buffer := nnRecv g.buffer (askFor g data).recv }) ht
    ((starts_setBuffer _).mpr (askFor_starts ht hl data))
  rw [← iteration_eq] at h4 hread
  exact ⟨iteration_streamInv hi (.of_quiet hq), h4, _, hread⟩

theorem HasRead.fails {got data : List UInt8} (hr : HasRead 4 got g) :
    HasRead 2 got (iteration g (askFor g data)).1 := by
  have h1 : g.state.lastSent ≠ 1 := by rw [hr.lastSent]; decide
  have ha := askFor_auth3 (hr.inv.session.terminated (.inr hr.lastSent)) data
  have hstep := (Exit.invalid3 ((auth3_setBuffer (nnRecv g.buffer (askFor g data).recv)).mpr ha)
    h1).handle_eq
  rw [← iteration_eq] at hstep
  obtain ⟨file, hm⟩ := hr.read
  refine ⟨iteration_streamInv hr.inv (.of_lastSent h1), ?_, file, ?_⟩
  · rw [hstep, sendError_state]
    rfl
  · rw [hstep, sendError_eq]
    exact List.mem_append_left _ hm

theorem HasRead.greeted {got : List UInt8} (hr : HasRead 2 got g) :
    HasRead 1 got (iteration g greeting).1 := by
  have h1 : g.state.lastSent ≠ 1 := by rw [hr.lastSent]; decide
  obtain ⟨hl, p, htrace⟩ := greeting_accepted (.inr hr.lastSent)
  obtain ⟨file, hread⟩ := hr.read
  refine ⟨iteration_streamInv hr.inv (.of_lastSent h1), hl, file, ?_⟩
  rw [htrace]
  exact List.mem_append_left _ hread

theorem HasRead.leaks {got : List UInt8} (hr : HasRead 1 got g) (hpos : 0 < got.length) :
    ¬ Disciplined g (askFor g []) := by
  intro hd
  obtain ⟨file, hm⟩ := hr.read
  have hs := askFor_starts (hr.inv.session.terminated (.inl hr.lastSent)) hr.lastSent []
  have hle := (disciplined_iff hr.inv _).mp hd _ hs file got hm
  exact absurd hle (Nat.not_le.mpr hpos)

theorem Init.covered (hg : Init g) (i : Input) : Covered g i := by
  obtain ⟨sid, user, out, buf, rand, rfl⟩ := hg
  exact .of_quiet fun _ hev => absurd hev List.not_mem_nil

theorem Init.greeted (hg : Init g) : StreamInv (iteration g greeting).1 ∧
    (iteration g greeting).1.state.lastSent = 1 ∧
    ∀ ev ∈ (iteration g greeting).1.trace, ev.call? = none := by
  have hstart : g.trace = [] := by
    obtain ⟨sid, user, out, buf, rand, rfl⟩ := hg
    rfl
  obtain ⟨hl, p, htrace⟩ := greeting_accepted (.inl hg.lastSent)
  refine ⟨iteration_streamInv hg.streamInv (hg.covered _), hl, fun ev hev => ?_⟩
  rw [htrace, hstart] at hev
  rw [List.mem_singleton.mp hev]
  rfl

def aliceAsks (g : Daemon) : List Input := [greeting, askFor (iteration g greeting).1 (chars "hi")]

/-- She gives the session up with a second request, and in a new one she asks
for an empty file. -/
def aliceAsksAgain (g : Daemon) : List Input :=
  let opened := (iteration g greeting).1
  let served := (iteration opened (askFor opened (chars "hi"))).1
  let failed := (iteration served (askFor served [])).1
  let again := (iteration failed greeting).1
  [greeting, askFor opened (chars "hi"), askFor served [], greeting, askFor again []]

theorem aliceAsks_covered (hg : Init g) :
    AtEach (fun pre i => Covered (mainLoop.run g pre) i) (aliceAsks g) := by
  unfold aliceAsks
  rw [AtEach.cons_iff, AtEach.cons_iff]
  exact ⟨hg.covered _, .of_quiet hg.greeted.2.2, .nil⟩

theorem aliceAsksAgain_leaks (hg : Init g) :
    ¬ AtEach (fun pre i => Disciplined (mainLoop.run g pre) i) (aliceAsksAgain g) := by
  intro h
  obtain ⟨hinv, hl, hq⟩ := hg.greeted
  unfold aliceAsksAgain at h
  dsimp only at h
  generalize hopened : (iteration g greeting).1 = opened at hinv hl hq h
  have hread : HasRead 4 _ (iteration opened (askFor opened (chars "hi"))).1 :=
    askFor_read hinv hl hq
  generalize hserved : (iteration opened (askFor opened (chars "hi"))).1 = served at hread h
  have hgone : HasRead 2 _ (iteration served (askFor served [])).1 := hread.fails
  generalize hfailed : (iteration served (askFor served [])).1 = failed at hgone h
  have hnew : HasRead 1 _ (iteration failed greeting).1 := hgone.greeted
  generalize hagain : (iteration failed greeting).1 = again at hnew h
  have hlast := h [greeting, askFor opened (chars "hi"), askFor served [], greeting]
    (askFor again []) [] rfl
  beta_reduce at hlast
  rw [run_cons, hopened, run_cons, hserved, run_cons, hfailed, run_cons, hagain, run_nil] at hlast
  exact hnew.leaks (by decide) hlast

/-- A first transfer has nothing to cover. -/
theorem stream_discipline_alice :
    AtEach (fun pre i => Disciplined (mainLoop.run zeroBoot pre) i) (aliceAsks zeroBoot) :=
  (stream_discipline_iff zeroBoot_init _).mpr (aliceAsks_covered zeroBoot_init)

/-- When `alice` asks for an empty file in her second session, the bytes behind
its contents are still those of the first file. -/
theorem stream_discipline_leak : Init zeroBoot ∧
    ¬ AtEach (fun pre i => Disciplined (mainLoop.run zeroBoot pre) i) (aliceAsksAgain zeroBoot) :=
  ⟨zeroBoot_init, aliceAsksAgain_leaks zeroBoot_init⟩

end Getd
