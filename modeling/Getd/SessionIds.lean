import Getd.Authentication

/-!
# Where session ids come from

An accepted type 0 message takes 128 draws of `rand` and no other message takes
any (`handle_noDraw`). A draw of `RAND_MAX` is scaled to the NUL behind the
alphabet and cuts the id short (`full_id_iff`). `main` does not call `srand`, so
every process makes the same draws, and the `n`-th session of every process has
the same id (`foreign_ids_iff`).
-/

namespace Getd

open CLib

variable {e : Env} {m : Mem} {g h : Daemon}

/-- A type 0 message that opens a session. -/
structure Accept0 (m : Mem) (g : Daemon) : Prop where
  type : Header.messageType m = 0
  lastSent : g.state.lastSent = 5 ∨ g.state.lastSent = 2
  ver : type0Ver m = 0

instance (m : Mem) (g : Daemon) : Decidable (Accept0 m g) :=
  decidable_of_iff (Header.messageType m = 0 ∧ (g.state.lastSent = 5 ∨ g.state.lastSent = 2) ∧
    type0Ver m = 0) ⟨fun h => ⟨h.1, h.2.1, h.2.2⟩, fun h => ⟨h.type, h.lastSent, h.ver⟩⟩

/-! ## The characters of an id -/

/-- The characters `possibleChars` is meant to give. -/
def alphabet : List UInt8 := possibleChars.take (possibleChars.length - 1)

theorem alphabet_length : alphabet.length = 62 := by decide

theorem possibleChars_length : possibleChars.length = 63 := by decide

theorem alphabet_ne_nul : 0 ∉ alphabet := by decide

/-- The scaling reaches the NUL for the largest draw only. -/
theorem charIndex_lt_iff (r : Fin (RAND_MAX + 1)) :
    charIndex r < alphabet.length ↔ r.val ≠ RAND_MAX := by
  have hr : r.val ≤ 2147483647 := Nat.le_of_lt_succ r.isLt
  have hmax : RAND_MAX = 2147483647 := rfl
  have hpos : 0 < RAND_MAX := by decide
  rw [alphabet_length, charIndex, possibleChars_length, Nat.div_lt_iff_lt_mul hpos]
  omega

theorem idChar_mem {r : Fin (RAND_MAX + 1)} (hr : charIndex r < alphabet.length) :
    idChar r ∈ alphabet := by
  have hlt : charIndex r < possibleChars.length := by
    rw [alphabet_length] at hr
    rw [possibleChars_length]
    omega
  have hget : alphabet[charIndex r] = idChar r := by
    rw [idChar, List.getD_eq_getElem?_getD, List.getElem?_eq_getElem hlt, Option.getD_some]
    exact List.getElem_take
  rw [← hget]
  exact List.getElem_mem hr

/-- The id of a new session has 128 characters of the alphabet, each index into
`possibleChars` selects one, and the reply says so. -/
structure FullId (e : Env) (m : Mem) (g : Daemon) : Prop where
  index : ∀ k < 128, charIndex (g.rand (g.drawn + k)) < alphabet.length
  chars : ∀ i (_ : i < 128), (handle e m g).1.state.sessionId[i] ∈ alphabet
  nul : (handle e m g).1.state.Terminated
  reply : ∃ sid, replyOf (handle e m g) = some (.type1 MessageType1.size 128 sid)

theorem Accept0.handle_eq (ha : Accept0 m g) :
    handle e m g = nnSend (messageType1Builder e (newSession m g)) :=
  (Exit.accept0 ha.type ha.lastSent ha.ver).handle_eq

theorem Accept0.sessionId (ha : Accept0 m g) :
    (handle e m g).1.state.sessionId = drawnId g.rand g.drawn := by
  rw [ha.handle_eq, nnSend_type1 (newSession_terminated m g), newSession_eq]

theorem Accept0.terminated (ha : Accept0 m g) : (handle e m g).1.state.Terminated := by
  have ht := newSession_terminated m g
  rw [ha.handle_eq, nnSend_type1 ht]
  exact ht.congr rfl

theorem Accept0.reply (ha : Accept0 m g) :
    replyOf (handle e m g) = some (.type1 MessageType1.size
      (handle e m g).1.state.sid.length (handle e m g).1.state.sid) := by
  have hsid : (handle e m g).1.state.sid = (newSession m g).state.sid := by
    rw [ha.handle_eq, nnSend_type1 (newSession_terminated m g)]
    exact State.sid_congr rfl
  rw [hsid, ha.handle_eq]
  exact replyOf_type1 (newSession_terminated m g)

theorem drawnId_get (rand : Nat → Fin (RAND_MAX + 1)) (k : Nat) {i : Nat} (hi : i < 128) :
    (drawnId rand k)[i] = idChar (rand (k + (127 - i))) := by
  simp only [drawnId, Vector.getElem_ofFn, hi, if_true]

/-- An id without a NUL before its last byte is as long as its field allows. -/
theorem State.sid_length_full {s : State} (ht : s.Terminated)
    (hs : ∀ i (_ : i < 128), s.sessionId[i] ≠ 0) : s.sid.length = 128 := by
  refine Nat.le_antisymm (State.sid_length_le ht) ?_
  rw [← ht.strlen fun _ => 0]
  refine le_strnlen_iff.mpr ⟨by decide, fun i hi => ?_⟩
  rw [State.image_sessionId (by omega)]
  exact hs i hi

/-- **An issued id is full length** exactly when none of its draws is `RAND_MAX`. -/
theorem full_id_iff (ha : Accept0 m g) : FullId e m g ↔
    ∀ k < 128, (g.rand (g.drawn + k)).val ≠ RAND_MAX := by
  constructor
  · intro h k hk
    exact (charIndex_lt_iff _).mp (h.index k hk)
  · intro h
    have hindex : ∀ k < 128, charIndex (g.rand (g.drawn + k)) < alphabet.length := fun k hk =>
      (charIndex_lt_iff _).mpr (h k hk)
    have hchars : ∀ i (_ : i < 128), (handle e m g).1.state.sessionId[i] ∈ alphabet := by
      intro i hi
      simp only [ha.sessionId, drawnId_get _ _ hi]
      exact idChar_mem (hindex _ (by omega))
    have ht : (handle e m g).1.state.Terminated := ha.terminated
    refine ⟨hindex, hchars, ht, (handle e m g).1.state.sid, ?_⟩
    rw [ha.reply, State.sid_length_full ht fun i hi h0 => alphabet_ne_nul (h0 ▸ hchars i hi)]

theorem accept0_alice : Accept0 (memOf (encode0 (chars "alice"))) zeroBoot :=
  ⟨rfl, .inl rfl, alice_introduces.ver⟩

theorem full_id_alice : FullId (envOf none) (memOf (encode0 (chars "alice"))) zeroBoot :=
  (full_id_iff accept0_alice).mpr fun _ _ => (by decide : 0 ≠ RAND_MAX)

def maxBoot : Daemon :=
  boot (Vector.replicate 129 0) (Vector.replicate 33 0) (fun _ => 0) (fun _ => 0)
    fun _ => ⟨RAND_MAX, Nat.lt_succ_self _⟩

theorem maxBoot_empty_id : Reachable maxBoot ∧
    Accept0 (memOf (encode0 (chars "alice"))) maxBoot ∧
    replyOf (handle (envOf none) (memOf (encode0 (chars "alice"))) maxBoot) =
      some (.type1 MessageType1.size 0 []) ∧
    ¬ FullId (envOf none) (memOf (encode0 (chars "alice"))) maxBoot := by
  have ha : Accept0 (memOf (encode0 (chars "alice"))) maxBoot := ⟨rfl, .inl rfl, alice_introduces.ver⟩
  refine ⟨.init ⟨_, _, _, _, _, rfl⟩, ha, by decide +kernel, fun h => ?_⟩
  exact absurd (h.index 0 (by decide)) (by decide)

/-! ## The draws of a run -/

/-- Nothing that a session id depends on has changed, and no session is new. -/
structure NoDraw (g g' : Daemon) : Prop where
  rand : g'.rand = g.rand
  drawn : g'.drawn = g.drawn
  sessionId : g'.state.sessionId = g.state.sessionId
  opens : g'.Open → g.Open

theorem noDraw_error {g1 : Daemon} {text : List UInt8} (h : NoDraw g g1) :
    NoDraw g (sendError g1 text).1 := by
  rw [sendError_eq]
  exact ⟨h.rand, h.drawn, h.sessionId, h.opens⟩

theorem noDraw_failed {g1 : Daemon} {text : List UInt8} (hr : g1.rand = g.rand)
    (hd : g1.drawn = g.drawn) (hs : g1.state.sessionId = g.state.sessionId)
    (hl : g1.state.lastSent = 2) : NoDraw g (sendError g1 text).1 :=
  noDraw_error ⟨hr, hd, hs, fun ho => absurd hl (Daemon.Open.busy ho).2⟩

theorem noDraw_type4 {g1 : Daemon} (hr : g1.rand = g.rand) (hd : g1.drawn = g.drawn)
    (hs : g1.state.sessionId = g.state.sessionId) (ho : g.Open) :
    NoDraw g (nnSend (messegeType4Builder e g1)).1 := by
  have hb : (nnSend (messegeType4Builder e g1)).1.rand = g1.rand ∧
      (nnSend (messegeType4Builder e g1)).1.drawn = g1.drawn ∧
      (nnSend (messegeType4Builder e g1)).1.state.sessionId = g1.state.sessionId := by
    unfold messegeType4Builder
    dsimp only
    split <;> exact ⟨rfl, rfl, rfl⟩
  exact ⟨hb.1.trans hr, hb.2.1.trans hd, hb.2.2.trans hs, fun _ => ho⟩

theorem fopen_draws (path : List UInt8) : (g.fopen e path).rand = g.rand ∧
    (g.fopen e path).drawn = g.drawn ∧
    (g.fopen e path).state.sessionId = g.state.sessionId := by
  unfold Daemon.fopen
  split <;> exact ⟨rfl, rfl, rfl⟩

theorem handle_noDraw (ha : ¬ Accept0 m g) : NoDraw g (handle e m g).1 := by
  have hsame : NoDraw g g := ⟨rfl, rfl, rfl, id⟩
  obtain ⟨hr, hd, hs⟩ := fopen_draws (e := e) (g := g) (pathOf m)
  have hexit := handle_exit e m g
  generalize handle e m g = r at hexit ⊢
  cases hexit with
  | busy0 | stranger6 | other => exact noDraw_error hsame
  | corrupt0 | corrupt3 | stranger3 | invalid3 | corrupt6 | invalid6 =>
    exact noDraw_failed rfl rfl rfl rfl
  | accept0 ht hl hv => exact absurd ⟨ht, hl, hv⟩ ha
  | noFile3 | irregular3 => exact noDraw_failed hr hd hs rfl
  | start3 _ hl => exact noDraw_type4 hr hd hs (.inl hl)
  | finish6 =>
    have h51 : ¬ ((5 : UInt8) = 1 ∨ (5 : UInt8) = 4) := by decide
    exact ⟨rfl, rfl, rfl, fun ho => absurd ho h51⟩
  | more6 _ hl => exact noDraw_type4 rfl rfl rfl (.inr hl)
  | silent6 => exact ⟨rfl, rfl, rfl, id⟩

theorem Accept0.draws (ha : Accept0 m g) : (handle e m g).1.rand = g.rand ∧
    (handle e m g).1.drawn = g.drawn + 128 := by
  rw [ha.handle_eq, nnSend_type1 (newSession_terminated m g), newSession_eq]
  exact ⟨rfl, rfl⟩

/-- The number of type 0 messages a run accepts. -/
def accepted (g : Daemon) : List Input → Nat
  | [] => 0
  | i :: is => (if Accept0 (i.message g) g then 1 else 0) + accepted (iteration g i).1 is

/-- The session id that an answer issues. -/
def issuedId : Option Reply → Option (List UInt8)
  | some (.type1 _ _ sid) => some sid
  | _ => none

def issuedIds (g : Daemon) (is : List Input) : List (List UInt8) :=
  (mainLoop.outs g is).filterMap fun o => issuedId (o.bind Packet.reply)

/-! ### One round -/

theorem accept0_setBuffer (b : Mem) : Accept0 m { g with buffer := b } ↔ Accept0 m g :=
  ⟨fun h => ⟨h.type, h.lastSent, h.ver⟩, fun h => ⟨h.type, h.lastSent, h.ver⟩⟩

variable {i : Input}

theorem iteration_noDraw (ha : ¬ Accept0 (i.message g) g) : NoDraw g (iteration g i).1 := by
  have hn := handle_noDraw (e := i.env) (fun h => ha ((accept0_setBuffer (nnRecv g.buffer i.recv)).mp h))
  exact ⟨hn.rand, hn.drawn, hn.sessionId, hn.opens⟩

/-- What an accepted type 0 message leaves and answers. -/
structure Drawn (g : Daemon) (r : Daemon × Option Packet) : Prop where
  rand : r.1.rand = g.rand
  drawn : r.1.drawn = g.drawn + 128
  sessionId : r.1.state.sessionId = drawnId g.rand g.drawn
  lastSent : r.1.state.lastSent = 1
  issued : issuedId (replyOf r) = some r.1.state.sid

theorem Accept0.drawn (ha : Accept0 m g) : Drawn g (handle e m g) := by
  refine ⟨ha.draws.1, ha.draws.2, ha.sessionId, ?_, ?_⟩
  · rw [ha.handle_eq, nnSend_type1 (newSession_terminated m g)]
  · rw [ha.reply]
    rfl

theorem iteration_terminated (ha : Accept0 (i.message g) g) :
    (iteration g i).1.state.Terminated :=
  ((accept0_setBuffer (nnRecv g.buffer i.recv)).mpr ha).terminated (e := i.env)

theorem iteration_drawn (ha : Accept0 (i.message g) g) : Drawn g (iteration g i) := by
  have hd := ((accept0_setBuffer (nnRecv g.buffer i.recv)).mpr ha).drawn (e := i.env)
  exact ⟨hd.rand, hd.drawn, hd.sessionId, hd.lastSent, hd.issued⟩

theorem handle_not_issued (hinv : SessionInv g) (ha : ¬ Accept0 m g) :
    issuedId (replyOf (handle e m g)) = none := by
  have herr : ∀ (g1 : Daemon) {text : List UInt8}, text.length < 2 ^ 32 →
      issuedId (replyOf (sendError g1 text)) = none := fun g1 _ ht => by
    rw [replyOf_error g1 ht]
    rfl
  have hexit := handle_exit e m g
  generalize handle e m g = r at hexit ⊢
  cases hexit with
  | busy0 | corrupt0 | corrupt3 | stranger3 | invalid3 | noFile3 | irregular3 | stranger6 | corrupt6
  | invalid6 => exact herr _ (by decide)
  | accept0 ht hl hv => exact absurd ⟨ht, hl, hv⟩ ha
  | start3 _ hl =>
    rw [replyOf_type4 (hinv.starting hl _)]
    rfl
  | finish6 _ hl =>
    rw [replyOf_type5 (hinv.sending hl)]
    rfl
  | more6 _ hl =>
    rw [replyOf_type4 (hinv.sending hl)]
    rfl
  | silent6 => rfl
  | other => exact herr _ (Nat.lt_of_le_of_lt (invalidType_length_le _) (by decide))

theorem iteration_not_issued (hinv : SessionInv g) (ha : ¬ Accept0 (i.message g) g) :
    issuedId (replyOf (iteration g i)) = none :=
  handle_not_issued (hinv.setBuffer (nnRecv g.buffer i.recv))
    fun h => ha ((accept0_setBuffer (nnRecv g.buffer i.recv)).mp h)

/-! ### A run -/

variable {is js : List Input}

theorem accepted_cons_of (ha : Accept0 (i.message g) g) :
    accepted g (i :: is) = accepted (iteration g i).1 is + 1 := by
  rw [accepted, if_pos ha, Nat.add_comm]

theorem accepted_cons_of_not (ha : ¬ Accept0 (i.message g) g) :
    accepted g (i :: is) = accepted (iteration g i).1 is := by
  rw [accepted, if_neg ha, Nat.zero_add]

theorem issuedIds_cons {sid : List UInt8} : sid ∈ issuedIds g (i :: is) ↔
    issuedId (replyOf (iteration g i)) = some sid ∨ sid ∈ issuedIds (iteration g i).1 is := by
  show sid ∈ ((iteration g i).2 :: mainLoop.outs (iteration g i).1 is).filterMap _ ↔ _
  rw [List.mem_filterMap]
  unfold issuedIds replyOf
  rw [List.mem_filterMap]
  constructor
  · rintro ⟨o, ho, hs⟩
    rcases List.mem_cons.mp ho with rfl | ho
    · exact .inl hs
    · exact .inr ⟨o, ho, hs⟩
  · rintro (hs | ⟨o, ho, hs⟩)
    · exact ⟨_, List.mem_cons_self, hs⟩
    · exact ⟨o, List.mem_cons_of_mem _ ho, hs⟩

/-- The id of an open session is that of the last 128 draws. -/
def LastDrawn (g : Daemon) : Prop :=
  g.Open → ∃ k, g.drawn = k + 128 ∧ g.state.sessionId = drawnId g.rand k

theorem Init.not_open (hg : Init g) : ¬ g.Open := fun ho => ho.busy.1 hg.lastSent

theorem Init.drawn (hg : Init g) : g.drawn = 0 := by
  obtain ⟨sid, user, out, buf, rand, rfl⟩ := hg
  rfl

theorem run_draws (is : List Input) : ∀ {g : Daemon}, LastDrawn g →
    LastDrawn (mainLoop.run g is) ∧ (mainLoop.run g is).rand = g.rand ∧
      (mainLoop.run g is).drawn = g.drawn + 128 * accepted g is := by
  induction is with
  | nil => exact fun hi => ⟨hi, rfl, rfl⟩
  | cons i is ih =>
    intro g hi
    by_cases ha : Accept0 (i.message g) g
    · have hd := iteration_drawn ha
      obtain ⟨hlast, hrand, hcount⟩ := ih (g := (iteration g i).1) fun _ =>
        ⟨g.drawn, hd.drawn, by rw [hd.rand]; exact hd.sessionId⟩
      rw [run_cons, accepted_cons_of ha]
      rw [hd.drawn] at hcount
      exact ⟨hlast, hrand.trans hd.rand, by omega⟩
    · have hn := iteration_noDraw ha
      obtain ⟨hlast, hrand, hcount⟩ := ih (g := (iteration g i).1) fun ho => by
        obtain ⟨k, hk, hs⟩ := hi (hn.opens ho)
        exact ⟨k, hn.drawn.trans hk, by rw [hn.rand]; exact hn.sessionId.trans hs⟩
      rw [run_cons, accepted_cons_of_not ha]
      rw [hn.drawn] at hcount
      exact ⟨hlast, hrand.trans hn.rand, hcount⟩

/-- **The number of sessions decides the id.** -/
theorem open_id (hg : Init g) (ho : (mainLoop.run g is).Open) :
    (mainLoop.run g is).state.sessionId = drawnId g.rand (128 * (accepted g is - 1)) := by
  obtain ⟨hlast, hrand, hcount⟩ := run_draws is (g := g) fun h => absurd h hg.not_open
  obtain ⟨k, hk, hs⟩ := hlast ho
  rw [hcount, hg.drawn] at hk
  rw [hs, hrand, show k = 128 * (accepted g is - 1) by omega]

/-- A run without an accepted type 0 message issues nothing and opens nothing. -/
theorem issuedIds_of_accepted_zero (is : List Input) : ∀ {g : Daemon}, SessionInv g →
    accepted g is = 0 → issuedIds g is = [] := by
  induction is with
  | nil => exact fun _ _ => rfl
  | cons i is ih =>
    intro g hinv h0
    by_cases ha : Accept0 (i.message g) g
    · rw [accepted_cons_of ha] at h0
      exact absurd h0 (Nat.succ_ne_zero _)
    · rw [accepted_cons_of_not ha] at h0
      refine List.eq_nil_iff_forall_not_mem.mpr fun sid hs => ?_
      rcases issuedIds_cons.mp hs with h | h
      · rw [iteration_not_issued hinv ha] at h
        cases h
      · rw [ih (iteration_follows hinv i).inv h0] at h
        exact List.not_mem_nil h

theorem accepted_prefix {pre : List Input} : ∀ {is : List Input} {g : Daemon}, pre <+: is →
    accepted g pre ≤ accepted g is := by
  induction pre with
  | nil => exact fun _ => Nat.zero_le _
  | cons i pre ih =>
    rintro is g ⟨post, rfl⟩
    rw [List.cons_append, accepted, accepted]
    exact Nat.add_le_add_left (ih ⟨post, rfl⟩) _

theorem not_open_of_accepted_zero (is : List Input) : ∀ {g : Daemon}, ¬ g.Open →
    accepted g is = 0 → ¬ (mainLoop.run g is).Open := by
  induction is with
  | nil => exact fun h _ => h
  | cons i is ih =>
    intro g hn h0
    by_cases ha : Accept0 (i.message g) g
    · rw [accepted_cons_of ha] at h0
      exact absurd h0 (Nat.succ_ne_zero _)
    · rw [accepted_cons_of_not ha] at h0
      exact ih (fun ho => hn ((iteration_noDraw ha).opens ho)) h0

/-- The first accepted type 0 message: the id it issues, and the moment it is current. -/
theorem first_session (is : List Input) : ∀ {g : Daemon}, accepted g is ≠ 0 →
    ∃ pre, pre <+: is ∧ (mainLoop.run g pre).Open ∧
      (mainLoop.run g pre).state.sessionId = drawnId g.rand g.drawn ∧
      (mainLoop.run g pre).state.sid ∈ issuedIds g is := by
  induction is with
  | nil => exact fun h => absurd rfl h
  | cons i is ih =>
    intro g h
    by_cases ha : Accept0 (i.message g) g
    · have hd := iteration_drawn ha
      exact ⟨[i], ⟨is, rfl⟩, .inl hd.lastSent, hd.sessionId, issuedIds_cons.mpr (.inl hd.issued)⟩
    · have hn := iteration_noDraw ha
      rw [accepted_cons_of_not ha] at h
      obtain ⟨pre, ⟨post, hpost⟩, ho, hs, hmem⟩ := ih h
      rw [hn.rand, hn.drawn] at hs
      exact ⟨i :: pre, ⟨post, by rw [List.cons_append, hpost]⟩, ho, hs,
        issuedIds_cons.mpr (.inr hmem)⟩

/-- **Two processes share their session ids.** Where `rand` draws the same in both,
no id issued in one run is ever the current id of an open session of the other
exactly when one of the two runs accepts no type 0 message: the id of an open
session depends on how many have been accepted and on nothing else. -/
theorem foreign_ids_iff (hg : Init g) (hh : Init h) (hr : h.rand = g.rand) (is js : List Input) :
    ((∀ sid ∈ issuedIds g is, ∀ pre, pre <+: js → (mainLoop.run h pre).Open →
        (mainLoop.run h pre).state.sid ≠ sid) ↔ accepted g is = 0 ∨ accepted h js = 0) ∧
    ((mainLoop.run g is).Open → (mainLoop.run h js).Open → accepted g is = accepted h js →
      (mainLoop.run h js).state.sid = (mainLoop.run g is).state.sid) := by
  refine ⟨⟨fun hne => ?_, ?_⟩, fun hog hoh hn => ?_⟩
  · by_contra hc
    obtain ⟨hgn, hhn⟩ := not_or.mp hc
    obtain ⟨pre, -, -, hs, hmem⟩ := first_session is hgn
    obtain ⟨pre', hpre', ho', hs', -⟩ := first_session js hhn
    refine hne _ hmem pre' hpre' ho' (State.sid_congr ?_)
    rw [hs', hs, hr, hg.drawn, hh.drawn]
  · rintro (h0 | h0) sid hmem pre hpre ho
    · rw [issuedIds_of_accepted_zero is hg.sessionInv h0] at hmem
      exact absurd hmem List.not_mem_nil
    · have hpre0 := accepted_prefix (g := h) hpre
      exact absurd ho (not_open_of_accepted_zero pre hh.not_open (by omega))
  · refine State.sid_congr ?_
    rw [open_id hg hog, open_id hh hoh, hr, hn]

def bobGreeting : Input := recvOf (encode0 (chars "bob")) none

theorem bobGreeting_accept0 (hl : g.state.lastSent = 5 ∨ g.state.lastSent = 2) :
    Accept0 (bobGreeting.message g) g :=
  have hm : Introduces (bobGreeting.message g) (chars "bob") :=
    introduces_recv g.buffer bobGreeting.past (by decide) (by decide)
  ⟨hm.type, hl, hm.ver⟩

theorem greeting_accept0 (hl : g.state.lastSent = 5 ∨ g.state.lastSent = 2) :
    Accept0 (greeting.message g) g :=
  ⟨(greeting_introduces g).type, hl, (greeting_introduces g).ver⟩

/-- `alice` in one process learns nothing of another that nobody talks to, and the
id of `bob` where he is the first to come. -/
theorem foreign_ids_first :
    (∀ sid ∈ issuedIds zeroBoot [greeting], ∀ pre, pre <+: [] →
      (mainLoop.run zeroBoot pre).Open → (mainLoop.run zeroBoot pre).state.sid ≠ sid) ∧
    (mainLoop.run (zeroBootOver fun _ => 255) [bobGreeting]).state.sid =
      (mainLoop.run zeroBoot [greeting]).state.sid := by
  have hbob : Init (zeroBootOver fun _ => 255) := ⟨_, _, _, _, _, rfl⟩
  have ha := greeting_accept0 (g := zeroBoot) (.inl rfl)
  have hb := bobGreeting_accept0 (g := zeroBootOver fun _ => 255) (.inl rfl)
  refine ⟨(foreign_ids_iff zeroBoot_init zeroBoot_init rfl [greeting] []).1.mpr (.inr rfl),
    (foreign_ids_iff zeroBoot_init hbob rfl [greeting] [bobGreeting]).2
      (.inl (iteration_drawn ha).lastSent) (.inl (iteration_drawn hb).lastSent) ?_⟩
  rw [accepted_cons_of ha, accepted_cons_of hb, accepted, accepted]

/-- The id that one process gives `alice` is the id that the other gives `bob`. -/
theorem foreign_ids_shared : Init zeroBoot ∧ Init (zeroBootOver fun _ => 255) ∧
    ∃ sid ∈ issuedIds zeroBoot [greeting],
      (mainLoop.run (zeroBootOver fun _ => 255) [bobGreeting]).Open ∧
      (mainLoop.run (zeroBootOver fun _ => 255) [bobGreeting]).state.sid = sid := by
  refine ⟨zeroBoot_init, ⟨_, _, _, _, _, rfl⟩, ?_⟩
  have ha := iteration_drawn (greeting_accept0 (g := zeroBoot) (.inl rfl))
  have hb := iteration_drawn (bobGreeting_accept0 (g := zeroBootOver fun _ => 255) (.inl rfl))
  refine ⟨_, issuedIds_cons.mpr (.inl ha.issued), .inl hb.lastSent, State.sid_congr ?_⟩
  exact hb.sessionId.trans ha.sessionId.symm

end Getd
