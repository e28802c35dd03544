import Getd.Conversation

/-!
# The packets sent

`Daemon.sent` is every packet so far, oldest first, read off the trace. A
handled message adds what it answers (`handle_sent`), and the packets from the
last type 1 on carry the session id that `State` holds (`IssuedInv`). An id
left over from an earlier session is in none of them.
-/

namespace Getd

open CLib Protocol

variable {e : Env} {m : Mem} {g : Daemon}

def Event.packet? : Event → Option Packet
  | .send p => some p
  | _ => none

def Daemon.sent (g : Daemon) : List Packet := g.trace.filterMap Event.packet?

/-- `p` is the last type 1 packet sent, `since` what was sent after it. -/
structure Daemon.Issued (g : Daemon) (p : Packet) (since : List Packet) : Prop where
  sent : ∃ pre, g.sent = pre ++ p :: since
  type : p.type = 1
  last : ∀ q ∈ since, q.type ≠ 1

/-! ## What a step sends -/

theorem sent_append {g' : Daemon} {evs : List Event} (h : g'.trace = g.trace ++ evs) :
    g'.sent = g.sent ++ evs.filterMap Event.packet? := by
  unfold Daemon.sent
  rw [h, List.filterMap_append]

theorem sent_quiet {g' : Daemon} {ev : Event} (h : g'.trace = g.trace ++ [ev])
    (hq : ev.packet? = none) : g'.sent = g.sent := by
  rw [sent_append h, List.filterMap_cons_none hq]
  exact List.append_nil _

theorem fopen_sent (path : List UInt8) : (g.fopen e path).sent = g.sent := by
  cases hf : e.fopen path with
  | none => rw [fopen_none hf]; exact sent_quiet rfl rfl
  | some f => rw [fopen_some hf]; exact sent_quiet rfl rfl

theorem fstat_sent : g.fstat.sent = g.sent := sent_quiet rfl rfl

theorem feof_sent : g.feof.sent = g.sent := sent_quiet rfl rfl

theorem fclose_sent : g.fclose.sent = g.sent := sent_quiet rfl rfl

theorem fread_sent (k n : Nat) : (g.fread k n).sent = g.sent := sent_quiet rfl rfl

theorem getc_sent : g.getc.sent = g.sent := sent_quiet rfl rfl

theorem newSession_sent : (newSession m g).sent = g.sent := by
  simp only [newSession_eq, Daemon.sent]

theorem messegeType4Builder_sent : (messegeType4Builder e g).1.sent = g.sent := by
  have h : (messegeType4Builder e g).1.sent = (g.fread 145 4096).sent ∨
      (messegeType4Builder e g).1.sent = (g.fread 145 4096).getc.sent := by
    unfold messegeType4Builder
    dsimp only
    split
    · exact .inr rfl
    · exact .inl rfl
  rcases h with h | h <;> rw [h]
  · exact fread_sent _ _
  · exact getc_sent.trans (fread_sent _ _)

theorem messegeType5Builder_sent : (messegeType5Builder e g).1.sent = g.sent :=
  (fclose_sent : g.fclose.sent = g.sent)

/-- A step adds to `sent` the packet it answers with. -/
def Answers (g : Daemon) (r : Daemon × Option Packet) : Prop := r.1.sent = g.sent ++ r.2.toList

theorem answers_nnSend {r : Daemon × Nat} (h : r.1.sent = g.sent) : Answers g (nnSend r) := by
  have ht : (nnSend r).1.trace = r.1.trace ++ [.send ⟨r.1.outMessage, r.2⟩] := rfl
  exact (sent_append ht).trans (by rw [h]; rfl)

theorem answers_error {g1 : Daemon} {text : List UInt8} (h : g1.sent = g.sent) :
    Answers g (sendError g1 text) := by
  refine answers_nnSend ?_
  rw [messageType2Builder_eq]
  exact h

theorem handle_sent (e : Env) (m : Mem) (g : Daemon) : Answers g (handle e m g) := by
  have hexit := handle_exit e m g
  generalize handle e m g = r at hexit ⊢
  cases hexit with
  | busy0 | corrupt0 | corrupt3 | stranger3 | invalid3 | stranger6 | corrupt6 | invalid6 | other =>
    exact answers_error rfl
  | accept0 =>
    exact answers_nnSend (newSession_sent : (newSession m g).sent = g.sent)
  | noFile3 => exact answers_error (fopen_sent _)
  | irregular3 => exact answers_error (fopen_sent (e := e) (g := g) _ ▸ fstat_sent)
  | start3 => exact answers_nnSend (messegeType4Builder_sent.trans (fstat_sent.trans (fopen_sent _)))
  | finish6 => exact answers_nnSend (messegeType5Builder_sent.trans feof_sent)
  | more6 => exact answers_nnSend (messegeType4Builder_sent.trans feof_sent)
  | silent6 => exact (List.append_nil _).symm

/-! ## The session id of the packets -/

/-- The length field of a reply that carries a session id. -/
def Reply.sidLength? : Reply → Option Nat
  | type1 _ n _ | type4 _ n _ _ _ | type5 _ n _ => some n
  | type2 .. => none

def Packet.Carries (p : Packet) (sid : List UInt8) : Prop :=
  ∀ r, p.reply = some r → ∀ s, r.sessionId? = some s → s = sid ∧ r.sidLength? = some sid.length

/-- What a step does to the id last issued: it stays, or a new one is issued. -/
inductive Issues (g : Daemon) (r : Daemon × Option Packet) : Prop where
  | same (state : r.1.state.sessionId = g.state.sessionId)
      (packet : ∀ p ∈ r.2, p.type ≠ 1 ∧ p.Carries g.state.sid)
  | fresh (terminated : r.1.state.Terminated) (p : Packet) (packet : r.2 = some p)
      (reply : p.reply = some (.type1 MessageType1.size r.1.state.sid.length r.1.state.sid))

theorem issues_error {g1 : Daemon} {text : List UInt8}
    (hs : g1.state.sessionId = g.state.sessionId) (ht : text.length < 2 ^ 32) :
    Issues g (sendError g1 text) := by
  refine .same (by rw [sendError_state, hs]) fun p hp => ?_
  rw [sendError_packet] at hp
  cases hp
  have hr := reply_error g1 ht
  refine ⟨by rw [Packet.type_of_reply hr]; exact (by decide : (2 : UInt8) ≠ 1), ?_⟩
  intro r hr' s hs
  rw [hr] at hr'
  cases hr'
  cases hs

theorem issues_type4 {g1 : Daemon} (hs : g1.state.sessionId = g.state.sessionId)
    (ht : g1.state.Terminated) : Issues g (nnSend (messegeType4Builder e g1)) := by
  have hr := reply_type4 ht
  have hsid : g1.state.sid = g.state.sid := State.sid_congr hs
  rw [nnSend_type4 ht]
  refine .same hs fun p hp => ?_
  cases hp
  refine ⟨by rw [Packet.type_of_reply hr]; exact (by decide : (4 : UInt8) ≠ 1), ?_⟩
  intro r hr' s hs'
  rw [hr] at hr'
  cases hr'
  cases hs'
  exact ⟨hsid, congrArg (fun l : List UInt8 => some l.length) hsid⟩

theorem issues_type5 {g1 : Daemon} (hs : g1.state.sessionId = g.state.sessionId)
    (ht : g1.state.Terminated) : Issues g (nnSend (messegeType5Builder e g1)) := by
  have hr := reply_type5 ht
  have hsid : g1.state.sid = g.state.sid := State.sid_congr hs
  rw [nnSend_type5 ht]
  refine .same hs fun p hp => ?_
  cases hp
  refine ⟨by rw [Packet.type_of_reply hr]; exact (by decide : (5 : UInt8) ≠ 1), ?_⟩
  intro r hr' s hs'
  rw [hr] at hr'
  cases hr'
  cases hs'
  exact ⟨hsid, congrArg (fun l : List UInt8 => some l.length) hsid⟩

theorem handle_issues (hinv : SessionInv g) : Issues g (handle e m g) := by
  have hexit := handle_exit e m g
  have hopen : ∀ path, (g.fopen e path).state.sessionId = g.state.sessionId := fun path => by
    rw [fopen_state]
  generalize handle e m g = r at hexit ⊢
  cases hexit with
  | busy0 | corrupt0 | corrupt3 | stranger3 | invalid3 | stranger6 | corrupt6 | invalid6 =>
    exact issues_error rfl (by decide)
  | accept0 =>
    have ht := newSession_terminated m g
    rw [nnSend_type1 ht]
    exact .fresh ht _ rfl (reply_type1 ht)
  | noFile3 | irregular3 => exact issues_error (hopen _) (by decide)
  | start3 ha hl =>
    exact issues_type4 (hopen _) (hinv.starting hl _)
  | finish6 ha hl => exact issues_type5 rfl (hinv.sending hl)
  | more6 ha hl => exact issues_type4 rfl (hinv.sending hl)
  | silent6 => exact .same rfl fun p hp => by cases hp
  | other => exact issues_error rfl (Nat.lt_of_le_of_lt (invalidType_length_le _) (by decide))

/-! ## The invariant -/

/-- The packets from the last type 1 on carry the session id of `State`. -/
structure IssuedInv (g : Daemon) : Prop where
  session : SessionInv g
  terminated : ∀ {p since}, g.Issued p since → g.state.Terminated
  first : ∀ {p since}, g.Issued p since →
    p.reply = some (.type1 MessageType1.size g.state.sid.length g.state.sid)
  carries : ∀ {p since}, g.Issued p since → ∀ q ∈ p :: since, q.Carries g.state.sid

theorem Daemon.Issued.snoc {g' : Daemon} {p q : Packet} {since : List Packet}
    (h : g'.Issued p since) (hs : g'.sent = g.sent ++ [q]) :
    (p = q ∧ since = []) ∨ q.type ≠ 1 ∧ ∃ since', since = since' ++ [q] ∧ g.Issued p since' := by
  obtain ⟨⟨pre, hpre⟩, ht, hl⟩ := h
  rw [hs] at hpre
  rcases since.eq_nil_or_concat with rfl | ⟨since', a, rfl⟩
  · have := List.append_inj' hpre rfl
    cases this.2
    exact .inl ⟨rfl, rfl⟩
  · rw [List.concat_eq_append, ← List.cons_append, ← List.append_assoc] at hpre
    have := List.append_inj' hpre rfl
    cases this.2
    refine .inr ⟨hl q (by simp), since', List.concat_eq_append, ⟨pre, this.1⟩, ht, ?_⟩
    exact fun b hb => hl b (by simp [hb])

theorem Daemon.Issued.congr {g' : Daemon} {p : Packet} {since : List Packet}
    (h : g'.Issued p since) (hs : g'.sent = g.sent) : g.Issued p since :=
  ⟨hs ▸ h.sent, h.type, h.last⟩

theorem Packet.carries_type1 {p : Packet} {n : Nat} {sid : List UInt8}
    (h : p.reply = some (.type1 n sid.length sid)) : p.Carries sid := by
  intro r hr s hs
  rw [h] at hr
  cases hr
  cases hs
  exact ⟨rfl, rfl⟩

theorem handle_issuedInv (hinv : IssuedInv g) : IssuedInv (handle e m g).1 := by
  have hsent := handle_sent e m g
  have hsess := (handle_follows (e := e) (m := m) hinv.session).inv
  have hiss := handle_issues (e := e) (m := m) hinv.session
  generalize handle e m g = r at hsent hsess hiss ⊢
  obtain ⟨g', o⟩ := r
  cases hiss with
  | same hid hp =>
    have hsid : g'.state.sid = g.state.sid := State.sid_congr hid
    -- the last type 1 of `g'` is the one of `g`
    have hback : ∀ {p since}, g'.Issued p since → ∃ since', g.Issued p since' ∧
        ∀ q ∈ since, q ∈ since' ∨ q ∈ o := by
      intro p since h
      cases o with
      | none => exact ⟨since, h.congr (hsent.trans (List.append_nil _)), fun q hq => .inl hq⟩
      | some q =>
        rcases h.snoc hsent with ⟨rfl, -⟩ | ⟨-, since', rfl, h'⟩
        · exact absurd h.type (hp p rfl).1
        · refine ⟨since', h', fun b hb => ?_⟩
          rcases List.mem_append.mp hb with hb | hb
          · exact .inl hb
          · exact .inr (by rw [List.mem_singleton.mp hb]; rfl)
    refine ⟨hsess, fun h => ?_, fun h => ?_, fun h q hq => ?_⟩
    · obtain ⟨_, h', -⟩ := hback h
      exact (hinv.terminated h').congr hid
    · obtain ⟨_, h', -⟩ := hback h
      rw [hsid]
      exact hinv.first h'
    · obtain ⟨since', h', hmem⟩ := hback h
      rw [hsid]
      rcases List.mem_cons.mp hq with rfl | hq
      · exact hinv.carries h' _ List.mem_cons_self
      · rcases hmem q hq with hq | hq
        · exact hinv.carries h' q (List.mem_cons_of_mem _ hq)
        · exact (hp q hq).2
  | fresh ht p hp hr =>
    subst hp
    have htype : p.type = 1 := Packet.type_of_reply hr
    -- the new packet is the last type 1
    have hlast : ∀ {q since}, g'.Issued q since → q = p ∧ since = [] := by
      intro q since h
      rcases h.snoc hsent with h | ⟨hn, -⟩
      · exact h
      · exact absurd htype hn
    refine ⟨hsess, fun _ => ht, fun h => ?_, fun h q hq => ?_⟩
    · rw [(hlast h).1]
      exact hr
    · obtain ⟨rfl, rfl⟩ := hlast h
      rw [List.mem_singleton.mp hq]
      exact Packet.carries_type1 hr

theorem Init.issuedInv (h : Init g) : IssuedInv g := by
  have hsess := h.sessionInv
  obtain ⟨sid, user, out, buf, rand, rfl⟩ := h
  have hnone : ∀ {p since}, ¬ (boot sid user out buf rand).Issued p since := by
    rintro p since ⟨⟨pre, hpre⟩, -, -⟩
    exact absurd hpre.symm (by simp [Daemon.sent, boot])
  exact ⟨hsess, fun h => (hnone h).elim, fun h => (hnone h).elim, fun h => (hnone h).elim⟩

theorem Reachable.issuedInv (h : Reachable g) : IssuedInv g := by
  refine Mealy.Reach.invariant (I := IssuedInv) (fun _ h => h.issuedInv) (fun g i hi => ?_) h
  refine handle_issuedInv (g := { g with buffer := nnRecv g.buffer i.recv }) ?_
  exact ⟨hi.session.setBuffer _, fun h => hi.terminated (h.congr rfl),
    fun h => hi.first (h.congr rfl), fun h => hi.carries (h.congr rfl)⟩

theorem exists_issued (h : ∃ p ∈ g.sent, p.type = 1) : ∃ p since, g.Issued p since := by
  suffices hl : ∀ l : List Packet, (∃ p ∈ l, p.type = 1) → ∃ pre p since,
      l = pre ++ p :: since ∧ p.type = 1 ∧ ∀ q ∈ since, q.type ≠ 1 by
    obtain ⟨pre, p, since, hl, ht, hq⟩ := hl g.sent h
    exact ⟨p, since, ⟨pre, hl⟩, ht, hq⟩
  intro l hl
  induction l with
  | nil => simp at hl
  | cons a l ih =>
    by_cases hex : ∃ p ∈ l, p.type = 1
    · obtain ⟨pre, p, since, rfl, ht, hq⟩ := ih hex
      exact ⟨a :: pre, p, since, rfl, ht, hq⟩
    · obtain ⟨p, hp, ht⟩ := hl
      rcases List.mem_cons.mp hp with rfl | hp
      · exact ⟨[], p, l, rfl, ht, fun q hq h1 => hex ⟨q, hq, h1⟩⟩
      · exact absurd ⟨p, hp, ht⟩ hex

end Getd
