import Getd.Authentication
import Getd.Refusal
import Getd.UserName

/-!
# What a round reads

`main` does not look at what `nn_recv` returns, so a short datagram is judged
together with what an earlier message left in the receive buffer, and a failed
`nn_recv` hands the last message to the handlers again. `Complete` lists the
bytes that must have arrived for the rest of the buffer not to matter, and
`own_bytes_iff` says that it does matter otherwise.
-/

namespace Getd

open CLib Protocol

variable {e : Env} {m m' : Mem} {g : Daemon}

/-! ## The statement -/

/-- Two rounds with the same reply fields, the same `State` after them and the
same streams. -/
structure SameRound (r s : Daemon × Option Packet) : Prop where
  reply : replyOf s = replyOf r
  state : s.1.state = r.1.state
  sendFile : s.1.sendFile = r.1.sendFile
  streams : s.1.streams = r.1.streams

/-- A datagram is judged by its own bytes, whatever the buffer held before. A
failed `nn_recv` is no message. -/
def OwnBytes (g : Daemon) (i : Input) : Prop :=
  match i.recv with
  | some _ => ∀ b b' : Mem, SameRound (iteration { g with buffer := b } i)
      (iteration { g with buffer := b' } i)
  | none => (iteration g i).2 = none ∧ (iteration g i).1.state = g.state ∧
      (iteration g i).1.sendFile = g.sendFile

/-- The message a round finds when the datagram `d` arrives over `buffer`. -/
def arrive (d : List UInt8) (past buffer : Mem) : Mem := view (nnRecv buffer (some d)) past

/-- Of a type 0 message whose first `n` bytes have arrived, all that `strcpy`
takes into `State` has: the NUL behind the name, or as many bytes as `State`
holds from `userName` on. -/
def NameArrived (m : Mem) (n : Nat) : Prop :=
  (∃ k, MessageType0.dnLength m ≤ k ∧ 12 + k < n ∧ MessageType0.distinguishedName m k = 0) ∨
    47 ≤ n

/-- When the buffer does not matter. For a datagram: no contents of the buffer
make it pass the first check of its type, or all that is read has arrived. For
a failed `nn_recv`: the buffer holds an acknowledgement of the session that has
just finished, which is not answered. -/
def Complete (g : Daemon) (i : Input) : Prop :=
  match i.recv with
  | some d =>
    let n := min d.length 4000
    0 < n ∧
    (Header.messageType (memOf d) = 0 →
      (g.state.lastSent ≠ 5 ∧ g.state.lastSent ≠ 2) ∨
      (∀ b, type0Ver (arrive d i.past b) ≠ 0) ∨ NameArrived (memOf d) n) ∧
    (Header.messageType (memOf d) = 3 →
      (∀ b, type3Ver (arrive d i.past b) ≠ 0) ∨ 4000 ≤ d.length ∨
      145 + MessageType3.pathLength (memOf d) < n) ∧
    (Header.messageType (memOf d) = 6 →
      (∀ b, strcmp (MessageType6.sessionId (arrive d i.past b)) (g.sessionId i.env) ≠ 0) ∨
      4000 ≤ d.length ∨ 12 + strlen (g.sessionId i.env) < n)
  | none => Auth6 i.env (view g.buffer i.past) g ∧ g.state.lastSent = 5

/-! ## The message and the buffer -/

section Arrive

variable {d : List UInt8} {past b b' : Mem} {k : Nat}

theorem arrive_own (h : k < min d.length 4000) : arrive d past b k = memOf d k :=
  (if_pos (by omega)).trans (if_pos h)

theorem arrive_same (h : k < min d.length 4000 ∨ 4000 ≤ k) :
    arrive d past b k = arrive d past b' k := by
  rcases h with h | h
  · rw [arrive_own h, arrive_own h]
  · unfold arrive view
    rw [if_neg (Nat.not_lt.mpr h), if_neg (Nat.not_lt.mpr h)]

theorem arrive_full (h : 4000 ≤ d.length) : arrive d past b = arrive d past b' := by
  funext k
  exact arrive_same (by omega)

/-- What has not arrived is what the buffer held. -/
theorem arrive_set (h : min d.length 4000 ≤ k) (hk : k < 4000) (x : UInt8) :
    arrive d past (b.set k x) = (arrive d past b).set k x := by
  funext j
  by_cases hj : j = k
  · subst hj
    rw [Mem.set_self]
    exact (if_pos hk).trans ((if_neg (Nat.not_lt.mpr h)).trans (Mem.set_self b j x))
  · rw [Mem.set_other _ _ hj]
    simp only [arrive, view, nnRecv, Mem.set_other b x hj]

theorem u32_arrive (h : k + 4 ≤ min d.length 4000) : (arrive d past b).u32 k = (memOf d).u32 k :=
  Mem.u32_congr fun _ _ => arrive_own (by omega)

end Arrive

/-! ## When the handlers agree -/

theorem handle_same0 (ht : Header.messageType m = 0) (ht' : Header.messageType m' = 0)
    (hv : type0Ver m ≠ 0 ↔ type0Ver m' ≠ 0)
    (hn : type0Ver m = 0 → AgreeTo (MessageType0.distinguishedName m)
      (MessageType0.distinguishedName m') 35) : handle e m g = handle e m' g := by
  rw [handle_type0 ht, handle_type0 ht']
  unfold messageType0Handler
  by_cases h : type0Ver m = 0
  · have h' : type0Ver m' = 0 := not_not.mp fun hc => hv.mpr hc h
    have hname := copyName_congr g.state (hn h)
    have hsess : newSession m g = newSession m' g := by unfold newSession; rw [hname]
    simp only [h, h', hsess]
  · simp only [if_pos h, if_pos (hv.mp h)]

theorem handle_same3 (ht : Header.messageType m = 3) (ht' : Header.messageType m' = 3)
    (hv : type3Ver m ≠ 0 ↔ type3Ver m' ≠ 0)
    (hs : type3Ver m = 0 → ∀ i < 128, MessageType3.sessionId m i = MessageType3.sessionId m' i)
    (hp : type3Ver m = 0 → pathOf m = pathOf m') : handle e m g = handle e m' g := by
  rw [handle_type3 ht, handle_type3 ht']
  unfold messageType3Handler
  by_cases h : type3Ver m = 0
  · have h' : type3Ver m' = 0 := not_not.mp fun hc => hv.mpr hc h
    simp only [h, h', strncmp_congr (hs h) (fun _ _ => rfl), hp h]
  · simp only [if_pos h, if_pos (hv.mp h)]

theorem handle_same6 (ht : Header.messageType m = 6) (ht' : Header.messageType m' = 6)
    (hs : strcmp (MessageType6.sessionId m) (g.sessionId e) ≠ 0 ↔
      strcmp (MessageType6.sessionId m') (g.sessionId e) ≠ 0)
    (hv : strcmp (MessageType6.sessionId m) (g.sessionId e) = 0 →
      ∀ s, type6Ver m s = 0 ↔ type6Ver m' s = 0) : handle e m g = handle e m' g := by
  rw [handle_type6 ht, handle_type6 ht']
  have hh : messageType6Handler e m g = messageType6Handler e m' g := by
    unfold messageType6Handler
    by_cases h : strcmp (MessageType6.sessionId m) (g.sessionId e) = 0
    · have h' : strcmp (MessageType6.sessionId m') (g.sessionId e) = 0 :=
        not_not.mp fun hc => hs.mpr hc h
      have hver : ∀ s, (type6Ver m s ≠ 0) = (type6Ver m' s ≠ 0) := fun s =>
        propext (not_congr (hv h s))
      simp only [h, h', hver]
    · simp only [if_pos h, if_pos (hs.mp h)]
  rw [hh]

theorem type6Ver_congr {w : List UInt8} (hs : Spells (MessageType6.sessionId m) w)
    (hs' : Spells (MessageType6.sessionId m') w)
    (hn : MessageType6.sidLength m = MessageType6.sidLength m')
    (hm : Header.messageLength m = Header.messageLength m') (s : Mem) :
    type6Ver m s = 0 ↔ type6Ver m' s = 0 := by
  have hcmp : ∀ n ≤ w.length, strncmp s (MessageType6.sessionId m) n =
      strncmp s (MessageType6.sessionId m') n := fun n hle =>
    strncmp_congr (fun _ _ => rfl) fun i hi => by rw [hs.get (by omega), hs'.get (by omega)]
  rw [type6Ver_eq_zero_iff, type6Ver_eq_zero_iff, hn, hm]
  constructor
  · rintro ⟨⟨t, ht, hle, hlen⟩, h, hsize⟩
    rw [ht.unique hs] at hle hlen
    exact ⟨⟨w, hs', hle, hlen⟩, by rw [hlen, ← hcmp _ (Nat.le_refl _), ← hlen]; exact h, hsize⟩
  · rintro ⟨⟨t, ht, hle, hlen⟩, h, hsize⟩
    rw [ht.unique hs'] at hle hlen
    exact ⟨⟨w, hs, hle, hlen⟩, by rw [hlen, hcmp _ (Nat.le_refl _), ← hlen]; exact h, hsize⟩

/-! ## All that is read has arrived -/

section Arrived

variable {d : List UInt8} {past b b' : Mem}

theorem accept0_arrive (hn : NameArrived (memOf d) (min d.length 4000))
    (hv : type0Ver (arrive d past b) = 0) :
    type0Ver (arrive d past b') = 0 ∧
      AgreeTo (MessageType0.distinguishedName (arrive d past b))
        (MessageType0.distinguishedName (arrive d past b')) 35 := by
  obtain ⟨hlen, hsize⟩ := (type0Ver_eq_zero_iff _).mp hv
  have h12 : 12 ≤ min d.length 4000 := by
    rcases hn with ⟨k, -, hk, -⟩ | hn <;> omega
  have hdn : ∀ b, MessageType0.dnLength (arrive d past b) = MessageType0.dnLength (memOf d) :=
    fun b => u32_arrive (by omega)
  have hml : ∀ b, Header.messageLength (arrive d past b) = Header.messageLength (memOf d) :=
    fun b => u32_arrive (by omega)
  rw [hdn] at hlen
  have hle := strnlen_le (MessageType0.distinguishedName (arrive d past b)) 32
  have harrived : 12 + MessageType0.dnLength (memOf d) < min d.length 4000 := by
    rcases hn with ⟨k, hk, hlt, -⟩ | hn <;> omega
  have hlen' : strnlen (MessageType0.distinguishedName (arrive d past b')) 32 =
      MessageType0.dnLength (memOf d) := by
    rw [← hlen]
    exact strnlen_agree fun i hi => arrive_same (by omega)
  refine ⟨(type0Ver_eq_zero_iff _).mpr ⟨by rw [hlen', hdn], by rw [hml, ← hml b, hsize]⟩, ?_⟩
  rcases hn with ⟨k, hk, hlt, hz⟩ | hn
  · rcases Nat.lt_or_ge k 35 with h35 | h35
    · refine .inl ⟨k, h35, fun i hi => arrive_same (by omega), ?_⟩
      exact (arrive_own (by omega)).trans hz
    · exact .inr fun i hi => arrive_same (by omega)
  · exact .inr fun i hi => arrive_same (by omega)

theorem accept3_arrive (hn : 145 + MessageType3.pathLength (memOf d) < min d.length 4000)
    (hv : type3Ver (arrive d past b) = 0) :
    type3Ver (arrive d past b') = 0 ∧
      (∀ i < 128, MessageType3.sessionId (arrive d past b) i =
        MessageType3.sessionId (arrive d past b') i) ∧
      pathOf (arrive d past b) = pathOf (arrive d past b') := by
  obtain ⟨hsize, hsid, hpath⟩ := (type3Ver_eq_zero_iff _).mp hv
  have hpl : ∀ b, MessageType3.pathLength (arrive d past b) = MessageType3.pathLength (memOf d) :=
    fun b => u32_arrive (by omega)
  have hsl : ∀ b, MessageType3.sidLength (arrive d past b) = MessageType3.sidLength (memOf d) :=
    fun b => u32_arrive (by omega)
  have hml : ∀ b, Header.messageLength (arrive d past b) = Header.messageLength (memOf d) :=
    fun b => u32_arrive (by omega)
  have hid : ∀ i < 128, MessageType3.sessionId (arrive d past b) i =
      MessageType3.sessionId (arrive d past b') i := fun i hi => arrive_same (by omega)
  rw [hpl] at hpath
  have hspell := spells_of_strnlen_lt (m := MessageType3.pathName (arrive d past b)) (n := 4096)
    (by omega)
  rw [hpath] at hspell
  have hspell' : Spells (MessageType3.pathName (arrive d past b')) _ :=
    hspell.congr fun i hi => by
      rw [Mem.bytes_length] at hi
      exact arrive_same (by omega)
  refine ⟨(type3Ver_eq_zero_iff _).mpr ⟨?_, ?_, ?_⟩, hid, ?_⟩
  · rw [hml, ← hml b, hsize]
  · rw [← strnlen_congr hid, hsid, hsl, hsl]
  · rw [hspell'.strnlen, Mem.bytes_length, hpl]
    omega
  · have hle : (Mem.bytes (MessageType3.pathName (arrive d past b)) 0
        (MessageType3.pathLength (memOf d))).length ≤ addrSpace := by
      rw [Mem.bytes_length]
      have : 4000 ≤ addrSpace := by decide
      omega
    exact (hspell.cstr hle).trans (hspell'.cstr hle).symm

theorem accept6_arrive {s : Mem} (hn : 12 + strlen s < min d.length 4000)
    (hs : strcmp (MessageType6.sessionId (arrive d past b)) s = 0) :
    strcmp (MessageType6.sessionId (arrive d past b')) s = 0 ∧
      ∀ t, type6Ver (arrive d past b) t = 0 ↔ type6Ver (arrive d past b') t = 0 := by
  have h4000 : 4000 < addrSpace := by decide
  have hspell : Spells s (s.bytes 0 (strlen s)) :=
    spells_of_strnlen_lt (by rw [← strlen]; omega)
  have hlt : (s.bytes 0 (strlen s)).length < addrSpace := by rw [Mem.bytes_length]; omega
  have hfield := (strcmp_eq_zero_iff hspell hlt).mp hs
  have hfield' : Spells (MessageType6.sessionId (arrive d past b')) _ :=
    hfield.congr fun i hi => by
      rw [Mem.bytes_length] at hi
      exact arrive_same (by omega)
  refine ⟨(strcmp_eq_zero_iff hspell hlt).mpr hfield', fun t =>
    type6Ver_congr hfield hfield' ?_ ?_ t⟩
  · exact (u32_arrive (by omega)).trans (u32_arrive (by omega)).symm
  · exact (u32_arrive (by omega)).trans (u32_arrive (by omega)).symm

end Arrived

/-! ## When the handlers differ -/

theorem corrupt0_differs (ht : Header.messageType m = 0) (ht' : Header.messageType m' = 0)
    (hl : g.state.lastSent = 5 ∨ g.state.lastSent = 2) (hv : type0Ver m = 0)
    (hv' : type0Ver m' ≠ 0) : ¬ SameRound (handle e m g) (handle e m' g) := by
  intro h
  have hs := congrArg State.lastSent h.state
  rw [(Exit.accept0 ht hl hv).handle_eq, (Exit.corrupt0 ht' hl hv').handle_eq, sendError_state,
    nnSend_type1 (newSession_terminated m g)] at hs
  exact absurd hs (by decide : (2 : UInt8) ≠ 1)

/-- A name that overruns its array replaces `lastRecieved`. -/
theorem accept0_lastRecieved (ht : Header.messageType m = 0)
    (hl : g.state.lastSent = 5 ∨ g.state.lastSent = 2) (hv : type0Ver m = 0)
    (hn : ∀ i < 34, MessageType0.distinguishedName m i ≠ 0) :
    (handle e m g).1.state.lastRecieved = MessageType0.distinguishedName m 34 := by
  have hle : 34 ≤ strlen (MessageType0.distinguishedName m) :=
    le_strnlen_iff.mpr ⟨by decide, hn⟩
  rw [(Exit.accept0 ht hl hv).handle_eq, nnSend_type1 (newSession_terminated m g), newSession_eq]
  exact (cstr_getD (by decide)).trans (if_pos hle)

/-- A corrupt type 3 message has a reply of its own. -/
theorem corrupt3_differs (hinv : SessionInv g) (ht : Header.messageType m = 3)
    (ht' : Header.messageType m' = 3) (hv : type3Ver m = 0) (hv' : type3Ver m' ≠ 0) :
    ¬ SameRound (handle e m g) (handle e m' g) := by
  intro h
  have hr := congrArg errorText h.reply
  rw [(Exit.corrupt3 ht' hv').handle_eq, errorText_error _ (by decide)] at hr
  have herr : ∀ (g : Daemon) (text : List UInt8), text.length < 2 ^ 32 →
      text ≠ chars "Corrupt Type 3 Message" →
      some (chars "Corrupt Type 3 Message") ≠ errorText (replyOf (sendError g text)) :=
    fun g text hlen hne heq => hne (Option.some.inj (heq.trans (errorText_error g hlen))).symm
  have hexit := handle_exit e m g
  have htype : ∀ {t : UInt8}, Header.messageType m = t → t ≠ 3 → False := fun h hne =>
    hne (h.symm.trans ht)
  generalize handle e m g = r at hexit hr
  cases hexit with
  | busy0 h | corrupt0 h | accept0 h | stranger6 h | corrupt6 h => exact htype h (by decide)
  | finish6 ha | more6 ha | invalid6 ha | silent6 ha => exact htype ha.type (by decide)
  | other h => exact h.2.1 ht
  | corrupt3 _ h => exact h hv
  | stranger3 | invalid3 | noFile3 | irregular3 => exact herr _ _ (by decide) (by decide) hr
  | start3 ha hl =>
    rw [replyOf_type4 (hinv.starting hl _)] at hr
    exact absurd hr (Option.some_ne_none _)

theorem stranger6_differs (hinv : SessionInv g) (ht : Header.messageType m = 6)
    (ht' : Header.messageType m' = 6)
    (hs : strcmp (MessageType6.sessionId m) (g.sessionId e) = 0)
    (hs' : strcmp (MessageType6.sessionId m') (g.sessionId e) ≠ 0) :
    ¬ SameRound (handle e m g) (handle e m' g) := by
  intro h
  have hr := congrArg errorText h.reply
  rw [(Exit.stranger6 ht' hs').handle_eq, errorText_error _ (by decide)] at hr
  have herr : ∀ (g : Daemon) (text : List UInt8), text.length < 2 ^ 32 →
      text ≠ chars "One session at a time" →
      some (chars "One session at a time") ≠ errorText (replyOf (sendError g text)) :=
    fun g text hlen hne heq => hne (Option.some.inj (heq.trans (errorText_error g hlen))).symm
  have hexit := handle_exit e m g
  have htype : ∀ {t : UInt8}, Header.messageType m = t → t ≠ 6 → False := fun h hne =>
    hne (h.symm.trans ht)
  generalize handle e m g = r at hexit hr
  cases hexit with
  | busy0 h | corrupt0 h | accept0 h | corrupt3 h | stranger3 h => exact htype h (by decide)
  | invalid3 ha | noFile3 ha | irregular3 ha | start3 ha => exact htype ha.type (by decide)
  | other h => exact h.2.2 ht
  | stranger6 _ h => exact h hs
  | corrupt6 | invalid6 => exact herr _ _ (by decide) (by decide) hr
  | finish6 ha hl =>
    rw [replyOf_type5 (hinv.sending hl)] at hr
    exact absurd hr (Option.some_ne_none _)
  | more6 ha hl =>
    rw [replyOf_type4 (hinv.sending hl)] at hr
    exact absurd hr (Option.some_ne_none _)
  | silent6 => exact absurd hr (Option.some_ne_none _)

/-! ## A byte that is read has not arrived -/

section Missing

variable {d : List UInt8} {past b : Mem} {k : Nat}

theorem arrive_rest (h : min d.length 4000 ≤ k) (hk : k < 4000) : arrive d past b k = b k :=
  (if_pos hk).trans (if_neg (Nat.not_lt.mpr h))

/-- A length whose top byte has not arrived can be too large for any field. -/
theorem le_u32_arrive (h : min d.length 4000 ≤ k + 3) (hk : k + 3 < 4000) :
    16777216 * 255 ≤ (arrive d past (b.set (k + 3) 255)).u32 k := by
  have hbyte : arrive d past (b.set (k + 3) 255) (k + 3) = 255 :=
    (arrive_rest h hk).trans (Mem.set_self _ _ _)
  have htop := Mem.le_u32_top (arrive d past (b.set (k + 3) 255)) k
  rwa [hbyte] at htop

theorem accepted_name (hv : type0Ver (arrive d past b) = 0) (h12 : 12 ≤ min d.length 4000) :
    strnlen (MessageType0.distinguishedName (arrive d past b)) 32 =
      MessageType0.dnLength (memOf d) :=
  ((type0Ver_eq_zero_iff _).mp hv).1.trans (u32_arrive (by omega))

/-- An accepted name of fewer than 32 bytes has arrived with the byte behind it. -/
theorem accepted_arrived (hv : type0Ver (arrive d past b) = 0)
    (h32 : MessageType0.dnLength (memOf d) < 32)
    (hlt : 12 + MessageType0.dnLength (memOf d) < min d.length 4000) :
    NameArrived (memOf d) (min d.length 4000) := by
  have hname := accepted_name hv (by omega)
  have hnul := strnlen_nul (m := MessageType0.distinguishedName (arrive d past b)) (n := 32)
    (by omega)
  rw [hname] at hnul
  exact .inl ⟨_, Nat.le_refl _, hlt, (arrive_own hlt).symm.trans hnul⟩

section Type0

variable (hl : g.state.lastSent = 5 ∨ g.state.lastSent = 2)
  (htype : ∀ b, Header.messageType (arrive d past b) = 0) (hv : type0Ver (arrive d past b) = 0)
include hl htype hv

/-- The length of the name: it can be too large. -/
theorem missing0_length (h12 : min d.length 4000 < 12) :
    ∃ b', ¬ SameRound (handle e (arrive d past b) g) (handle e (arrive d past b') g) := by
  refine ⟨b.set 11 255, corrupt0_differs (htype b) (htype _) hl hv fun hv' => ?_⟩
  obtain ⟨hlen, -⟩ := (type0Ver_eq_zero_iff _).mp hv'
  have hle := strnlen_le (MessageType0.distinguishedName (arrive d past (b.set 11 255))) 32
  have htop : 16777216 * 255 ≤ MessageType0.dnLength (arrive d past (b.set 11 255)) :=
    le_u32_arrive (by omega) (by decide)
  omega

/-- A byte of the name, or the NUL behind it. -/
theorem missing0_name (h12 : 12 ≤ min d.length 4000) (h44 : min d.length 4000 < 44)
    (hn : ¬ NameArrived (memOf d) (min d.length 4000)) :
    ∃ b', ¬ SameRound (handle e (arrive d past b) g) (handle e (arrive d past b') g) := by
  have hname := accepted_name hv h12
  obtain ⟨k, hk⟩ := Nat.exists_eq_add_of_le h12
  have hkn : k ≤ MessageType0.dnLength (memOf d) :=
    Nat.le_of_not_lt fun hlt => hn (accepted_arrived hv (by omega) (by omega))
  obtain ⟨x, hx⟩ := exists_strnlen_ne (m := MessageType0.distinguishedName (arrive d past b))
    (n := 32) (k := k) (by omega) (by omega)
  refine ⟨b.set (12 + k) x, corrupt0_differs (htype b) (htype _) hl hv fun hv' => ?_⟩
  have hname' := accepted_name hv' h12
  rw [MessageType0.distinguishedName, arrive_set (by omega) (by omega), Mem.set_off] at hname'
  exact hx (hname'.trans hname.symm)

/-- The bytes behind a name of 32: they can overrun `userName` and `lastSent`. -/
theorem missing0_overrun (h44 : 44 ≤ min d.length 4000)
    (hn : ¬ NameArrived (memOf d) (min d.length 4000)) :
    ∃ b', ¬ SameRound (handle e (arrive d past b) g) (handle e (arrive d past b') g) := by
  obtain ⟨hbehind, h47⟩ := not_or.mp hn
  have hname := accepted_name hv (by omega)
  have hle := strnlen_le (MessageType0.distinguishedName (arrive d past b)) 32
  have h32 : MessageType0.dnLength (memOf d) = 32 := Nat.le_antisymm (by omega)
    (Nat.le_of_not_lt fun hlt => hn (accepted_arrived hv hlt (by omega)))
  obtain ⟨x, hx⟩ : ∃ x, (handle e (arrive d past b) g).1.state.lastRecieved ≠ x :=
    ⟨(handle e (arrive d past b) g).1.state.lastRecieved + 1, fun h => by simp at h⟩
  obtain ⟨b', hb'⟩ : ∃ b', b' = ((b.set 44 1).set 45 1).set 46 x := ⟨_, rfl⟩
  have hrest : ∀ i, min d.length 4000 ≤ 12 + i → i < 4000 - 12 →
      MessageType0.distinguishedName (arrive d past b') i = b' (12 + i) := fun i hi h =>
    arrive_rest hi (by omega)
  have hname' : strnlen (MessageType0.distinguishedName (arrive d past b')) 32 =
      MessageType0.dnLength (memOf d) :=
    (strnlen_congr fun i hi => arrive_same (.inl (by omega))).trans hname
  have hv' : type0Ver (arrive d past b') = 0 := by
    obtain ⟨-, hsize⟩ := (type0Ver_eq_zero_iff _).mp hv
    refine (type0Ver_eq_zero_iff _).mpr ⟨hname'.trans (u32_arrive (by omega)).symm, ?_⟩
    exact (u32_arrive (by omega)).trans ((u32_arrive (by omega)).symm.trans hsize)
  have hlong : ∀ i < 34, MessageType0.distinguishedName (arrive d past b') i ≠ 0 := by
    intro i hi hz
    rcases Nat.lt_or_ge i 32 with hi32 | hi32
    · exact strnlen_ne_nul (by rw [hname', h32]; exact hi32) hz
    rcases Nat.lt_or_ge (12 + i) (min d.length 4000) with hin | hin
    · exact hbehind ⟨i, by omega, hin, (arrive_own hin).symm.trans hz⟩
    have hone : b' (12 + i) = 1 := by
      rw [hb', Mem.set_other _ _ (by omega)]
      rcases (by omega : i = 32 ∨ i = 33) with rfl | rfl
      · rw [Mem.set_other _ _ (by decide), Mem.set_self]
      · exact Mem.set_self _ _ _
    rw [hrest i hin (by omega), hone] at hz
    exact absurd hz (by decide)
  refine ⟨b', fun h => hx ?_⟩
  have hlast := accept0_lastRecieved (e := e) (htype b') hl hv' hlong
  have h46 : b' (12 + 34) = x := by
    rw [hb']
    exact Mem.set_self _ _ _
  rw [← congrArg State.lastRecieved h.state, hlast, hrest 34 (by omega) (by decide), h46]

end Type0

theorem missing0 (hl : g.state.lastSent = 5 ∨ g.state.lastSent = 2) (h0 : 0 < min d.length 4000)
    (ht : Header.messageType (memOf d) = 0) (hn : ¬ NameArrived (memOf d) (min d.length 4000))
    (hv : type0Ver (arrive d past b) = 0) :
    ∃ b', ¬ SameRound (handle e (arrive d past b) g) (handle e (arrive d past b') g) := by
  have htype : ∀ b, Header.messageType (arrive d past b) = 0 := fun b => (arrive_own h0).trans ht
  rcases Nat.lt_or_ge (min d.length 4000) 12 with h12 | h12
  · exact missing0_length hl htype hv h12
  rcases Nat.lt_or_ge (min d.length 4000) 44 with h44 | h44
  · exact missing0_name hl htype hv h12 h44 hn
  · exact missing0_overrun hl htype hv h44 hn

theorem missing3 (hinv : SessionInv g) (h0 : 0 < min d.length 4000)
    (ht : Header.messageType (memOf d) = 3) (hd : d.length < 4000)
    (hn : min d.length 4000 ≤ 145 + MessageType3.pathLength (memOf d))
    (hv : type3Ver (arrive d past b) = 0) :
    ∃ b', ¬ SameRound (handle e (arrive d past b) g) (handle e (arrive d past b') g) := by
  have htype : ∀ b, Header.messageType (arrive d past b) = 3 := fun b => (arrive_own h0).trans ht
  obtain ⟨-, -, hlen⟩ := (type3Ver_eq_zero_iff _).mp hv
  rcases Nat.lt_or_ge (min d.length 4000) 16 with h16 | h16
  · -- the path length has not: it can be too large
    refine ⟨b.set 15 255, corrupt3_differs hinv (htype b) (htype _) hv fun hv' => ?_⟩
    obtain ⟨-, -, hlen'⟩ := (type3Ver_eq_zero_iff _).mp hv'
    have hle := strnlen_le (MessageType3.pathName (arrive d past (b.set 15 255))) 4096
    have htop : 16777216 * 255 ≤ MessageType3.pathLength (arrive d past (b.set 15 255)) :=
      le_u32_arrive (by omega) (by decide)
    omega
  · -- a byte of the path
    have hpl : ∀ b, MessageType3.pathLength (arrive d past b) =
        MessageType3.pathLength (memOf d) := fun b => u32_arrive (by omega)
    rw [hpl] at hlen
    obtain ⟨k, hk⟩ := Nat.exists_eq_add_of_le (Nat.le_max_right (min d.length 4000) 145)
    obtain ⟨x, hx⟩ := exists_strnlen_ne (m := MessageType3.pathName (arrive d past b)) (n := 4096)
      (k := k) (by omega) (by omega)
    refine ⟨b.set (145 + k) x, corrupt3_differs hinv (htype b) (htype _) hv fun hv' => ?_⟩
    obtain ⟨-, -, hlen'⟩ := (type3Ver_eq_zero_iff _).mp hv'
    rw [hpl, MessageType3.pathName, arrive_set (by omega) (by omega), Mem.set_off] at hlen'
    exact hx (hlen'.trans hlen.symm)

theorem missing6 (hinv : SessionInv g) (h0 : 0 < min d.length 4000)
    (ht : Header.messageType (memOf d) = 6) (hd : d.length < 4000)
    (hn : min d.length 4000 ≤ 12 + strlen (g.sessionId e))
    (hs : strcmp (MessageType6.sessionId (arrive d past b)) (g.sessionId e) = 0) :
    ∃ b', ¬ SameRound (handle e (arrive d past b) g) (handle e (arrive d past b') g) := by
  have htype : ∀ b, Header.messageType (arrive d past b) = 6 := fun b => (arrive_own h0).trans ht
  obtain ⟨k, hk⟩ := Nat.exists_eq_add_of_le (Nat.le_max_right (min d.length 4000) 12)
  have h4000 : 4000 < addrSpace := by decide
  obtain ⟨x, hx⟩ := exists_strcmp_ne (s := MessageType6.sessionId (arrive d past b))
    (t := g.sessionId e) (k := k) (by omega) (by omega)
  refine ⟨b.set (12 + k) x, stranger6_differs hinv (htype b) (htype _) hs ?_⟩
  rw [MessageType6.sessionId, arrive_set (by omega) (by omega), Mem.set_off]
  exact hx

/-- Without even the type byte the buffer decides everything. -/
theorem missing_type (h0 : min d.length 4000 = 0) :
    ∃ b b', ¬ SameRound (handle e (arrive d past b) g) (handle e (arrive d past b') g) := by
  have htype : ∀ t : UInt8, Header.messageType (arrive d past (fun _ => t)) = t := fun t => by
    simp only [Header.messageType, arrive, view, nnRecv, h0, Nat.lt_irrefl, if_false,
      (by decide : 0 < 4000), if_true]
  have htext : ∀ t : UInt8, t ≠ 0 → t ≠ 3 → t ≠ 6 →
      errorText (replyOf (handle e (arrive d past fun _ => t) g)) = some (invalidType t) := by
    intro t ht0 ht3 ht6
    rw [(Exit.other (by rw [htype]; exact ⟨ht0, ht3, ht6⟩)).handle_eq, htype]
    exact errorText_error g (Nat.lt_of_le_of_lt (invalidType_length_le t) (by decide))
  refine ⟨fun _ => 7, fun _ => 8, fun h => ?_⟩
  have hr := congrArg errorText h.reply
  rw [htext 7 (by decide) (by decide) (by decide), htext 8 (by decide) (by decide) (by decide)] at hr
  exact absurd (Option.some.inj hr) (by decide)

end Missing

/-! ## A failed `nn_recv` -/

/-- A session that has finished was finished by a type 6 message. -/
def Finished (g : Daemon) : Prop := g.state.lastSent = 5 → g.state.lastRecieved = 6

theorem handle_finished (h : Finished g) (hinv : SessionInv g) : Finished (handle e m g).1 := by
  have hexit := handle_exit e m g
  have h25 : (2 : UInt8) ≠ 5 := by decide
  have h15 : (1 : UInt8) ≠ 5 := by decide
  have h45 : (4 : UInt8) ≠ 5 := by decide
  have herr : ∀ {g1 : Daemon} {text : List UInt8}, Finished g1 →
      Finished (sendError g1 text).1 := fun h => by
    unfold Finished
    rw [sendError_state]
    exact h
  generalize handle e m g = r at hexit ⊢
  cases hexit with
  | busy0 | stranger6 | other => exact herr h
  | corrupt0 | corrupt3 | stranger3 | invalid3 | corrupt6 | invalid6 | noFile3 | irregular3 =>
    exact herr fun h5 => absurd h5 h25
  | accept0 =>
    rw [nnSend_type1 (newSession_terminated m g)]
    exact fun h5 => absurd h5 h15
  | start3 ha hl =>
    rw [nnSend_type4 (hinv.starting hl _)]
    exact fun h5 => absurd h5 h45
  | finish6 ha hl =>
    rw [nnSend_type5 (hinv.sending hl)]
    exact fun _ => rfl
  | more6 ha hl =>
    rw [nnSend_type4 (hinv.sending hl)]
    exact fun h5 => absurd h5 h45
  | silent6 => exact fun _ => rfl

theorem Reachable.finished (h : Reachable g) : Finished g := by
  have hboth : SessionInv g ∧ Finished g := by
    refine Mealy.Reach.invariant (I := fun g => SessionInv g ∧ Finished g)
      (fun g h0 => ⟨h0.sessionInv, ?_⟩) (fun g i h => ⟨(iteration_follows h.1 i).inv, ?_⟩) h
    · obtain ⟨sid, user, out, buf, rand, rfl⟩ := h0
      exact fun _ => rfl
    · exact handle_finished (g := { g with buffer := nnRecv g.buffer i.recv }) h.2
        (h.1.setBuffer _)
  exact hboth.2

theorem handle_silent : (handle e m g).2 = none ↔ Auth6 e m g ∧ g.state.lastSent = 5 := by
  constructor
  · intro h
    have hexit := handle_exit e m g
    generalize handle e m g = r at hexit h
    cases hexit with
    | silent6 ha hl => exact ⟨ha, hl⟩
    | busy0 | corrupt0 | corrupt3 | stranger3 | invalid3 | noFile3 | irregular3 | stranger6
    | corrupt6 | invalid6 | other | accept0 | start3 | finish6 | more6 =>
      exact absurd h (Option.some_ne_none _)
  · rintro ⟨ha, hl⟩
    rw [(Exit.silent6 ha hl).handle_eq]

theorem own_bytes_none (hg : Reachable g) {past : Mem} :
    OwnBytes g ⟨none, past, e⟩ ↔ Complete g ⟨none, past, e⟩ := by
  refine ⟨fun h => handle_silent.mp h.1, fun h => ?_⟩
  have heq : iteration g ⟨none, past, e⟩ = (g.setLastRecieved 6, none) :=
    (Exit.silent6 h.1 h.2).handle_eq
  refine ⟨by rw [heq], ?_, by rw [heq]; rfl⟩
  rw [heq]
  show { g.state with lastRecieved := 6 } = g.state
  rw [← hg.finished h.2]

/-! ## A datagram -/

theorem SameRound.symm {r s : Daemon × Option Packet} (h : SameRound r s) : SameRound s r :=
  ⟨h.reply.symm, h.state.symm, h.sendFile.symm, h.streams.symm⟩

theorem SameRound.trans {r s t : Daemon × Option Packet} (h : SameRound r s) (h' : SameRound s t) :
    SameRound r t :=
  ⟨h'.reply.trans h.reply, h'.state.trans h.state, h'.sendFile.trans h.sendFile,
    h'.streams.trans h.streams⟩

theorem SameRound.of_eq {r s : Daemon × Option Packet} (h : r = s) : SameRound r s := by
  rw [h]
  exact ⟨rfl, rfl, rfl, rfl⟩

section Datagram

variable {d : List UInt8} {past : Mem}

theorem round_handle (hinv : SessionInv g) (b : Mem) :
    SameRound (handle e (arrive d past b) g) (iteration { g with buffer := b } ⟨some d, past, e⟩) := by
  obtain ⟨hc, hr⟩ := handle_core (e := e) (m := arrive d past b) hinv
    (h := { g with buffer := nnRecv b (some d) }) ⟨rfl, rfl, rfl, rfl, rfl⟩
  exact ⟨hr, hc.state, hc.sendFile, hc.streams⟩

theorem own_bytes_some (hinv : SessionInv g) : OwnBytes g ⟨some d, past, e⟩ ↔
    ∀ b b', SameRound (handle e (arrive d past b) g) (handle e (arrive d past b') g) :=
  ⟨fun h b b' => (round_handle hinv b).trans ((h b b').trans (round_handle hinv b').symm),
    fun h b b' => (round_handle hinv b).symm.trans ((h b b').trans (round_handle hinv b'))⟩

theorem datagram0 (h0 : 0 < min d.length 4000)
    (ht : Header.messageType (memOf d) = 0) :
    (∀ b b', SameRound (handle e (arrive d past b) g) (handle e (arrive d past b') g)) ↔
      (g.state.lastSent ≠ 5 ∧ g.state.lastSent ≠ 2) ∨
      (∀ b, type0Ver (arrive d past b) ≠ 0) ∨
      NameArrived (memOf d) (min d.length 4000) := by
  have htype : ∀ b, Header.messageType (arrive d past b) = 0 := fun b => (arrive_own h0).trans ht
  constructor
  · intro h
    by_contra hc
    rw [not_or, not_or, not_forall, not_and_or, not_not, not_not] at hc
    obtain ⟨hl, ⟨b, hv⟩, hn⟩ := hc
    obtain ⟨b', hb⟩ := missing0 (e := e) hl h0 ht hn (not_not.mp hv)
    exact hb (h b b')
  · rintro (hl | hv | hn) b b'
    · rw [(Exit.busy0 (htype b) hl).handle_eq, (Exit.busy0 (htype b') hl).handle_eq]
      exact .of_eq rfl
    · exact .of_eq (handle_same0 (htype b) (htype b') (iff_of_true (hv b) (hv b'))
        fun h => absurd h (hv b))
    · refine .of_eq (handle_same0 (htype b) (htype b') (not_congr ?_) fun h =>
        (accept0_arrive hn h).2)
      exact ⟨fun h => (accept0_arrive hn h).1, fun h => (accept0_arrive hn h).1⟩

theorem datagram3 (hinv : SessionInv g) (h0 : 0 < min d.length 4000)
    (ht : Header.messageType (memOf d) = 3) :
    (∀ b b', SameRound (handle e (arrive d past b) g) (handle e (arrive d past b') g)) ↔
      (∀ b, type3Ver (arrive d past b) ≠ 0) ∨ 4000 ≤ d.length ∨
      145 + MessageType3.pathLength (memOf d) < min d.length 4000 := by
  have htype : ∀ b, Header.messageType (arrive d past b) = 3 := fun b => (arrive_own h0).trans ht
  constructor
  · intro h
    by_contra hc
    rw [not_or, not_or, not_forall] at hc
    obtain ⟨⟨b, hv⟩, hd, hn⟩ := hc
    obtain ⟨b', hb⟩ := missing3 (e := e) hinv h0 ht (Nat.lt_of_not_le hd) (Nat.le_of_not_lt hn)
      (not_not.mp hv)
    exact hb (h b b')
  · rintro (hv | hd | hn) b b'
    · exact .of_eq (handle_same3 (htype b) (htype b') (iff_of_true (hv b) (hv b'))
        (fun h => absurd h (hv b)) fun h => absurd h (hv b))
    · exact .of_eq (by rw [arrive_full hd])
    · refine .of_eq (handle_same3 (htype b) (htype b') (not_congr ?_)
        (fun h => (accept3_arrive hn h).2.1) fun h => (accept3_arrive hn h).2.2)
      exact ⟨fun h => (accept3_arrive hn h).1, fun h => (accept3_arrive hn h).1⟩

theorem datagram6 (hinv : SessionInv g) (h0 : 0 < min d.length 4000)
    (ht : Header.messageType (memOf d) = 6) :
    (∀ b b', SameRound (handle e (arrive d past b) g) (handle e (arrive d past b') g)) ↔
      (∀ b, strcmp (MessageType6.sessionId (arrive d past b)) (g.sessionId e) ≠ 0) ∨
      4000 ≤ d.length ∨ 12 + strlen (g.sessionId e) < min d.length 4000 := by
  have htype : ∀ b, Header.messageType (arrive d past b) = 6 := fun b => (arrive_own h0).trans ht
  constructor
  · intro h
    by_contra hc
    rw [not_or, not_or, not_forall] at hc
    obtain ⟨⟨b, hs⟩, hd, hn⟩ := hc
    obtain ⟨b', hb⟩ := missing6 hinv h0 ht (Nat.lt_of_not_le hd) (Nat.le_of_not_lt hn)
      (not_not.mp hs)
    exact hb (h b b')
  · rintro (hs | hd | hn) b b'
    · exact .of_eq (handle_same6 (htype b) (htype b') (iff_of_true (hs b) (hs b'))
        fun h => absurd h (hs b))
    · exact .of_eq (by rw [arrive_full hd])
    · refine .of_eq (handle_same6 (htype b) (htype b') (not_congr ?_)
        fun h => (accept6_arrive hn h).2)
      exact ⟨fun h => (accept6_arrive hn h).1, fun h => (accept6_arrive hn h).1⟩

theorem datagram_other (h0 : 0 < min d.length 4000)
    (ht : Header.messageType (memOf d) ≠ 0 ∧ Header.messageType (memOf d) ≠ 3 ∧
      Header.messageType (memOf d) ≠ 6) (b b' : Mem) :
    SameRound (handle e (arrive d past b) g) (handle e (arrive d past b') g) := by
  have htype : ∀ b, Header.messageType (arrive d past b) = Header.messageType (memOf d) :=
    fun b => arrive_own h0
  rw [(Exit.other (by rw [htype]; exact ht)).handle_eq,
    (Exit.other (by rw [htype]; exact ht)).handle_eq, htype, htype]
  exact .of_eq rfl

end Datagram

/-- **A message is judged by its own bytes** exactly when what has arrived is
complete. -/
theorem own_bytes_iff (hg : Reachable g) (i : Input) : OwnBytes g i ↔ Complete g i := by
  have hinv := hg.sessionInv
  obtain ⟨recv, past, e⟩ := i
  cases recv with
  | none => exact own_bytes_none hg
  | some d =>
    rw [own_bytes_some hinv]
    rcases Nat.eq_zero_or_pos (min d.length 4000) with h0 | h0
    · refine iff_of_false (fun h => ?_) fun h => Nat.lt_irrefl 0 (h0 ▸ h.1)
      obtain ⟨b, b', hb⟩ : ∃ b b', ¬ SameRound (handle e (arrive d past b) g)
          (handle e (arrive d past b') g) := missing_type h0
      exact hb (h b b')
    have hne : ∀ {s t : UInt8}, Header.messageType (memOf d) = s → s ≠ t →
        Header.messageType (memOf d) ≠ t := fun h hst h' => hst (h.symm.trans h')
    by_cases t0 : Header.messageType (memOf d) = 0
    · rw [datagram0 h0 t0]
      exact ⟨fun h => ⟨h0, fun _ => h, fun h => absurd h (hne t0 (by decide)),
        fun h => absurd h (hne t0 (by decide))⟩, fun h => h.2.1 t0⟩
    by_cases t3 : Header.messageType (memOf d) = 3
    · rw [datagram3 hinv h0 t3]
      exact ⟨fun h => ⟨h0, fun h => absurd h t0, fun _ => h,
        fun h => absurd h (hne t3 (by decide))⟩, fun h => h.2.2.1 t3⟩
    by_cases t6 : Header.messageType (memOf d) = 6
    · rw [datagram6 hinv h0 t6]
      exact ⟨fun h => ⟨h0, fun h => absurd h t0, fun h => absurd h t3, fun _ => h⟩,
        fun h => h.2.2.2 t6⟩
    · exact iff_of_true (datagram_other h0 ⟨t0, t3, t6⟩)
        ⟨h0, fun h => absurd h t0, fun h => absurd h t3, fun h => absurd h t6⟩

theorem complete6 {d : List UInt8} {past : Mem} (ht : Header.messageType (memOf d) = 6)
    (hlt : 12 + strlen (g.sessionId e) < min d.length 4000) : Complete g ⟨some d, past, e⟩ := by
  have h0 : (6 : UInt8) ≠ 0 := by decide
  have h3 : (6 : UInt8) ≠ 3 := by decide
  exact ⟨by omega, fun h => absurd (ht.symm.trans h) h0, fun h => absurd (ht.symm.trans h) h3,
    fun _ => .inr (.inr hlt)⟩

/-- An acknowledgement that arrives whole is judged by its own bytes. -/
theorem own_bytes_acknowledgement :
    OwnBytes aliceOpened ⟨some (encode6 zeroSid), fun _ => 0, envOf none⟩ := by
  have ht := aliceOpened_reachable.sessionInv.terminated (.inl aliceOpened_lastSent)
  have hlen : strlen (aliceOpened.sessionId (envOf none)) = zeroSid.length :=
    (ht.strlen _).trans (congrArg List.length aliceOpened_sid)
  refine (own_bytes_iff aliceOpened_reachable _).mpr (complete6 rfl ?_)
  rw [hlen]
  decide +kernel

theorem arrive_append {d rest : List UInt8} {past : Mem} {k : Nat} (hk : k < 4000) :
    arrive d past (memOf (d ++ rest)) k = memOf (d ++ rest) k := by
  by_cases h : k < min d.length 4000
  · rw [arrive_own h, memOf, memOf, List.getD_eq_getElem?_getD, List.getD_eq_getElem?_getD,
      List.getElem?_append_left (by omega)]
  · exact (if_pos hk).trans (if_neg h)

theorem header_over_ack (past : Mem) (ht : g.state.Terminated) (hl : g.state.lastSent = 1) :
    (handle e (arrive ([6, 0, 0, 0] ++ le32 MessageType6.size) past (memOf (encode6 g.state.sid)))
      g).1.state.lastSent = 2 := by
  have hle := State.sid_length_le ht
  have hack : Acknowledges (arrive ([6, 0, 0, 0] ++ le32 MessageType6.size) past
      (memOf (encode6 g.state.sid))) g.state.sid.length g.state.sid := by
    refine (acknowledges_encode6 (State.sid_ne_nul _) hle).congr hle fun i hi => ?_
    have h4000 : MessageType6.size < 4000 := by decide
    rw [encode6, List.append_assoc]
    exact arrive_append (by omega)
  have h14 : (1 : UInt8) ≠ 4 := by decide
  have h15 : (1 : UInt8) ≠ 5 := by decide
  have ha := acknowledges_auth6 (e := e) hack ht rfl rfl
  rw [(Exit.invalid6 ha ⟨hl ▸ h14, hl ▸ h15⟩).handle_eq, sendError_state]
  rfl

theorem header_over_nothing (past : Mem) (ht : g.state.Terminated) (hs : g.state.sid ≠ []) :
    (handle e (arrive ([6, 0, 0, 0] ++ le32 MessageType6.size) past (memOf [])) g).1.state =
      g.state := by
  have hempty : Spells (MessageType6.sessionId
      (arrive ([6, 0, 0, 0] ++ le32 MessageType6.size) past (memOf []))) [] := rfl
  have hne : strcmp (MessageType6.sessionId
      (arrive ([6, 0, 0, 0] ++ le32 MessageType6.size) past (memOf []))) (g.sessionId e) ≠ 0 :=
    fun h => hs (((strcmp_sessionId ht).mp h).unique hempty)
  rw [(Exit.stranger6 rfl hne).handle_eq, sendError_state]

theorem not_ownBytes_header {past : Mem} (hinv : SessionInv g) (hl : g.state.lastSent = 1)
    (hs : g.state.sid ≠ []) :
    ¬ OwnBytes g ⟨some ([6, 0, 0, 0] ++ le32 MessageType6.size), past, e⟩ := by
  have ht := hinv.terminated (.inl hl)
  intro h
  have hsame := ((own_bytes_some hinv).mp h (memOf (encode6 g.state.sid)) (memOf [])).state
  have h2 := header_over_ack (e := e) past ht hl
  rw [← hsame, header_over_nothing past ht hs, hl] at h2
  exact absurd h2 (by decide)

/-- The header of an acknowledgement alone ends the session when an honest
acknowledgement still lies in the buffer, and is refused when the buffer is
empty. -/
theorem header_alone_judged_by_stale :
    Reachable aliceOpened ∧
      ¬ OwnBytes aliceOpened
        ⟨some ([6, 0, 0, 0] ++ le32 MessageType6.size), fun _ => 0, envOf none⟩ := by
  refine ⟨aliceOpened_reachable,
    not_ownBytes_header aliceOpened_reachable.sessionInv aliceOpened_lastSent ?_⟩
  rw [aliceOpened_sid]
  decide

end Getd
