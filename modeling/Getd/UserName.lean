import Getd.Client
import Getd.Session

/-!
# The user name

`strcpy` puts the name of an accepted type 0 message into `State`.
`copyName_image` is the copy on the bytes of `State`. `type0Ver` looks for the
NUL in the first 32 bytes of the field only, so a name may have none, and then
the copy goes on behind `userName` (`stores_name_iff`).
-/

namespace Getd

open CLib

variable {e : Env} {m : Mem} {g : Daemon} {s : State} {src : Mem}

/-! ## The copy -/

theorem strcpyField_get {n i : Nat} (dst : Vector UInt8 n) (src : Mem) (hi : i < n)
    (hn : n ≤ addrSpace) :
    (strcpyField dst src)[i] = if i ≤ strlen src then src i else dst[i] := by
  rw [← cstr_getD (by omega)]
  unfold strcpyField
  rw [Vector.getElem_ofFn, List.getD_eq_getElem?_getD]
  by_cases h : i < (cstr src ++ [0]).length
  · simp only [dif_pos h, List.getElem?_eq_getElem h, Option.getD_some]
  · simp only [dif_neg h, List.getElem?_eq_none (Nat.le_of_not_lt h), Option.getD_none]

theorem copyName_userName : (s.copyName src).userName = strcpyField s.userName src := rfl

theorem copyName_lastSent : (s.copyName src).lastSent = (cstr src ++ [0]).getD 33 s.lastSent := rfl

theorem copyName_lastRecieved :
    (s.copyName src).lastRecieved = (cstr src ++ [0]).getD 34 s.lastRecieved := rfl

/-- The copy writes the string and its NUL from offset 129 of `State` on. -/
theorem copyName_image {beyond : Mem} {i : Nat} (hi : i < 164) :
    (s.copyName src).image beyond i =
      if 129 ≤ i ∧ i - 129 ≤ strlen src then src (i - 129) else s.image beyond i := by
  unfold State.image
  by_cases h129 : i < 129
  · have hn : ¬ (129 ≤ i ∧ i - 129 ≤ strlen src) := by omega
    simp only [dif_pos h129, if_neg hn]
    rw [State.copyName]
  have hle : 129 ≤ i := by omega
  simp only [dif_neg h129, hle, true_and]
  by_cases h33 : i - 129 < 33
  · simp only [dif_pos h33, copyName_userName]
    rw [strcpyField_get _ _ h33 (by decide)]
  simp only [dif_neg h33]
  rcases (by omega : i = 162 ∨ i = 163) with rfl | rfl
  · simp only [if_true, copyName_lastSent]
    rw [cstr_getD (by decide)]
  · have hne : ¬ 163 = 162 := by decide
    simp only [if_neg hne, if_true, copyName_lastRecieved]
    rw [cstr_getD (by decide)]

/-- `State` depends on no more of the string than it has room for. -/
theorem copyName_congr (s : State) {src' : Mem} (h : AgreeTo src src' 35) :
    s.copyName src = s.copyName src' := by
  have h35 : 35 ≤ addrSpace := by decide
  have huser : strcpyField s.userName src = strcpyField s.userName src' := by
    refine Vector.ext fun i hi => ?_
    rw [strcpyField_get _ _ hi (by decide), strcpyField_get _ _ hi (by decide),
      ← cstr_getD (by omega), ← cstr_getD (by omega)]
    exact cstr_getD_congr h (by omega) h35 _
  unfold State.copyName
  rw [huser, cstr_getD_congr h (by decide) h35, cstr_getD_congr h (by decide) h35]

theorem copyName_user {name : List UInt8} (h : Spells src name) (hn : name.length ≤ 32) :
    (s.copyName src).user = name := by
  have haddr : 32 ≤ addrSpace := by decide
  have hlen : strlen src = name.length := h.strlen (by omega)
  refine h.takeWhile (fun i hi hle => ?_) (by rw [Vector.length_toList]; omega)
  rw [Vector.length_toList] at hi
  rw [Vector.getElem_toList]
  exact (strcpyField_get _ _ hi (by decide)).trans (if_pos (by omega))

/-- In any case it holds the start of the name, up to the NUL. -/
theorem copyName_user_field (s : State) (src : Mem) :
    (s.copyName src).user = (src.bytes 0 33).takeWhile (· ≠ 0) := by
  have haddr : 33 ≤ addrSpace := by decide
  rcases Nat.lt_or_ge (strnlen src 33) 33 with hlt | hge
  · have hs := spells_of_strnlen_lt hlt
    have hlen : (src.bytes 0 (strnlen src 33)).length = strnlen src 33 := Mem.bytes_length ..
    rw [copyName_user hs (by omega)]
    refine (hs.takeWhile (fun i hi _ => ?_) ?_).symm
    · rw [Mem.bytes_getElem, Nat.zero_add]
    · rw [hlen, Mem.bytes_length]
      exact hlt
  · have hlong : 33 ≤ strlen src := le_strnlen_iff.mpr ⟨haddr, (le_strnlen_iff.mp hge).2⟩
    have hfield : (s.copyName src).userName.toList = src.bytes 0 33 := by
      refine List.ext_getElem (by rw [Vector.length_toList, Mem.bytes_length]) fun i hi _ => ?_
      rw [Vector.length_toList] at hi
      rw [Mem.bytes_getElem, Nat.zero_add, Vector.getElem_toList]
      exact (strcpyField_get _ _ hi (by decide)).trans (if_pos (by omega))
    rw [State.user, hfield]

/-! ## What is stored -/

/-- The name of a type 0 message ends at `dnLength` inside its field, the copy
into `State` writes `userName` only, and the session is opened under that name. -/
structure StoresName (e : Env) (m : Mem) (g : Daemon) : Prop where
  terminated : MessageType0.dnLength m ≤ 32 ∧
    MessageType0.distinguishedName m (MessageType0.dnLength m) = 0
  within : strlen (MessageType0.distinguishedName m) + 1 ≤ 33
  userName : (messageType0Handler e m g).1.state.user =
    (MessageType0.distinguishedName m).bytes 0 (MessageType0.dnLength m)
  outside : ∀ i < 164, i < 129 ∨ 129 + 33 ≤ i →
    (g.state.copyName (MessageType0.distinguishedName m)).image e.beyond i =
      g.state.image e.beyond i

theorem accepted_user (hl : g.state.lastSent = 5 ∨ g.state.lastSent = 2) (hv : type0Ver m = 0) :
    (messageType0Handler e m g).1.state.user =
      (g.state.copyName (MessageType0.distinguishedName m)).user := by
  unfold messageType0Handler
  rw [if_neg (not_busy hl), if_neg (not_not.mpr hv)]
  show (newSession m g).state.user = _
  rw [newSession_eq]
  simp only [State.user]

/-- An accepted name ends at `dnLength`, when it ends inside its field. -/
theorem accepted_spells (hv : type0Ver m = 0)
    (h : MessageType0.dnLength m < 32 ∨ MessageType0.distinguishedName m 32 = 0) :
    MessageType0.dnLength m ≤ 32 ∧ Spells (MessageType0.distinguishedName m)
      ((MessageType0.distinguishedName m).bytes 0 (MessageType0.dnLength m)) := by
  obtain ⟨hlen, -⟩ := (type0Ver_eq_zero_iff m).mp hv
  have hle := strnlen_le (MessageType0.distinguishedName m) 32
  rcases Nat.lt_or_ge (MessageType0.dnLength m) 32 with hlt | hge
  · have hs := spells_of_strnlen_lt (m := MessageType0.distinguishedName m) (n := 32) (by omega)
    exact ⟨by omega, hlen ▸ hs⟩
  · -- a name of 32 bytes: the NUL is in the last byte of the field
    have h32 : MessageType0.dnLength m = 32 := by omega
    have hnul : MessageType0.distinguishedName m 32 = 0 := h.resolve_left (by omega)
    have hend : strnlen (MessageType0.distinguishedName m) 33 = 32 := by
      refine Nat.le_antisymm ?_ (le_strnlen_iff.mpr ⟨by decide, fun i hi => strnlen_ne_nul
        (n := 32) (by omega)⟩)
      by_contra hlt
      exact strnlen_ne_nul (n := 33) (by omega) hnul
    have hs := spells_of_strnlen_lt (m := MessageType0.distinguishedName m) (n := 33) (by omega)
    rw [hend] at hs
    exact ⟨by omega, by rw [h32]; exact hs⟩

/-- **An accepted type 0 message stores its name** exactly when the name ends in
the 32 bytes `type0Ver` looks at or in the byte behind them. -/
theorem stores_name_iff (hl : g.state.lastSent = 5 ∨ g.state.lastSent = 2)
    (hv : type0Ver m = 0) : StoresName e m g ↔
      MessageType0.dnLength m < 32 ∨ MessageType0.distinguishedName m 32 = 0 := by
  constructor
  · intro h
    rcases Nat.lt_or_ge (MessageType0.dnLength m) 32 with hlt | hge
    · exact .inl hlt
    · have h32 : MessageType0.dnLength m = 32 := Nat.le_antisymm h.terminated.1 hge
      exact .inr (h32 ▸ h.terminated.2)
  · intro h
    obtain ⟨hle, hs⟩ := accepted_spells hv h
    have hblen : ((MessageType0.distinguishedName m).bytes 0 (MessageType0.dnLength m)).length =
        MessageType0.dnLength m := Mem.bytes_length _ _ _
    have hlen : strlen (MessageType0.distinguishedName m) = MessageType0.dnLength m := by
      have haddr : 32 ≤ addrSpace := by decide
      rw [hs.strlen (by omega), hblen]
    refine ⟨⟨hle, ?_⟩, by omega, ?_, fun i hi hout => ?_⟩
    · have hnul := hs.nul
      rwa [hblen] at hnul
    · rw [accepted_user hl hv]
      exact copyName_user hs (by omega)
    · rw [copyName_image hi, if_neg (by omega)]

theorem stores_name_alice : StoresName (envOf none) (memOf (encode0 (chars "alice"))) zeroBoot :=
  (stores_name_iff (.inl rfl) alice_introduces.ver).mpr (.inl (by decide))

/-- A type 0 message that is one name from `distinguishedName` to its end. -/
def endlessName : List UInt8 :=
  [0, 0, 0, 0] ++ le32 MessageType0.size ++ le32 32 ++ List.replicate 36 97

/-- It is accepted, and the copy overwrites `lastSent` and `lastRecieved`. -/
theorem endlessName_overruns :
    Reachable zeroBoot ∧ zeroBoot.state.lastSent = 5 ∧ type0Ver (memOf endlessName) = 0 ∧
      (zeroBoot.state.copyName (MessageType0.distinguishedName (memOf endlessName))).lastSent = 97 ∧
      (zeroBoot.state.copyName
        (MessageType0.distinguishedName (memOf endlessName))).lastRecieved = 97 ∧
      ¬ StoresName (envOf none) (memOf endlessName) zeroBoot := by
  refine ⟨zeroBootOver_reachable _, rfl, by decide +kernel, by decide +kernel, by decide +kernel,
    fun h => ?_⟩
  exact absurd h.terminated.2 (by decide)

end Getd
