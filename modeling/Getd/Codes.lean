import Getd.Client
import Getd.Steps

/-!
# The codes of the verifiers

A verifier returns the sum of the codes of the checks that fail
(`type0Ver_total`, `type6Ver_total`). Read as a set of bits the sum names these
checks only as far as no code is added twice, and each code has a check that
tests what it stands for (`names_iff`).
-/

namespace Getd

open CLib

def flags : List UInt32 := [TP0_LENMATCH, TP0_DNLEN33P, TP0_NONULL, TP0_MESSLEN, SID_MISMATCH]

/-- The bits of `retval` name the failed checks of a message with a string
`field` of `size` bytes and the length field `length`. -/
structure Names (retval : UInt32) (field : Mem) (size length : Nat)
    (messLen sidMismatch : Prop) : Prop where
  lenMatch : Contains retval TP0_LENMATCH ↔ length ≠ strnlen field size
  dnLen33P : Contains retval TP0_DNLEN33P ↔ size ≤ length
  noNull : Contains retval TP0_NONULL ↔ strnlen field size = size
  messLen : Contains retval TP0_MESSLEN ↔ messLen
  sidMismatch : Contains retval SID_MISMATCH ↔ sidMismatch

/-- What `type0Ver` returns names the failed checks. There is no session id to compare. -/
def Names0 (m : Mem) : Prop :=
  Names (type0Ver m) (MessageType0.distinguishedName m) 33 (MessageType0.dnLength m)
    (Header.messageLength m ≠ MessageType0.size) False

def Names6 (m : Mem) (s : State) (beyond : Mem) : Prop :=
  Names (type6Ver m (s.image beyond)) (MessageType6.sessionId m) 129 (MessageType6.sidLength m)
    (Header.messageLength m ≠ MessageType6.size) (¬ Spells (MessageType6.sessionId m) s.sid)

variable {m s : Mem} {code : UInt32}

/-! ## Bits and codes -/

/-- With no code twice, the bits are the codes. -/
theorem contains_iff_mem {codes : List UInt32} (hp : codes.Pairwise fun a b => a &&& b = 0)
    (hsub : codes ⊆ flags) (hcode : code ∈ flags) :
    Contains (total codes) code ↔ code ∈ codes := by
  have hflags : ∀ a ∈ flags, ∀ b ∈ flags, Contains a b ↔ a = b := by
    have hall : (flags.all fun a => flags.all fun b => decide (Contains a b ↔ a = b)) = true := by
      decide
    simpa only [List.all_eq_true, decide_eq_true_eq] using hall
  rw [contains_total hp]
  constructor
  · rintro ⟨c, hc, hcont⟩
    rwa [← (hflags c (hsub hc) code hcode).mp hcont]
  · intro hc
    exact ⟨code, hc, (hflags code hcode code hcode).mpr rfl⟩

theorem contains_type0Ver (hcode : code ∈ flags) :
    Contains (type0Ver m) code ↔ code ∈ type0Codes m := by
  have hsub := type0Codes_sublist m
  rw [type0Ver_total]
  refine contains_iff_mem (List.Pairwise.sublist hsub (by decide)) (fun c hc => ?_) hcode
  exact (by decide : [TP0_LENMATCH, TP0_DNLEN33P, TP0_MESSLEN] ⊆ flags) (hsub.subset hc)

theorem contains_type6Ver (hn : MessageType6.sidLength m ≤ 128) (hcode : code ∈ flags) :
    Contains (type6Ver m s) code ↔ code ∈ type6Codes m s := by
  have hnil : codeIf (MessageType6.sidLength m > 128) TP0_DNLEN33P = [] :=
    codeIf_eq_nil.mpr (by omega)
  have hsub : List.Sublist (type6Codes m s)
      [TP0_DNLEN33P, SID_MISMATCH, TP0_LENMATCH, TP0_NONULL, TP0_MESSLEN] := by
    rw [type6Codes, hnil, List.append_nil]
    exact ((((codeIf_sublist _ _).append (codeIf_sublist _ _)).append (codeIf_sublist _ _)).append
      (codeIf_sublist _ _)).append (codeIf_sublist _ _)
  rw [type6Ver_total]
  refine contains_iff_mem (List.Pairwise.sublist hsub (by decide)) (fun c hc => ?_) hcode
  exact (by decide : [TP0_DNLEN33P, SID_MISMATCH, TP0_LENMATCH, TP0_NONULL, TP0_MESSLEN] ⊆ flags)
    (hsub.subset hc)

/-- A length out of bounds adds `TP0_DNLEN33P` twice, and its bit is not set. -/
theorem type6Ver_carries (hn : 128 < MessageType6.sidLength m) :
    ¬ Contains (type6Ver m s) TP0_DNLEN33P := by
  have hle := strnlen_le (MessageType6.sessionId m) 128
  have hsum : ∀ c2 c3 c5 c6 : Bool, ¬ Contains (addIf (c6 = true) TP0_MESSLEN
      (addIf (c5 = true) TP0_NONULL (addIf True TP0_DNLEN33P (addIf (c3 = true) TP0_LENMATCH
        (addIf (c2 = true) SID_MISMATCH (addIf True TP0_DNLEN33P 0)))))) TP0_DNLEN33P := by
    decide
  have h1 : strnlen (MessageType6.sessionId m) 128 ≠ MessageType6.sidLength m := by omega
  have hver := hsum (decide (strncmp s (MessageType6.sessionId m) (MessageType6.sidLength m) ≠ 0))
    (decide (MessageType6.sidLength m ≠ (scan (MessageType6.sessionId m) 129 0).toNat))
    (decide (scan (MessageType6.sessionId m) 129 0 = 129))
    (decide (Header.messageLength m ≠ MessageType6.size))
  simp only [decide_eq_true_eq] at hver
  simpa only [type6Ver, h1, hn, ne_eq, not_false_eq_true, gt_iff_lt] using hver

theorem type0Ver_bits (m : Mem) :
    (Contains (type0Ver m) TP0_LENMATCH ↔
      strnlen (MessageType0.distinguishedName m) 32 ≠ MessageType0.dnLength m) ∧
    (Contains (type0Ver m) TP0_DNLEN33P ↔ 32 < MessageType0.dnLength m) ∧
    ¬ Contains (type0Ver m) TP0_NONULL ∧
    (Contains (type0Ver m) TP0_MESSLEN ↔ Header.messageLength m ≠ MessageType0.size) ∧
    ¬ Contains (type0Ver m) SID_MISMATCH := by
  have hcode : ∀ code ∈ flags, Contains (type0Ver m) code ↔ code ∈ type0Codes m :=
    fun code => contains_type0Ver
  simp only [flags, List.forall_mem_cons] at hcode
  obtain ⟨hlen, hdn, hnul, hmess, hsid, -⟩ := hcode
  rw [hlen, hdn, hnul, hmess, hsid]
  simp [type0Codes, mem_codeIf, TP0_LENMATCH, TP0_DNLEN33P, TP0_NONULL, TP0_MESSLEN, SID_MISMATCH]

theorem type6Ver_bits (hn : MessageType6.sidLength m ≤ 128) (s : Mem) :
    (Contains (type6Ver m s) TP0_LENMATCH ↔
      MessageType6.sidLength m ≠ strnlen (MessageType6.sessionId m) 129) ∧
    (Contains (type6Ver m s) TP0_DNLEN33P ↔
      strnlen (MessageType6.sessionId m) 128 ≠ MessageType6.sidLength m) ∧
    (Contains (type6Ver m s) TP0_NONULL ↔ strnlen (MessageType6.sessionId m) 129 = 129) ∧
    (Contains (type6Ver m s) TP0_MESSLEN ↔ Header.messageLength m ≠ MessageType6.size) ∧
    (Contains (type6Ver m s) SID_MISMATCH ↔
      strncmp s (MessageType6.sessionId m) (MessageType6.sidLength m) ≠ 0) := by
  have hscan := scan_eq_strnlen (MessageType6.sessionId m)
  have hend : scan (MessageType6.sessionId m) 129 0 = 129 ↔
      strnlen (MessageType6.sessionId m) 129 = 129 := by
    rw [← hscan, ← UInt8.toNat_inj]
    rfl
  have hcode : ∀ code ∈ flags, Contains (type6Ver m s) code ↔ code ∈ type6Codes m s :=
    fun code => contains_type6Ver hn
  simp only [flags, List.forall_mem_cons] at hcode
  obtain ⟨hlen, hdn, hnul, hmess, hsid, -⟩ := hcode
  rw [hlen, hdn, hnul, hmess, hsid, ← hscan, hscan, ← hend]
  simp [type6Codes, mem_codeIf, TP0_LENMATCH, TP0_DNLEN33P, TP0_NONULL, TP0_MESSLEN, SID_MISMATCH,
    hn, hscan]

/-! ## What the codes name -/

theorem names0_iff (m : Mem) :
    Names0 m ↔ strnlen (MessageType0.distinguishedName m) 33 < 33 := by
  have hle := strnlen_le (MessageType0.distinguishedName m) 33
  obtain ⟨hlen, hdn, hnul, hmess, hsid⟩ := type0Ver_bits m
  constructor
  · intro h
    by_contra hge
    exact hnul (h.noNull.mpr (by omega))
  · intro hlt
    have h32 : strnlen (MessageType0.distinguishedName m) 32 =
        strnlen (MessageType0.distinguishedName m) 33 := by
      rw [(spells_of_strnlen_lt hlt).strnlen, Mem.bytes_length]
      omega
    rw [h32] at hlen
    exact ⟨hlen.trans ne_comm, hdn, iff_of_false hnul (by omega), hmess,
      iff_of_false hsid not_false⟩

theorem names6_iff {st : State} {beyond : Mem} (h0 : 0 ∈ st.sessionId.toList) :
    Names6 m st beyond ↔
      MessageType6.sidLength m = strnlen (MessageType6.sessionId m) 128 ∧
      ((MessageType6.sessionId m).bytes 0 (MessageType6.sidLength m) <+: st.sid →
        Spells (MessageType6.sessionId m) st.sid) := by
  have hle := strnlen_le (MessageType6.sessionId m) 128
  rcases Nat.lt_or_ge 128 (MessageType6.sidLength m) with hn | hn
  · refine iff_of_false (fun h => ?_) fun h => by omega
    exact type6Ver_carries hn (h.dnLen33P.mpr hn)
  obtain ⟨hlen, hdn, hnul, hmess, hsid⟩ := type6Ver_bits hn (st.image beyond)
  have hchars (heq : MessageType6.sidLength m = strnlen (MessageType6.sessionId m) 128) :
      ∀ i < MessageType6.sidLength m, MessageType6.sessionId m i ≠ 0 := by
    intro i hi
    exact strnlen_ne_nul (n := 128) (by omega)
  constructor
  · intro h
    have heq : MessageType6.sidLength m = strnlen (MessageType6.sessionId m) 128 := by
      by_contra hne
      have := h.dnLen33P.mp (hdn.mpr (Ne.symm hne))
      omega
    refine ⟨heq, fun hp => ?_⟩
    by_contra hs
    refine hsid.mp (h.sidMismatch.mpr hs) ?_
    exact (strncmp_prefix_iff (State.spells_sid h0 beyond) (hchars heq)).mpr hp
  · rintro ⟨heq, hp⟩
    refine ⟨hlen, iff_of_false (fun h => hdn.mp h heq.symm) (by omega), hnul, hmess, ?_⟩
    rw [hsid, ne_eq, not_iff_not]
    exact ⟨fun h => hp ((strncmp_prefix_iff (State.spells_sid h0 beyond) (hchars heq)).mp h),
      fun h => strncmp_of_spells (State.spells_sid h0 beyond) h _⟩

/-- **The codes name the failed checks** of a type 0 message whose name ends in its
field, and of a type 6 message whose length is that of its id and whose id is no
mere beginning of the one in `State`. -/
theorem names_iff (m0 m6 : Mem) (st : State) (beyond : Mem) (h0 : 0 ∈ st.sessionId.toList) :
    (Names0 m0 ↔ strnlen (MessageType0.distinguishedName m0) 33 < 33) ∧
    (Names6 m6 st beyond ↔
      MessageType6.sidLength m6 = strnlen (MessageType6.sessionId m6) 128 ∧
      ((MessageType6.sessionId m6).bytes 0 (MessageType6.sidLength m6) <+: st.sid →
        Spells (MessageType6.sessionId m6) st.sid)) :=
  ⟨names0_iff m0, names6_iff h0⟩

/-- A type 6 message with an empty id and the length 129. -/
def tooLong : List UInt8 :=
  [6, 0, 0, 0] ++ le32 MessageType6.size ++ le32 129 ++ field 132 []

def emptyState : State := ⟨Vector.replicate 129 0, Vector.replicate 33 0, 1, 0⟩

theorem names_tooLong :
    (Names0 (memOf (encode0 [])) ↔
      strnlen (MessageType0.distinguishedName (memOf (encode0 []))) 33 < 33) ∧
    (Names6 (memOf tooLong) emptyState (fun _ => 0) ↔
      MessageType6.sidLength (memOf tooLong) = strnlen (MessageType6.sessionId (memOf tooLong)) 128 ∧
      ((MessageType6.sessionId (memOf tooLong)).bytes 0 (MessageType6.sidLength (memOf tooLong)) <+:
          emptyState.sid →
        Spells (MessageType6.sessionId (memOf tooLong)) emptyState.sid)) :=
  names_iff _ _ _ _ (by decide)

/-- The two `TP0_DNLEN33P` make a `TP0_NONULL`, though the id ends at once. -/
theorem tooLong_misnamed : 0 ∈ emptyState.sessionId.toList ∧
    type6Ver (memOf tooLong) (emptyState.image fun _ => 0) = TP0_LENMATCH + TP0_NONULL ∧
    ¬ Names6 (memOf tooLong) emptyState fun _ => 0 := by
  have hver : type6Ver (memOf tooLong) (emptyState.image fun _ => 0) =
      TP0_LENMATCH + TP0_NONULL := by decide +kernel
  refine ⟨by decide, hver, fun h => ?_⟩
  have hnul := h.noNull.mp (by rw [hver]; decide)
  exact absurd hnul (by decide +kernel)

end Getd
