import Getd.Requests
import Getd.Lib.Flags

/-!
# Message verification

`requestVerify.c`. A verifier adds up the codes of the checks that fail
(`addIf`), and what it returns is their sum (`type0Ver_total`, `type6Ver_total`).
Each has one lemma saying when it returns 0.
-/

namespace Getd

open CLib

def TP0_LENMATCH : UInt32 := 1
def TP0_DNLEN33P : UInt32 := 2
def TP0_NONULL : UInt32 := 4
def TP0_MESSLEN : UInt32 := 8
def SID_MISMATCH : UInt32 := 16

def addIf (c : Prop) [Decidable c] (code retval : UInt32) : UInt32 :=
  if c then retval + code else retval

def type0Ver (message : Mem) : UInt32 :=
  let reallen := strnlen (MessageType0.distinguishedName message) 32
  let retval := addIf (reallen ≠ MessageType0.dnLength message) TP0_LENMATCH 0
  let retval := addIf (MessageType0.dnLength message > 32) TP0_DNLEN33P retval
  addIf (Header.messageLength message ≠ MessageType0.size) TP0_MESSLEN retval

def type3Ver (message : Mem) : UInt32 :=
  if Header.messageLength message ≠ MessageType3.size then 1
  else if strnlen (MessageType3.sessionId message) 128 ≠ MessageType3.sidLength message then 1
  else if strnlen (MessageType3.pathName message) 4096 ≠ MessageType3.pathLength message then 1
  else 0

/-- The loop `while (sessionId[endIndex] != '\0' && endIndex < 129) endIndex++`,
for at most `fuel` rounds. -/
def scan (sessionId : Mem) : Nat → UInt8 → UInt8
  | 0, endIndex => endIndex
  | fuel + 1, endIndex =>
    if sessionId endIndex.toNat ≠ 0 ∧ endIndex < 129 then scan sessionId fuel (endIndex + 1)
    else endIndex

/-- Checks messages of type 6 for issues; `sessionId` is `state->sessionId`. -/
def type6Ver (message sessionId : Mem) : UInt32 :=
  let sidLength := MessageType6.sidLength message
  let retval := addIf (strnlen (MessageType6.sessionId message) 128 ≠ sidLength) TP0_DNLEN33P 0
  let retval :=
    addIf (strncmp sessionId (MessageType6.sessionId message) sidLength ≠ 0) SID_MISMATCH retval
  let endIndex := scan (MessageType6.sessionId message) 129 0
  let retval := addIf (sidLength ≠ endIndex.toNat) TP0_LENMATCH retval
  let retval := addIf (sidLength > 128) TP0_DNLEN33P retval
  let retval := addIf (endIndex = 129) TP0_NONULL retval
  addIf (Header.messageLength message ≠ MessageType6.size) TP0_MESSLEN retval

/-! ## Sums of codes -/

def type0Codes (message : Mem) : List UInt32 :=
  codeIf (strnlen (MessageType0.distinguishedName message) 32 ≠ MessageType0.dnLength message)
    TP0_LENMATCH ++
  codeIf (MessageType0.dnLength message > 32) TP0_DNLEN33P ++
  codeIf (Header.messageLength message ≠ MessageType0.size) TP0_MESSLEN

def type6Codes (message sessionId : Mem) : List UInt32 :=
  codeIf (strnlen (MessageType6.sessionId message) 128 ≠ MessageType6.sidLength message)
    TP0_DNLEN33P ++
  codeIf (strncmp sessionId (MessageType6.sessionId message) (MessageType6.sidLength message) ≠ 0)
    SID_MISMATCH ++
  codeIf (MessageType6.sidLength message ≠
    (scan (MessageType6.sessionId message) 129 0).toNat) TP0_LENMATCH ++
  codeIf (MessageType6.sidLength message > 128) TP0_DNLEN33P ++
  codeIf (scan (MessageType6.sessionId message) 129 0 = 129) TP0_NONULL ++
  codeIf (Header.messageLength message ≠ MessageType6.size) TP0_MESSLEN

theorem addIf_total (c : Prop) [Decidable c] (code : UInt32) (codes : List UInt32) :
    addIf c code (total codes) = total (codes ++ codeIf c code) := by
  rw [total_append]
  rfl

theorem type0Ver_total (m : Mem) : type0Ver m = total (type0Codes m) := by
  have h0 : (0 : UInt32) = total [] := rfl
  unfold type0Ver
  simp only [h0, addIf_total]
  rfl

theorem type6Ver_total (m s : Mem) : type6Ver m s = total (type6Codes m s) := by
  have h0 : (0 : UInt32) = total [] := rfl
  unfold type6Ver
  simp only [h0, addIf_total]
  rfl

theorem type0Codes_sublist (m : Mem) :
    List.Sublist (type0Codes m) [TP0_LENMATCH, TP0_DNLEN33P, TP0_MESSLEN] :=
  ((codeIf_sublist _ _).append (codeIf_sublist _ _)).append (codeIf_sublist _ _)

theorem type6Codes_sublist (m s : Mem) : List.Sublist (type6Codes m s)
    [TP0_DNLEN33P, SID_MISMATCH, TP0_LENMATCH, TP0_DNLEN33P, TP0_NONULL, TP0_MESSLEN] :=
  (((((codeIf_sublist _ _).append (codeIf_sublist _ _)).append (codeIf_sublist _ _)).append
    (codeIf_sublist _ _)).append (codeIf_sublist _ _)).append (codeIf_sublist _ _)

theorem type0Codes_sum_le (m : Mem) : ((type0Codes m).map UInt32.toNat).sum ≤ 11 :=
  sum_le_of_sublist (type0Codes_sublist m)

/-- All checks of `type6Ver` together add 33. -/
theorem type6Codes_sum_le (m s : Mem) : ((type6Codes m s).map UInt32.toNat).sum ≤ 33 :=
  sum_le_of_sublist (type6Codes_sublist m s)

theorem zero_not_mem_type0Codes (m : Mem) : 0 ∉ type0Codes m := fun h =>
  absurd ((type0Codes_sublist m).subset h) (by decide)

theorem zero_not_mem_type6Codes (m s : Mem) : 0 ∉ type6Codes m s := fun h =>
  absurd ((type6Codes_sublist m s).subset h) (by decide)

/-! ## When a verifier returns 0 -/

theorem type0Ver_eq_zero_iff (message : Mem) : type0Ver message = 0 ↔
    strnlen (MessageType0.distinguishedName message) 32 = MessageType0.dnLength message ∧
      Header.messageLength message = MessageType0.size := by
  have hle := strnlen_le (MessageType0.distinguishedName message) 32
  have hsum := type0Codes_sum_le message
  rw [type0Ver_total, total_eq_zero_iff (by omega) (zero_not_mem_type0Codes message)]
  simp only [type0Codes, List.append_eq_nil_iff, codeIf_eq_nil]
  constructor
  · rintro ⟨⟨hl, -⟩, hm⟩
    exact ⟨not_not.mp hl, not_not.mp hm⟩
  · rintro ⟨hl, hm⟩
    exact ⟨⟨not_not.mpr hl, by omega⟩, not_not.mpr hm⟩

theorem type3Ver_eq_zero_iff (message : Mem) : type3Ver message = 0 ↔
    Header.messageLength message = MessageType3.size ∧
      strnlen (MessageType3.sessionId message) 128 = MessageType3.sidLength message ∧
      strnlen (MessageType3.pathName message) 4096 = MessageType3.pathLength message := by
  have h10 : (1 : UInt32) ≠ 0 := by decide
  unfold type3Ver
  split
  · next h => exact iff_of_false h10 fun hc => h hc.1
  · next h1 =>
    split
    · next h => exact iff_of_false h10 fun hc => h hc.2.1
    · next h2 =>
      split
      · next h => exact iff_of_false h10 fun hc => h hc.2.2
      · next h3 => exact iff_of_true rfl ⟨not_not.mp h1, not_not.mp h2, not_not.mp h3⟩

/-- The counter of the scan counts the rounds. It does not wrap, and from round 129
on it does not change. -/
theorem scan_toNat (sessionId : Mem) : ∀ (fuel : Nat) (endIndex : UInt8), endIndex.toNat ≤ 129 →
    (scan sessionId fuel endIndex).toNat = endIndex.toNat +
      strnlen (sessionId.off endIndex.toNat) (min fuel (129 - endIndex.toNat)) := by
  intro fuel
  induction fuel with
  | zero => intro e _; simp [scan, strnlen]
  | succ fuel ih =>
    intro e he
    by_cases hgo : sessionId e.toNat ≠ 0 ∧ e < 129
    · have hlt : e.toNat < 129 := UInt8.lt_iff_toNat_lt.mp hgo.2
      have hs : (e + 1).toNat = e.toNat + 1 := by
        rw [UInt8.toNat_add, show (1 : UInt8).toNat = 1 from rfl, Nat.mod_eq_of_lt (by omega)]
      have h0 : (sessionId.off e.toNat) 0 ≠ 0 := by simpa using hgo.1
      have hmin : min (fuel + 1) (129 - e.toNat) = min fuel (129 - (e.toNat + 1)) + 1 := by omega
      rw [scan, if_pos hgo, ih (e + 1) (by omega), hs, hmin, strnlen, if_neg h0, Mem.off_off]
      omega
    · rw [scan, if_neg hgo]
      by_cases hlt : e.toNat < 129
      · have h0 : (sessionId.off e.toNat) 0 = 0 := by
          by_contra h
          exact hgo ⟨by simpa using h, UInt8.lt_iff_toNat_lt.mpr hlt⟩
        have hmin : min (fuel + 1) (129 - e.toNat) = min fuel (128 - e.toNat) + 1 := by omega
        rw [hmin, strnlen, if_pos h0]
        rfl
      · rw [show 129 - e.toNat = 0 by omega, Nat.min_zero]
        rfl

theorem scan_rounds (sessionId : Mem) (fuel : Nat) :
    (scan sessionId fuel 0).toNat = strnlen sessionId (min fuel 129) := by
  have h := scan_toNat sessionId fuel 0 (by decide)
  rwa [UInt8.toNat_zero, Mem.off_zero, Nat.zero_add, Nat.sub_zero] at h

/-- The scan of `type6Ver` ends at the NUL, or at index 129. -/
theorem scan_eq_strnlen (sessionId : Mem) :
    (scan sessionId 129 0).toNat = strnlen sessionId 129 := scan_rounds sessionId 129

theorem type6Ver_eq_zero_iff (message sessionId : Mem) : type6Ver message sessionId = 0 ↔
    (∃ s, Spells (MessageType6.sessionId message) s ∧ s.length ≤ 128 ∧
      MessageType6.sidLength message = s.length) ∧
    strncmp sessionId (MessageType6.sessionId message) (MessageType6.sidLength message) = 0 ∧
    Header.messageLength message = MessageType6.size := by
  have hscan := scan_eq_strnlen (MessageType6.sessionId message)
  have hsum := type6Codes_sum_le message sessionId
  rw [type6Ver_total, total_eq_zero_iff (by omega) (zero_not_mem_type6Codes message sessionId)]
  simp only [type6Codes, List.append_eq_nil_iff, codeIf_eq_nil]
  generalize scan (MessageType6.sessionId message) 129 0 = endIndex at hscan ⊢
  generalize MessageType6.sidLength message = n
  constructor
  · rintro ⟨⟨⟨⟨⟨hlen, hcmp⟩, hend⟩, h128⟩, -⟩, hm⟩
    have hend : n = strnlen (MessageType6.sessionId message) 129 := by omega
    have hlt : strnlen (MessageType6.sessionId message) 129 < 129 := by omega
    refine ⟨⟨_, spells_of_strnlen_lt hlt, ?_, ?_⟩, not_not.mp hcmp, not_not.mp hm⟩
    · rw [Mem.bytes_length]; omega
    · rw [Mem.bytes_length]; exact hend
  · rintro ⟨⟨s, hs, hle, hn⟩, hcmp, hm⟩
    rw [hs.strnlen] at hscan
    have h129 : endIndex ≠ 129 := by
      intro h
      have := congrArg UInt8.toNat h
      rw [hscan, show (129 : UInt8).toNat = 129 from rfl] at this
      omega
    refine ⟨⟨⟨⟨⟨?_, not_not.mpr hcmp⟩, ?_⟩, by omega⟩, h129⟩, not_not.mpr hm⟩
    · rw [hs.strnlen]; omega
    · rw [hscan]; omega

end Getd
