import Getd.Lib.Memory

/-!
# What the string functions read

`strnlenReads` and `strncmpReads` are the functions of `Memory` with the offsets
they read in place of what they compute. A string function reads up to its
bound, the first NUL or the first difference, that byte included
(`mem_strnlenReads`, `mem_strncmpReads`).
-/

namespace CLib

/-- The offsets `strnlen(s, n)` reads, in order. -/
def strnlenReads : Mem → Nat → List Nat
  | _, 0 => []
  | s, n + 1 => 0 :: if s 0 = 0 then [] else (strnlenReads (s.off 1) n).map (· + 1)

/-- The offsets `strncmp(s, t, n)` reads, in either string. -/
def strncmpReads : Mem → Mem → Nat → List Nat
  | _, _, 0 => []
  | s, t, n + 1 =>
    0 :: if s 0 ≠ t 0 then []
      else if s 0 = 0 then []
      else (strncmpReads (s.off 1) (t.off 1) n).map (· + 1)

theorem mem_strnlenReads {s : Mem} {n i : Nat} :
    i ∈ strnlenReads s n ↔ i < n ∧ i ≤ strnlen s n := by
  induction n generalizing s i with
  | zero => exact iff_of_false List.not_mem_nil fun h => Nat.not_lt_zero i h.1
  | succ n ih =>
    by_cases h0 : s 0 = 0
    · simp only [strnlenReads, strnlen, if_pos h0, List.mem_singleton]
      omega
    · simp only [strnlenReads, strnlen, if_neg h0, List.mem_cons, List.mem_map, ih]
      constructor
      · rintro (rfl | ⟨j, hj, rfl⟩) <;> omega
      · rintro ⟨hn, hi⟩
        rcases i with _ | i
        · exact .inl rfl
        · exact .inr ⟨i, by omega, rfl⟩

theorem mem_strncmpReads {s t : Mem} {n i : Nat} :
    i ∈ strncmpReads s t n ↔ i < n ∧ ∀ j < i, s j = t j ∧ s j ≠ 0 := by
  induction n generalizing s t i with
  | zero => exact iff_of_false List.not_mem_nil fun h => Nat.not_lt_zero i h.1
  | succ n ih =>
    have hstop : ¬ (s 0 = t 0 ∧ s 0 ≠ 0) →
        (i = 0 ↔ i < n + 1 ∧ ∀ j < i, s j = t j ∧ s j ≠ 0) := by
      intro h
      constructor
      · rintro rfl
        exact ⟨Nat.succ_pos n, fun j hj => absurd hj (Nat.not_lt_zero j)⟩
      · rintro ⟨-, ha⟩
        by_contra hi
        exact h (ha 0 (Nat.pos_of_ne_zero hi))
    by_cases hd : s 0 = t 0
    · by_cases h0 : s 0 = 0
      · simp only [strncmpReads, if_neg (not_not.mpr hd), if_pos h0, List.mem_singleton]
        exact hstop fun h => h.2 h0
      · simp only [strncmpReads, if_neg (not_not.mpr hd), if_neg h0, List.mem_cons, List.mem_map, ih]
        constructor
        · rintro (rfl | ⟨j, ⟨hj, ha⟩, rfl⟩)
          · exact ⟨Nat.succ_pos n, fun j hj => absurd hj (Nat.not_lt_zero j)⟩
          · refine ⟨by omega, fun k hk => ?_⟩
            rcases k with _ | k
            · exact ⟨hd, h0⟩
            · have := ha k (by omega)
              rwa [Mem.off_apply, Mem.off_apply, Nat.add_comm] at this
        · rintro ⟨hn, ha⟩
          rcases i with _ | i
          · exact .inl rfl
          · refine .inr ⟨i, ⟨by omega, fun j hj => ?_⟩, rfl⟩
            have := ha (j + 1) (by omega)
            rwa [Mem.off_apply, Mem.off_apply, Nat.add_comm 1 j]
    · simp only [strncmpReads, if_pos hd, List.mem_singleton]
      exact hstop fun h => hd h.1

/-- Against a string of length `n` nothing is read past its NUL. -/
theorem strncmpReads_le {s t : Mem} {w : List UInt8} {n i : Nat} (hw : Spells s w ∨ Spells t w)
    (hi : i ∈ strncmpReads s t n) : i ≤ w.length := by
  obtain ⟨-, ha⟩ := mem_strncmpReads.mp hi
  by_contra hlt
  obtain ⟨heq, hne⟩ := ha w.length (by omega)
  rcases hw with hs | ht
  · exact hne hs.nul
  · exact hne (heq.trans ht.nul)

end CLib
