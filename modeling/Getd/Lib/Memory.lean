import Mathlib.Algebra.Ring.Nat
import Mathlib.Data.List.TakeWhile

/-!
# Memory seen from a pointer, and the C string functions

`Mem` is the memory a pointer sees: the byte at every offset from it. The
functions of `<string.h>` are recursions over the bytes they read, in the
order they read them. `Spells m s` is the meaning of a C string: `m` holds the
bytes `s` and then the NUL. Every string function is characterised against it.

`strcmp`, `strlen` and `strcpy` have no bound of their own. What bounds them is
the address space (`addrSpace`): no object is longer.
-/

namespace CLib

/-- The bytes at each offset from a pointer. -/
abbrev Mem := Nat → UInt8

/-- The number of bytes an address can name. -/
def addrSpace : Nat := 2 ^ 64

def chars (s : String) : List UInt8 := s.toList.map fun c => UInt8.ofNat c.toNat

namespace Mem

/-- The pointer advanced by `k`. -/
def off (m : Mem) (k : Nat) : Mem := fun i => m (k + i)

@[simp] theorem off_apply (m : Mem) (k i : Nat) : m.off k i = m (k + i) := rfl

@[simp] theorem off_off (m : Mem) (j k : Nat) : (m.off j).off k = m.off (j + k) := by
  funext i; simp [Nat.add_assoc]

@[simp] theorem off_zero (m : Mem) : m.off 0 = m := by
  funext i; simp

/-- The `n` bytes at offset `k`. -/
def bytes (m : Mem) (k n : Nat) : List UInt8 := (List.range n).map fun i => m (k + i)

@[simp] theorem bytes_length (m : Mem) (k n : Nat) : (m.bytes k n).length = n := by
  simp [bytes]

@[simp] theorem bytes_zero (m : Mem) (k : Nat) : m.bytes k 0 = [] := rfl

@[simp] theorem bytes_getElem (m : Mem) (k n i : Nat) (h : i < (m.bytes k n).length) :
    (m.bytes k n)[i] = m (k + i) := by
  simp [bytes]

@[simp] theorem bytes_off (m : Mem) (j k n : Nat) : (m.off j).bytes k n = m.bytes (j + k) n := by
  simp [bytes, Nat.add_assoc]

theorem bytes_succ (m : Mem) (k n : Nat) : m.bytes k (n + 1) = m k :: m.bytes (k + 1) n := by
  simp [bytes, List.range_succ_eq_map, Function.comp_def, Nat.add_assoc, Nat.add_comm 1]

theorem bytes_congr {m m' : Mem} {k n : Nat} :
    m.bytes k n = m'.bytes k n ↔ ∀ i < n, m (k + i) = m' (k + i) := by
  simp [bytes]

theorem bytes_take (m : Mem) (k n j : Nat) : (m.bytes k n).take j = m.bytes k (min j n) := by
  simp [bytes, ← List.map_take, List.take_range]

/-- The little-endian 32-bit word at offset `k`. -/
def u32 (m : Mem) (k : Nat) : Nat :=
  (m k).toNat + 256 * ((m (k + 1)).toNat + 256 * ((m (k + 2)).toNat + 256 * (m (k + 3)).toNat))

theorem le_u32_top (m : Mem) (k : Nat) : 16777216 * (m (k + 3)).toNat ≤ m.u32 k := by
  unfold u32; omega

theorem u32_congr {m m' : Mem} {k : Nat} (h : ∀ i < 4, m (k + i) = m' (k + i)) :
    m.u32 k = m'.u32 k := by
  have h0 : m k = m' k := h 0 (by omega)
  unfold u32
  rw [h0, h 1 (by omega), h 2 (by omega), h 3 (by omega)]

@[simp] theorem u32_off (m : Mem) (j k : Nat) : (m.off j).u32 k = m.u32 (j + k) := by
  simp [u32, Nat.add_assoc]

end Mem

/-! ## The string functions -/

def strnlen : Mem → Nat → Nat
  | _, 0 => 0
  | s, n + 1 => if s 0 = 0 then 0 else strnlen (s.off 1) n + 1

def strlen (s : Mem) : Nat := strnlen s addrSpace

def strncmp : Mem → Mem → Nat → Int
  | _, _, 0 => 0
  | s, t, n + 1 =>
    if s 0 ≠ t 0 then (s 0).toNat - (t 0).toNat
    else if s 0 = 0 then 0
    else strncmp (s.off 1) (t.off 1) n

def strcmp (s t : Mem) : Int := strncmp s t addrSpace

/-- The characters of the C string at `s`, without its NUL. -/
def cstr (s : Mem) : List UInt8 := s.bytes 0 (strlen s)

/-- `m` holds the C string `s`: its bytes, none of them NUL, and then a NUL. -/
def Spells : Mem → List UInt8 → Prop
  | m, [] => m 0 = 0
  | m, b :: s => m 0 = b ∧ b ≠ 0 ∧ Spells (m.off 1) s

instance : ∀ (m : Mem) (s : List UInt8), Decidable (Spells m s)
  | m, [] => inferInstanceAs (Decidable (m 0 = 0))
  | m, b :: s =>
    have : Decidable (Spells (m.off 1) s) := instDecidableSpells (m.off 1) s
    inferInstanceAs (Decidable (m 0 = b ∧ b ≠ 0 ∧ Spells (m.off 1) s))

/-! ## `Spells` -/

theorem Spells.bytes {m : Mem} : ∀ {s : List UInt8}, Spells m s → m.bytes 0 s.length = s
  | [], _ => rfl
  | b :: s, ⟨h0, _, h⟩ => by
    have ih := h.bytes
    rw [Mem.bytes_off] at ih
    rw [List.length_cons, Mem.bytes_succ, h0, ih]

theorem Spells.nul {m : Mem} : ∀ {s : List UInt8}, Spells m s → m s.length = 0
  | [], h => h
  | b :: s, ⟨_, _, h⟩ => by
    have ih := h.nul
    rwa [Mem.off_apply, Nat.add_comm] at ih

theorem Spells.ne_nul {m : Mem} : ∀ {s : List UInt8}, Spells m s → 0 ∉ s
  | [], _ => by simp
  | b :: s, ⟨_, hb, h⟩ => by
    have ih := h.ne_nul
    simp only [List.mem_cons, not_or]
    exact ⟨Ne.symm hb, ih⟩

theorem spells_iff {m : Mem} {s : List UInt8} :
    Spells m s ↔ m.bytes 0 s.length = s ∧ m s.length = 0 ∧ 0 ∉ s := by
  refine ⟨fun h => ⟨h.bytes, h.nul, h.ne_nul⟩, ?_⟩
  rintro ⟨hb, hn, hs⟩
  induction s generalizing m with
  | nil => exact hn
  | cons b s ih =>
    rw [List.length_cons, Mem.bytes_succ, List.cons.injEq] at hb
    rw [List.mem_cons, not_or] at hs
    refine ⟨hb.1, Ne.symm hs.1, ih ?_ ?_ hs.2⟩
    · simpa using hb.2
    · rwa [Mem.off_apply, Nat.add_comm]

/-- A string put together from bytes and the string behind them. -/
theorem spells_append {m : Mem} {s t : List UInt8} (hs : m.bytes 0 s.length = s) (h0 : 0 ∉ s)
    (ht : Spells (m.off s.length) t) : Spells m (s ++ t) := by
  induction s generalizing m with
  | nil => simpa using ht
  | cons b s ih =>
    rw [List.length_cons, Mem.bytes_succ, List.cons.injEq] at hs
    rw [List.mem_cons, not_or] at h0
    refine ⟨hs.1, Ne.symm h0.1, ih ?_ h0.2 ?_⟩
    · rw [Mem.bytes_off]
      exact hs.2
    · rwa [Mem.off_off, Nat.add_comm]

theorem Spells.get {m : Mem} {s : List UInt8} (h : Spells m s) {i : Nat} (hi : i < s.length) :
    m i = s[i] := by
  have hb := congrArg (fun l : List UInt8 => l[i]?) h.bytes
  simpa [hi, List.getElem?_eq_getElem] using hb

theorem Spells.unique {m : Mem} {s t : List UInt8} (hs : Spells m s) (ht : Spells m t) : s = t := by
  induction s generalizing m t with
  | nil =>
    cases t with
    | nil => rfl
    | cons c t => exact absurd (ht.1.symm.trans hs) ht.2.1
  | cons b s ih =>
    cases t with
    | nil => exact absurd (hs.1.symm.trans ht) hs.2.1
    | cons c t =>
      have hbc : b = c := hs.1.symm.trans ht.1
      rw [hbc, ih hs.2.2 ht.2.2]

/-- A C string depends only on its characters and its NUL. -/
theorem Spells.congr {m m' : Mem} {s : List UInt8} (h : Spells m s)
    (he : ∀ i ≤ s.length, m' i = m i) : Spells m' s := by
  rw [spells_iff] at h ⊢
  refine ⟨?_, (he _ (Nat.le_refl _)).trans h.2.1, h.2.2⟩
  refine Eq.trans ?_ h.1
  rw [Mem.bytes_congr]
  intro i hi
  simpa using he i (Nat.le_of_lt hi)

/-- A list with a NUL in it spells what stands before its first NUL. -/
theorem spells_takeWhile {l : List UInt8} {m : Mem} (hm : ∀ i (h : i < l.length), m i = l[i])
    (h0 : 0 ∈ l) : Spells m (l.takeWhile (· ≠ 0)) := by
  induction l generalizing m with
  | nil => simp at h0
  | cons b l ih =>
    have hb : m 0 = b := hm 0 (by simp)
    by_cases hz : b = 0
    · rw [List.takeWhile_cons_of_neg (by simpa using hz)]
      exact hb.trans hz
    · have hl : 0 ∈ l := (List.mem_cons.mp h0).resolve_left (Ne.symm hz)
      rw [List.takeWhile_cons_of_pos (by simpa using hz)]
      refine ⟨hb, hz, ih (fun i hi => ?_) hl⟩
      have := hm (i + 1) (by simpa using hi)
      simpa [Nat.add_comm] using this

/-- A list that holds a string and its NUL, and then anything. -/
theorem Spells.takeWhile {m : Mem} {s : List UInt8} (h : Spells m s) {l : List UInt8}
    (hl : ∀ i (hi : i < l.length), i ≤ s.length → l[i] = m i) (hs : s.length < l.length) :
    l.takeWhile (· ≠ 0) = s := by
  induction s generalizing m l with
  | nil =>
    obtain ⟨b, l, rfl⟩ := List.exists_cons_of_length_pos hs
    have hb : b = 0 := (hl 0 hs (Nat.le_refl _)).trans h
    rw [hb, List.takeWhile_cons_of_neg (by simp)]
  | cons c s ih =>
    obtain ⟨b, l, rfl⟩ := List.exists_cons_of_length_pos (Nat.zero_lt_of_lt hs)
    have hb : b = c := (hl 0 (Nat.zero_lt_of_lt hs) (Nat.zero_le _)).trans h.1
    rw [hb, List.takeWhile_cons_of_pos (by simpa using h.2.1)]
    refine congrArg (c :: ·) (ih h.2.2 (fun i hi hle => ?_) (Nat.lt_of_succ_lt_succ hs))
    have := hl (i + 1) (Nat.succ_lt_succ hi) (Nat.succ_le_succ hle)
    rwa [List.getElem_cons_succ, Nat.add_comm] at this

/-! ## What the string functions compute -/

theorem strnlen_le (m : Mem) (n : Nat) : strnlen m n ≤ n := by
  induction n generalizing m with
  | zero => exact Nat.le_refl 0
  | succ n ih =>
    simp only [strnlen]
    split
    · omega
    · have := ih (m.off 1); omega

theorem Spells.strnlen {m : Mem} {s : List UInt8} (h : Spells m s) (n : Nat) :
    strnlen m n = min s.length n := by
  induction s generalizing m n with
  | nil =>
    have h0 : m 0 = 0 := h
    cases n <;> simp [CLib.strnlen, h0]
  | cons b s ih =>
    cases n with
    | zero => simp [CLib.strnlen]
    | succ n =>
      have hb : m 0 ≠ 0 := by rw [h.1]; exact h.2.1
      simp only [CLib.strnlen, if_neg hb, ih h.2.2 n, List.length_cons]
      omega

/-- A scan that stops short of its bound has found the NUL. -/
theorem spells_of_strnlen_lt {m : Mem} {n : Nat} (h : strnlen m n < n) :
    Spells m (m.bytes 0 (strnlen m n)) := by
  induction n generalizing m with
  | zero => omega
  | succ n ih =>
    by_cases h0 : m 0 = 0
    · simp [strnlen, h0, Spells]
    · simp only [strnlen, if_neg h0] at h ⊢
      rw [Mem.bytes_succ]
      refine ⟨rfl, h0, ?_⟩
      have := ih (m := m.off 1) (by omega)
      rwa [Mem.bytes_off] at this

theorem le_strnlen_iff {m : Mem} {n k : Nat} :
    k ≤ strnlen m n ↔ k ≤ n ∧ ∀ i < k, m i ≠ 0 := by
  induction n generalizing m k with
  | zero =>
    simp only [strnlen, Nat.le_zero]
    exact ⟨fun h => ⟨h, fun i hi => absurd hi (by omega)⟩, fun h => h.1⟩
  | succ n ih =>
    rcases k with _ | k
    · exact iff_of_true (Nat.zero_le _) ⟨Nat.zero_le _, fun i hi => absurd hi (Nat.not_lt_zero i)⟩
    · by_cases h0 : m 0 = 0
      · simp only [strnlen, if_pos h0]
        exact iff_of_false (Nat.not_succ_le_zero k) fun h => h.2 0 (Nat.succ_pos k) h0
      · simp only [strnlen, if_neg h0, Nat.succ_le_succ_iff]
        rw [ih]
        refine and_congr_right fun _ => ⟨fun h i hi => ?_, fun h i hi => ?_⟩
        · rcases i with _ | i
          · exact h0
          · have := h i (by omega)
            rwa [Mem.off_apply, Nat.add_comm] at this
        · rw [Mem.off_apply, Nat.add_comm]
          exact h (i + 1) (by omega)

theorem strnlen_ne_nul {m : Mem} {n i : Nat} (hi : i < strnlen m n) : m i ≠ 0 :=
  (le_strnlen_iff.mp (Nat.succ_le_of_lt hi)).2 i (Nat.lt_succ_self i)

theorem strnlen_nul {m : Mem} {n : Nat} (h : strnlen m n < n) : m (strnlen m n) = 0 := by
  have hs := (spells_of_strnlen_lt h).nul
  rwa [Mem.bytes_length] at hs

/-- `strnlen` reads nothing at its bound or past it. -/
theorem strnlen_congr {m m' : Mem} {n : Nat} (h : ∀ i < n, m i = m' i) :
    strnlen m n = strnlen m' n := by
  induction n generalizing m m' with
  | zero => rfl
  | succ n ih =>
    have h0 : m 0 = m' 0 := h 0 (by omega)
    have h1 : strnlen (m.off 1) n = strnlen (m'.off 1) n :=
      ih fun i hi => by simpa using h (1 + i) (by omega)
    simp only [strnlen, h0, h1]

/-- `strnlen` reads nothing past the NUL it finds. -/
theorem strnlen_agree {m m' : Mem} {n : Nat} (h : ∀ i ≤ strnlen m n, m' i = m i) :
    strnlen m' n = strnlen m n := by
  rcases Nat.lt_or_ge (strnlen m n) n with hlt | hge
  · have hs := spells_of_strnlen_lt hlt
    rw [(hs.congr (by rwa [Mem.bytes_length])).strnlen, Mem.bytes_length]
    omega
  · have hle := strnlen_le m n
    exact strnlen_congr fun i hi => h i (by omega)

theorem Spells.strlen {m : Mem} {s : List UInt8} (h : Spells m s) (hs : s.length ≤ addrSpace) :
    strlen m = s.length := by
  rw [CLib.strlen, h.strnlen]; omega

theorem Spells.cstr {m : Mem} {s : List UInt8} (h : Spells m s) (hs : s.length ≤ addrSpace) :
    cstr m = s := by
  rw [CLib.cstr, h.strlen hs, h.bytes]

/-- The two strings agree through a common NUL, or through the first `n` bytes. -/
def AgreeTo (s t : Mem) (n : Nat) : Prop :=
  (∃ k < n, (∀ i ≤ k, s i = t i) ∧ t k = 0) ∨ ∀ i < n, s i = t i

/-- **`strncmp` is zero** exactly on strings that agree up to the NUL or the bound. -/
theorem strncmp_eq_zero_iff {s t : Mem} {n : Nat} : strncmp s t n = 0 ↔ AgreeTo s t n := by
  induction n generalizing s t with
  | zero => simp [strncmp, AgreeTo]
  | succ n ih =>
    simp only [strncmp]
    split
    · -- the first bytes differ
      next h =>
      have hd : ((s 0).toNat : Int) - (t 0).toNat ≠ 0 := by
        intro e
        exact h (UInt8.toNat_inj.mp (by omega))
      refine iff_of_false hd ?_
      rintro (⟨k, _, hk, _⟩ | ha)
      · exact h (hk 0 (by omega))
      · exact h (ha 0 (by omega))
    · next h =>
      have h0 : s 0 = t 0 := by simpa using h
      split
      · -- a common NUL ends both
        next hz => exact iff_of_true rfl (.inl ⟨0, by omega, fun i hi => by
          rw [Nat.le_zero.mp hi]; exact h0, h0.symm.trans hz⟩)
      · next hz =>
        rw [ih]
        constructor
        · rintro (⟨k, hk, ha, ht⟩ | ha)
          · refine .inl ⟨k + 1, by omega, fun i hi => ?_, by simpa [Nat.add_comm] using ht⟩
            rcases i with _ | i
            · exact h0
            · simpa [Nat.add_comm] using ha i (by omega)
          · refine .inr fun i hi => ?_
            rcases i with _ | i
            · exact h0
            · simpa [Nat.add_comm] using ha i (by omega)
        · rintro (⟨k, hk, ha, ht⟩ | ha)
          · rcases k with _ | k
            · exact absurd (h0.trans ht) hz
            · exact .inl ⟨k, by omega, fun i hi => by simpa using ha (1 + i) (by omega),
                by simpa [Nat.add_comm] using ht⟩
          · exact .inr fun i hi => by simpa using ha (1 + i) (by omega)

/-- Against a C string shorter than the bound, agreeing means spelling it too. -/
theorem agreeTo_spells {s t : Mem} {w : List UInt8} {n : Nat} (ht : Spells t w)
    (hw : w.length < n) : AgreeTo s t n ↔ Spells s w := by
  constructor
  · rintro (⟨k, _, ha, hk⟩ | ha)
    · -- the common NUL is the one that ends `w`
      have hle : w.length ≤ k := by
        by_contra hlt
        have hkw : k < w.length := by omega
        have := ht.get hkw
        rw [hk] at this
        exact ht.ne_nul (this ▸ List.getElem_mem hkw)
      exact ht.congr fun i hi => ha i (by omega)
    · exact ht.congr fun i hi => ha i (by omega)
  · intro hs
    refine .inl ⟨w.length, hw, fun i hi => ?_, ht.nul⟩
    rcases Nat.lt_or_ge i w.length with h | h
    · rw [hs.get h, ht.get h]
    · rw [show i = w.length by omega, hs.nul, ht.nul]

/-- A string as long as the bound is compared without its NUL. -/
theorem agreeTo_full {s t : Mem} {w : List UInt8} (ht : Spells t w) :
    AgreeTo s t w.length ↔ s.bytes 0 w.length = w := by
  have hbytes : s.bytes 0 w.length = w ↔ ∀ i < w.length, s i = t i := by
    rw [← ht.bytes, Mem.bytes_length, Mem.bytes_congr]
    simp only [Nat.zero_add]
  rw [hbytes]
  refine ⟨?_, fun h => .inr h⟩
  rintro (⟨k, hk, -, hz⟩ | h)
  · rw [ht.get hk] at hz
    exact absurd (hz ▸ List.getElem_mem hk) ht.ne_nul
  · exact h

theorem agreeTo_strnlen {s t : Mem} {w : List UInt8} {n : Nat} (ht : Spells t w)
    (h : AgreeTo s t n) : strnlen s n = min w.length n := by
  rcases Nat.lt_or_ge w.length n with hw | hw
  · exact ((agreeTo_spells ht hw).mp h).strnlen n
  · rw [← ht.strnlen n]
    refine strnlen_congr fun i hi => ?_
    rcases h with ⟨k, hk, -, hz⟩ | ha
    · -- the string is longer than the bound, so there is no common NUL
      have hkw : k < w.length := by omega
      rw [ht.get hkw] at hz
      exact absurd (hz ▸ List.getElem_mem hkw) ht.ne_nul
    · exact ha i hi

/-- **`strcmp` is zero** on a C string exactly when the other side spells it too. -/
theorem strcmp_eq_zero_iff {s t : Mem} {w : List UInt8} (ht : Spells t w)
    (hw : w.length < addrSpace) : strcmp s t = 0 ↔ Spells s w := by
  rw [strcmp, strncmp_eq_zero_iff, agreeTo_spells ht hw]

theorem strncmp_congr {s s' t t' : Mem} {n : Nat} (hs : ∀ i < n, s i = s' i)
    (ht : ∀ i < n, t i = t' i) : strncmp s t n = strncmp s' t' n := by
  induction n generalizing s s' t t' with
  | zero => rfl
  | succ n ih =>
    have hs0 : s 0 = s' 0 := hs 0 (Nat.succ_pos n)
    have ht0 : t 0 = t' 0 := ht 0 (Nat.succ_pos n)
    have h1 : strncmp (s.off 1) (t.off 1) n = strncmp (s'.off 1) (t'.off 1) n :=
      ih (fun i hi => hs (1 + i) (by omega)) fun i hi => ht (1 + i) (by omega)
    simp only [strncmp, hs0, ht0, h1]

/-- Two spellings of one string compare equal under every bound. -/
theorem strncmp_of_spells {s t : Mem} {w : List UInt8} (hs : Spells s w) (ht : Spells t w)
    (n : Nat) : strncmp s t n = 0 := by
  rw [strncmp_eq_zero_iff]
  rcases Nat.lt_or_ge w.length n with h | h
  · exact (agreeTo_spells ht h).mpr hs
  · exact .inr fun i hi => by rw [hs.get (by omega), ht.get (by omega)]

/-- Against bytes without NUL `strncmp` looks for a prefix of the string. -/
theorem strncmp_prefix_iff {s t : Mem} {w : List UInt8} {n : Nat} (hs : Spells s w)
    (ht : ∀ i < n, t i ≠ 0) : strncmp s t n = 0 ↔ t.bytes 0 n <+: w := by
  rw [strncmp_eq_zero_iff]
  constructor
  · rintro (⟨k, hk, -, hz⟩ | ha)
    · exact absurd hz (ht k hk)
    · have hn : n ≤ w.length := by
        by_contra hlt
        exact ht w.length (by omega) ((ha w.length (by omega)).symm.trans hs.nul)
      have htake : w.take n = t.bytes 0 n :=
        calc w.take n = (s.bytes 0 w.length).take n := by rw [hs.bytes]
          _ = s.bytes 0 n := by rw [Mem.bytes_take, Nat.min_eq_left hn]
          _ = t.bytes 0 n := Mem.bytes_congr.mpr fun i hi => by rw [Nat.zero_add]; exact ha i hi
      rw [← htake]
      exact List.take_prefix n w
  · intro hp
    refine .inr fun i hi => ?_
    have hlen : (t.bytes 0 n).length = n := Mem.bytes_length ..
    have hle := hp.length_le
    have hget := hp.getElem (i := i) (by omega)
    rw [Mem.bytes_getElem, Nat.zero_add] at hget
    rw [hs.get (by omega), hget]

/-! ## Copying -/

/-- What `strcpy` leaves in the `k`-th byte of its target, which held `old`. -/
theorem cstr_getD {src : Mem} {k : Nat} {old : UInt8} (hk : k < addrSpace) :
    (cstr src ++ [0]).getD k old = if k ≤ strlen src then src k else old := by
  have hlen : (cstr src).length = strlen src := by simp [cstr]
  rw [List.getD_eq_getElem?_getD]
  rcases Nat.lt_trichotomy k (strlen src) with h | h | h
  · rw [if_pos (Nat.le_of_lt h), List.getElem?_append_left (by omega),
      List.getElem?_eq_getElem (by omega)]
    simp only [cstr, Mem.bytes_getElem, Nat.zero_add, Option.getD_some]
  · rw [if_pos (Nat.le_of_eq h), List.getElem?_append_right (by omega), hlen, h, Nat.sub_self]
    exact (strnlen_nul (by rw [← strlen, ← h]; omega)).symm
  · rw [if_neg (Nat.not_le_of_lt h), List.getElem?_eq_none (by simp [hlen]; omega),
      Option.getD_none]

/-- A byte that is copied depends on the string up to its NUL, and not on what
lies past the byte. -/
theorem cstr_getD_congr {src src' : Mem} {n k : Nat} (h : AgreeTo src src' n) (hk : k < n)
    (hn : n ≤ addrSpace) (old : UInt8) :
    (cstr src ++ [0]).getD k old = (cstr src' ++ [0]).getD k old := by
  have hle : ∀ {s : Mem}, k ≤ strlen s ↔ ∀ j < k, s j ≠ 0 :=
    le_strnlen_iff.trans ⟨fun h => h.2, fun h => ⟨by omega, h⟩⟩
  rw [cstr_getD (by omega), cstr_getD (by omega)]
  rcases h with ⟨l, hl, ha, hz⟩ | ha
  · rcases Nat.lt_or_ge l k with hlk | hlk
    · -- both strings have ended
      rw [if_neg, if_neg]
      · rw [hle]
        exact fun h => h l hlk hz
      · rw [hle]
        exact fun h => h l hlk ((ha l (Nat.le_refl l)).trans hz)
    · have hsame : k ≤ strlen src ↔ k ≤ strlen src' := by
        rw [hle, hle]
        exact forall₂_congr fun j hj => by rw [ha j (by omega)]
      exact if_congr hsame (ha k hlk) rfl
  · have hsame : k ≤ strlen src ↔ k ≤ strlen src' := by
      rw [hle, hle]
      exact forall₂_congr fun j hj => by rw [ha j (by omega)]
    exact if_congr hsame (ha k hk) rfl

/-! ## One byte changed -/

def Mem.set (m : Mem) (k : Nat) (x : UInt8) : Mem := fun i => if i = k then x else m i

theorem Mem.set_self (m : Mem) (k : Nat) (x : UInt8) : m.set k x k = x := if_pos rfl

theorem Mem.set_other (m : Mem) {k i : Nat} (x : UInt8) (h : i ≠ k) : m.set k x i = m i := if_neg h

theorem Mem.set_off (m : Mem) (j k : Nat) (x : UInt8) :
    (m.set (j + k) x).off j = (m.off j).set k x := by
  funext i
  simp only [Mem.off_apply, Mem.set, Nat.add_left_cancel_iff]

/-- Up to its NUL every byte of a string matters to `strnlen`. -/
theorem exists_strnlen_ne {m : Mem} {n k : Nat} (hk : k ≤ strnlen m n) (hn : k < n) :
    ∃ x, strnlen (m.set k x) n ≠ strnlen m n := by
  rcases Nat.lt_or_eq_of_le hk with hlt | heq
  · -- a NUL before the end
    refine ⟨0, fun h => ?_⟩
    rw [← h] at hlt
    exact strnlen_ne_nul hlt (Mem.set_self m k 0)
  · -- no NUL at the end
    refine ⟨1, fun h => ?_⟩
    have hnul := strnlen_nul (m := m.set k 1) (n := n) (by omega)
    rw [h, ← heq, Mem.set_self] at hnul
    exact absurd hnul (by decide)

/-- Up to the NUL of the other string every byte matters to `strcmp`. -/
theorem exists_strcmp_ne {s t : Mem} {k : Nat} (hk : k ≤ strlen t) (hn : k < addrSpace) :
    ∃ x, strcmp (s.set k x) t ≠ 0 := by
  refine ⟨t k + 1, fun h => ?_⟩
  have hne : s.set k (t k + 1) k ≠ t k := by
    rw [Mem.set_self]
    intro h
    simp at h
  rcases strncmp_eq_zero_iff.mp h with ⟨j, -, ha, hj⟩ | ha
  · rcases Nat.lt_or_ge j k with hjk | hjk
    · exact strnlen_ne_nul (Nat.lt_of_lt_of_le hjk hk) hj
    · exact hne (ha k hjk)
  · exact hne (ha k hn)

end CLib
