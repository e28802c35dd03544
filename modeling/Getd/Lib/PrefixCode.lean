import Mathlib.Data.List.Basic

/-!
# Prefix codes

`Codec` is a code whose words can be told apart from what follows them: `next`
takes one word off the front of a text. `parse` takes words off as long as there
are any. It undoes `encode` (`parse_encode`), a text has one parse
(`parse_unique`), and a beginning of a text parses to a beginning of its words
(`parse_append`).
-/

namespace CLib

/-- Words `word m` over the letters `β`, and how to take one off a text. -/
structure Codec (μ β : Type) where
  word : μ → List β
  next : List β → Option (μ × List β)
  word_ne_nil : ∀ m, word m ≠ []
  next_eq : ∀ {bs m r}, next bs = some (m, r) → bs = word m ++ r
  next_append : ∀ {bs m r} s, next bs = some (m, r) → next (bs ++ s) = some (m, r ++ s)

namespace Codec

variable {μ β : Type} (C : Codec μ β)

/-- The words of a list of messages, one after the other. -/
def encode (ms : List μ) : List β := ms.flatMap C.word

def parseN : Nat → List β → List μ × List β
  | 0, bs => ([], bs)
  | n + 1, bs =>
    match C.next bs with
    | none => ([], bs)
    | some (m, r) => ((m :: (parseN n r).1), (parseN n r).2)

/-- All words off the front, and what is left. -/
def parse (bs : List β) : List μ × List β := C.parseN bs.length bs

variable {C} {bs r s : List β} {m : μ} {ms : List μ} {n k : Nat}

theorem encode_nil : C.encode [] = [] := rfl

theorem encode_cons (m : μ) (ms : List μ) : C.encode (m :: ms) = C.word m ++ C.encode ms := rfl

theorem encode_append (ms ns : List μ) : C.encode (ms ++ ns) = C.encode ms ++ C.encode ns :=
  List.flatMap_append

theorem encode_singleton (m : μ) : C.encode [m] = C.word m := by
  rw [encode_cons, encode_nil, List.append_nil]

theorem next_length (h : C.next bs = some (m, r)) : r.length < bs.length := by
  have hpos := List.length_pos_iff.mpr (C.word_ne_nil m)
  rw [C.next_eq h, List.length_append]
  omega

/-- More steps than letters change nothing. -/
theorem parseN_eq (hn : bs.length ≤ n) : C.parseN n bs = C.parse bs := by
  suffices h : ∀ k n (bs : List β), bs.length ≤ k → bs.length ≤ n → C.parseN n bs = C.parseN k bs from
    h _ _ _ (Nat.le_refl _) hn
  intro k
  induction k with
  | zero =>
    intro n bs hk _
    have hnil : bs = [] := List.eq_nil_of_length_eq_zero (Nat.le_zero.mp hk)
    have hstop : C.next bs = none := by
      cases h : C.next bs with
      | none => rfl
      | some p =>
        have hlt := next_length h
        rw [hnil] at hlt
        exact absurd hlt (Nat.not_lt_zero _)
    cases n with
    | zero => rfl
    | succ n => simp only [parseN, hstop]
  | succ k ih =>
    intro n bs hk hn
    cases h : C.next bs with
    | none =>
      cases n with
      | zero => simp only [parseN, h]
      | succ n => simp only [parseN, h]
    | some p =>
      have hlt := next_length h
      cases n with
      | zero => omega
      | succ n => simp only [parseN, h, ih n p.2 (by omega) (by omega)]

theorem parse_none (h : C.next bs = none) : C.parse bs = ([], bs) := by
  cases bs with
  | nil => rfl
  | cons b bs => simp only [parse, List.length_cons, parseN, h]

theorem parse_some (h : C.next bs = some (m, r)) :
    C.parse bs = (m :: (C.parse r).1, (C.parse r).2) := by
  have hlt := next_length h
  cases bs with
  | nil => exact absurd hlt (Nat.not_lt_zero _)
  | cons b bs =>
    have hle : r.length ≤ bs.length := Nat.le_of_lt_succ hlt
    simp only [parse, List.length_cons, parseN, h, parseN_eq hle]

/-- Induction along the parse of a text. -/
theorem parse_induction {P : List β → Prop} (hnone : ∀ bs, C.next bs = none → P bs)
    (hsome : ∀ bs m r, C.next bs = some (m, r) → P r → P bs) (bs : List β) : P bs := by
  suffices h : ∀ n (bs : List β), bs.length ≤ n → P bs from h _ bs (Nat.le_refl _)
  intro n
  induction n with
  | zero =>
    intro bs hn
    cases h : C.next bs with
    | none => exact hnone bs h
    | some p => have := next_length h; omega
  | succ n ih =>
    intro bs hn
    cases h : C.next bs with
    | none => exact hnone bs h
    | some p => exact hsome bs p.1 p.2 h (ih p.2 (by have := next_length h; omega))

/-- The words of a beginning are the first words, and parsing goes on from its rest. -/
theorem parse_append (bs s : List β) :
    C.parse (bs ++ s) = ((C.parse bs).1 ++ (C.parse ((C.parse bs).2 ++ s)).1,
      (C.parse ((C.parse bs).2 ++ s)).2) := by
  induction bs using C.parse_induction with
  | hnone bs h => rw [parse_none h, List.nil_append]
  | hsome bs m r h ih => rw [parse_some (C.next_append s h), ih, parse_some h]; rfl

theorem parse_prefix (h : bs <+: s) : (C.parse bs).1 <+: (C.parse s).1 := by
  obtain ⟨r, rfl⟩ := h
  rw [parse_append]
  exact List.prefix_append _ _

/-! ## Messages that `next` gives back -/

/-- `next` takes the word of `m` for `m`. -/
def Readable (C : Codec μ β) (m : μ) : Prop := C.next (C.word m) = some (m, [])

theorem Readable.next (h : C.Readable m) (r : List β) : C.next (C.word m ++ r) = some (m, r) :=
  C.next_append r h

/-- **Round trip**, with anything behind. -/
theorem parse_encode (h : ∀ m ∈ ms, C.Readable m) (s : List β) :
    C.parse (C.encode ms ++ s) = (ms ++ (C.parse s).1, (C.parse s).2) := by
  induction ms with
  | nil => rfl
  | cons m ms ih =>
    have hnext := (h m List.mem_cons_self).next (C.encode ms ++ s)
    rw [encode_cons, List.append_assoc, parse_some hnext,
      ih fun m hm => h m (List.mem_cons_of_mem _ hm)]
    rfl

/-- **One parse.** Readable words and a rest that no word begins. -/
theorem parse_unique (h : ∀ m ∈ ms, C.Readable m) (hr : C.next r = none) :
    C.parse (C.encode ms ++ r) = (ms, r) := by
  rw [parse_encode h, parse_none hr, List.append_nil]

/-- A beginning of a text of readable words is some of the words and a piece of the
next, which is no word. -/
theorem parse_of_prefix (h : ∀ m ∈ ms, C.Readable m) (hp : bs <+: C.encode ms) :
    (C.parse bs).1 <+: ms := by
  have hpre := parse_prefix (C := C) hp
  have hall := parse_encode h []
  have hnil : C.parse ([] : List β) = ([], []) := rfl
  rw [List.append_nil, hnil, List.append_nil] at hall
  rwa [hall] at hpre

end Codec

end CLib
