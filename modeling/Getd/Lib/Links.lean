import Mathlib.Data.List.Nodup
import Mathlib.Logic.Function.Basic

/-!
# Lists of nodes that carry their links

A node of such a list has a field for the next node. `Link` is what the field holds and
`Seg next e xs` says that the fields lead through the nodes `xs` and on to `e`. A segment
is cut and joined as its list is (`seg_append`), a field outside it does not matter
(`seg_update`), and its end is led elsewhere by the field of its last node
(`seg_relink`). So a node is put in (`seg_insert`) and taken out (`seg_erase`).
-/

namespace CLib

/-- What a link field holds: a value that is no pointer, for a node in no list, NULL, or a
node. -/
inductive Link (α : Type) where
  | out
  | null
  | node (a : α)
  deriving DecidableEq

variable {α : Type} {next next' : α → Link α} {e e' : Link α} {a : α} {as bs xs : List α}

/-- The link to the first of `xs`, or to what follows when there is none. -/
def Link.first (e : Link α) : List α → Link α
  | [] => e
  | a :: _ => .node a

@[simp] theorem Link.first_nil : Link.first e ([] : List α) = e := rfl

@[simp] theorem Link.first_cons : Link.first e (a :: xs) = .node a := rfl

theorem Link.first_append (as bs : List α) :
    Link.first e (as ++ bs) = Link.first (Link.first e bs) as := by
  cases as <;> rfl

/-- The last of `xs`, whatever stands before it. -/
theorem Link.last_append (h : xs ≠ []) (as : List α) :
    Link.first e (xs.reverse ++ as) = Link.first .null xs.reverse := by
  have hrev : xs.reverse ≠ [] := fun heq => h (List.reverse_eq_nil_iff.mp heq)
  obtain ⟨a, rest, heq⟩ := List.exists_cons_of_ne_nil hrev
  rw [heq]
  rfl

theorem Link.first_ne_out (xs : List α) : Link.first .null xs ≠ .out := by
  cases xs <;> nofun

@[simp] theorem Link.first_eq_null : Link.first .null xs = .null ↔ xs = [] := by
  cases xs <;> simp

theorem Link.first_eq_node : Link.first .null xs = .node a ↔ xs.head? = some a := by
  cases xs <;> simp

theorem Link.mem_of_first (h : Link.first .null xs = .node a) : a ∈ xs := by
  cases xs with
  | nil => cases h
  | cons b xs =>
    cases h
    exact List.mem_cons_self

theorem Link.last_ne (ha : a ∉ xs) : Link.first .null xs.reverse ≠ .node a :=
  fun h => ha (List.mem_reverse.mp (Link.mem_of_first h))

/-- The fields of `xs` lead through `xs` and on to `e`. -/
def Seg (next : α → Link α) (e : Link α) : List α → Prop
  | [] => True
  | a :: xs => next a = Link.first e xs ∧ Seg next e xs

theorem seg_append :
    Seg next e (as ++ bs) ↔ Seg next (Link.first e bs) as ∧ Seg next e bs := by
  induction as with
  | nil => exact ⟨fun h => ⟨trivial, h⟩, fun h => h.2⟩
  | cons a as ih => rw [List.cons_append, Seg, Seg, ih, Link.first_append, and_assoc]

theorem seg_congr (h : ∀ a ∈ xs, next' a = next a) : Seg next' e xs ↔ Seg next e xs := by
  induction xs with
  | nil => rfl
  | cons a xs ih =>
    rw [Seg, Seg, h a List.mem_cons_self, ih fun b hb => h b (List.mem_cons_of_mem _ hb)]

/-- No field of a node in a list says that it is in none. -/
theorem seg_mem_ne_out (h : Seg next .null xs) (ha : a ∈ xs) : next a ≠ .out := by
  induction xs with
  | nil => cases ha
  | cons b xs ih =>
    rcases List.mem_cons.mp ha with rfl | ha
    · rw [h.1]
      exact Link.first_ne_out xs
    · exact ih h.2 ha

variable [DecidableEq α]

theorem seg_update {l : Link α} (ha : a ∉ xs) : Seg (Function.update next a l) e xs ↔ Seg next e xs :=
  seg_congr fun b hb => Function.update_of_ne (fun heq : b = a => ha (heq ▸ hb)) _ _

/-- The fields after `l` has been written to the one of a node, if there is one. -/
def relink (next : α → Link α) (p l : Link α) : α → Link α :=
  match p with
  | .node a => Function.update next a l
  | .null | .out => next

theorem relink_of_ne {p l : Link α} (h : p ≠ .node a) : relink next p l a = next a := by
  cases p with
  | out | null => rfl
  | node b => exact Function.update_of_ne (fun heq : a = b => h (heq ▸ rfl)) _ _

/-- The last node of a segment leads it elsewhere. -/
theorem seg_relink (hnd : xs.Nodup) (h : Seg next e xs) (e' : Link α) :
    Seg (relink next (Link.first .null xs.reverse) e') e' xs := by
  rcases List.eq_nil_or_concat xs with rfl | ⟨as, a, rfl⟩
  · trivial
  · rw [List.concat_eq_append] at hnd h ⊢
    rw [List.reverse_append]
    show Seg (Function.update next a e') e' (as ++ [a])
    have ha : a ∉ as := fun hmem =>
      List.disjoint_of_nodup_append hnd hmem (List.mem_singleton_self a)
    rw [seg_append] at h ⊢
    exact ⟨(seg_update ha).mpr h.1, Function.update_self _ _ _, trivial⟩

theorem seg_insert (hnd : (as ++ a :: bs).Nodup) (h : Seg next .null (as ++ bs)) :
    Seg (relink (Function.update next a (Link.first .null bs)) (Link.first .null as.reverse) (.node a))
      .null (as ++ a :: bs) := by
  have hdisj := List.disjoint_of_nodup_append hnd
  have has : a ∉ as := fun hmem => hdisj hmem List.mem_cons_self
  have hbs : a ∉ bs := (List.nodup_cons.mp hnd.of_append_right).1
  rw [seg_append] at h
  rw [seg_append]
  refine ⟨seg_relink hnd.of_append_left ((seg_update has).mpr h.1) _, ?_, ?_⟩
  · rw [relink_of_ne (Link.last_ne has), Function.update_self]
  · have hseg : Seg (Function.update next a (Link.first .null bs)) .null bs :=
      (seg_update hbs).mpr h.2
    refine (seg_congr fun b hb => ?_).mpr hseg
    exact relink_of_ne (Link.last_ne fun hmem => hdisj hmem (List.mem_cons_of_mem _ hb))

theorem seg_erase (hnd : (as ++ a :: bs).Nodup) (h : Seg next .null (as ++ a :: bs)) (l : Link α) :
    Seg (Function.update (relink next (Link.first .null as.reverse) (next a)) a l)
      .null (as ++ bs) := by
  have hdisj := List.disjoint_of_nodup_append hnd
  have hmem : a ∉ as ++ bs := fun hmem => by
    rcases List.mem_append.mp hmem with hmem | hmem
    · exact hdisj hmem List.mem_cons_self
    · exact (List.nodup_cons.mp hnd.of_append_right).1 hmem
  rw [seg_append] at h
  rw [seg_update hmem, seg_append, ← h.2.1]
  refine ⟨seg_relink hnd.of_append_left h.1 _, (seg_congr fun b hb => ?_).mpr h.2.2⟩
  exact relink_of_ne (Link.last_ne fun hmem => hdisj hmem (List.mem_cons_of_mem _ hb))

end CLib
