import Getd.Nanomsg.Queue

/-!
# Lists

`utils/list.c`: lists of items that carry a link to either side. An item is put before
another or at the end (`insert_chained`), and is taken out wherever it stands
(`erase_chained`).
-/

namespace Nanomsg

open CLib

variable {α : Type}

structure Links (α : Type) where
  prev : α → Link α
  next : α → Link α

/-- `struct nn_list`. -/
structure NnList (α : Type) where
  first : Link α
  last : Link α

def nnListInit : NnList α := ⟨.null, .null⟩

/-- The items in the list are `xs`. No others are in any. -/
structure Chained (l : Links α) (q : NnList α) (xs : List α) : Prop where
  nodup : xs.Nodup
  first : q.first = Link.first .null xs
  last : q.last = Link.first .null xs.reverse
  next : Seg l.next .null xs
  prev : Seg l.prev .null xs.reverse
  out : ∀ a, a ∉ xs → l.prev a = .out ∧ l.next a = .out

variable {l : Links α} {q : NnList α} {as bs : List α} {a : α}

theorem Chained.next_eq (h : Chained l q (as ++ a :: bs)) : l.next a = Link.first .null bs :=
  (seg_append.mp h.next).2.1

theorem Chained.prev_eq (h : Chained l q (as ++ a :: bs)) : l.prev a = Link.first .null as.reverse := by
  have hprev := h.prev
  rw [List.reverse_append, List.reverse_cons, List.append_assoc, seg_append] at hprev
  exact hprev.2.1

variable [DecidableEq α]

def nnListInsert (l : Links α) (self : NnList α) (item : α) (it : Link α) :
    Except Fault (Links α × NnList α) :=
  if l.prev item ≠ .out then .error .assertion
  else
    let before := match it with
      | .node a => l.prev a
      | .null => self.last
      | .out => .out
    if before = .out then .error .pointer
    else
      let prev := Function.update l.prev item before
      let next := relink (Function.update l.next item it) before (.node item)
      let prev := relink prev (next item) (.node item)
      let first := if self.first = .null ∨ self.first = it then .node item else self.first
      let last := if it = .null then .node item else self.last
      .ok (⟨prev, next⟩, ⟨first, last⟩)

def nnListErase (l : Links α) (self : NnList α) (item : α) : Except Fault (Links α × NnList α) :=
  if l.prev item = .out then .error .assertion
  else if l.next item = .out then .error .pointer
  else
    let next := relink l.next (l.prev item) (l.next item)
    let first := if l.prev item = .null then l.next item else self.first
    let prev := relink l.prev (l.next item) (l.prev item)
    let last := if l.next item = .null then l.prev item else self.last
    .ok (⟨Function.update prev item .out, Function.update next item .out⟩, ⟨first, last⟩)

theorem insert_chained (h : Chained l q (as ++ bs)) (ha : a ∉ as ++ bs) : ∃ l' q',
    nnListInsert l q a (Link.first .null bs) = .ok (l', q') ∧ Chained l' q' (as ++ a :: bs) := by
  have hnot := not_or.mp (fun hmem => ha (List.mem_append.mpr hmem))
  have hnd : (as ++ a :: bs).Nodup :=
    List.nodup_middle.mpr (List.nodup_cons.mpr ⟨ha, h.nodup⟩)
  have hdisj := List.disjoint_of_nodup_append h.nodup
  have hbefore : (match Link.first .null bs with
      | .node b => l.prev b
      | .null => q.last
      | .out => .out) = Link.first .null as.reverse := by
    cases bs with
    | nil => rw [List.append_nil] at h; exact h.last
    | cons b bs => exact h.prev_eq
  have hnext : relink (Function.update l.next a (Link.first .null bs)) (Link.first .null as.reverse)
      (.node a) a = Link.first .null bs := by
    rw [relink_of_ne (Link.last_ne hnot.1), Function.update_self]
  have hinsert : nnListInsert l q a (Link.first .null bs) = .ok
      (⟨relink (Function.update l.prev a (Link.first .null as.reverse)) (Link.first .null bs) (.node a),
        relink (Function.update l.next a (Link.first .null bs)) (Link.first .null as.reverse) (.node a)⟩,
       ⟨if q.first = .null ∨ q.first = Link.first .null bs then .node a else q.first,
        if Link.first .null bs = .null then .node a else q.last⟩) := by
    simp only [nnListInsert, (h.out a ha).1, hbefore, hnext, Link.first_ne_out, ne_eq, not_true_eq_false,
      if_false]
  refine ⟨_, _, hinsert, hnd, ?_, ?_, seg_insert hnd h.next, ?_, fun b hb => ?_⟩
  · rw [h.first]
    cases as with
    | nil => exact if_pos (.inr rfl)
    | cons c as =>
      refine if_neg ?_
      rintro (hnull | hfirst)
      · cases hnull
      · exact hdisj List.mem_cons_self (Link.mem_of_first hfirst.symm)
  · show (if Link.first .null bs = .null then .node a else q.last) = _
    rw [h.last, List.reverse_append, List.reverse_append, List.reverse_cons, List.append_assoc]
    by_cases hnil : bs = []
    · subst hnil
      exact if_pos rfl
    · rw [if_neg fun heq => hnil (Link.first_eq_null.mp heq), Link.last_append hnil,
        Link.last_append hnil]
  · have hprev := h.prev
    have hrev := List.nodup_reverse.mpr hnd
    rw [List.reverse_append, List.reverse_cons, List.append_assoc] at hrev ⊢
    rw [List.reverse_append] at hprev
    have hseg := seg_insert hrev hprev
    rwa [List.reverse_reverse] at hseg
  · rw [List.mem_append, List.mem_cons, not_or, not_or] at hb
    have hout := h.out b fun hmem => (List.mem_append.mp hmem).elim hb.1 hb.2.2
    have hbs : Link.first .null bs ≠ .node b := fun heq => hb.2.2 (Link.mem_of_first heq)
    dsimp only
    rw [relink_of_ne hbs, relink_of_ne (Link.last_ne hb.1), Function.update_of_ne hb.2.1,
      Function.update_of_ne hb.2.1]
    exact hout

theorem erase_chained (h : Chained l q (as ++ a :: bs)) : ∃ l' q',
    nnListErase l q a = .ok (l', q') ∧ Chained l' q' (as ++ bs) := by
  have hnext := h.next_eq
  have hprev := h.prev_eq
  have herase : nnListErase l q a = .ok
      (⟨Function.update (relink l.prev (Link.first .null bs) (l.prev a)) a .out,
        Function.update (relink l.next (Link.first .null as.reverse) (l.next a)) a .out⟩,
       ⟨if l.prev a = .null then l.next a else q.first,
        if l.next a = .null then l.prev a else q.last⟩) := by
    simp only [nnListErase, hnext, hprev, Link.first_ne_out, if_false]
  obtain ⟨hnot, hnd⟩ := List.nodup_cons.mp (List.nodup_middle.mp h.nodup)
  refine ⟨_, _, herase, hnd, ?_, ?_, seg_erase h.nodup h.next .out, ?_, fun b hb => ?_⟩
  · show (if l.prev a = .null then l.next a else q.first) = _
    rw [hprev, h.first, hnext]
    cases as with
    | nil => exact if_pos rfl
    | cons c as =>
      have hne : (c :: as).reverse ≠ [] := List.reverse_ne_nil_iff.mpr (List.cons_ne_nil c as)
      exact if_neg fun heq => hne (Link.first_eq_null.mp heq)
  · show (if l.next a = .null then l.prev a else q.last) = _
    rw [hprev, h.last, hnext, List.reverse_append, List.reverse_append, List.reverse_cons,
      List.append_assoc]
    by_cases hnil : bs = []
    · subst hnil
      exact if_pos rfl
    · rw [if_neg fun heq => hnil (Link.first_eq_null.mp heq), Link.last_append hnil,
        Link.last_append hnil]
  · have hseg := h.prev
    have hrev := List.nodup_reverse.mpr h.nodup
    rw [List.reverse_append, List.reverse_cons, List.append_assoc] at hrev hseg
    rw [List.reverse_append]
    have herased := seg_erase hrev hseg .out
    rwa [List.reverse_reverse] at herased
  · by_cases heq : b = a
    · subst heq
      exact ⟨Function.update_self _ _ _, Function.update_self _ _ _⟩
    · have hno := not_or.mp (fun hmem => hb (List.mem_append.mpr hmem))
      have hbs : Link.first .null bs ≠ .node b := fun heq => hno.2 (Link.mem_of_first heq)
      dsimp only
      rw [Function.update_of_ne heq, Function.update_of_ne heq, relink_of_ne hbs,
        relink_of_ne (Link.last_ne hno.1)]
      refine h.out b fun hmem => ?_
      rcases List.mem_append.mp hmem with hmem | hmem
      · exact hno.1 hmem
      · exact (List.mem_cons.mp hmem).elim heq hno.2

end Nanomsg
