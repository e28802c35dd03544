import Getd.Lib.Links
import Getd.Nanomsg.Conn

/-!
# Queues

`utils/queue.c`: queues of items that carry their link. An item is in one queue at most,
and its link says whether it is in any. The queue of a context that the rest of the model
works with is the list such a queue holds (`raise_push`).
-/

namespace Nanomsg

open CLib

variable {α : Type}

/-- How a call ends that does not return. -/
inductive Fault
  /-- An assertion fails. -/
  | assertion
  /-- A link that is no pointer is followed. -/
  | pointer
  /-- A loop makes more rounds than it was given. -/
  | loop
  deriving DecidableEq

structure Queue (α : Type) where
  head : Link α
  tail : Link α

def nnQueueInit : Queue α := ⟨.null, .null⟩

/-! ## What a queue holds -/

/-- The items in the queue are `xs`. -/
structure Holds (next : α → Link α) (q : Queue α) (xs : List α) : Prop where
  nodup : xs.Nodup
  head : q.head = Link.first .null xs
  tail : q.tail = Link.first .null xs.reverse
  links : Seg next .null xs

variable {next next' : α → Link α} {q : Queue α} {xs : List α} {item a : α} {fuel : Nat}

theorem init_holds (next : α → Link α) : Holds next nnQueueInit [] :=
  ⟨List.nodup_nil, rfl, rfl, trivial⟩

theorem Holds.frame (h : Holds next q xs) (hsame : ∀ a ∈ xs, next' a = next a) : Holds next' q xs :=
  ⟨h.nodup, h.head, h.tail, (seg_congr hsame).mpr h.links⟩

theorem Holds.notMem (h : Holds next q xs) (hout : next item = .out) : item ∉ xs :=
  fun hmem => seg_mem_ne_out h.links hmem hout

variable [DecidableEq α]

/-! ## The operations -/

def nnQueuePush (next : α → Link α) (q : Queue α) (item : α) :
    Except Fault ((α → Link α) × Queue α) :=
  if next item ≠ .out then .error .assertion
  else
    let next := Function.update next item .null
    let head := if q.head = .null then .node item else q.head
    if q.tail = .out then .error .pointer
    else .ok (relink next q.tail (.node item), ⟨head, .node item⟩)

def nnQueuePop (next : α → Link α) (q : Queue α) :
    Except Fault ((α → Link α) × Queue α × Option α) :=
  match q.head with
  | .null => .ok (next, q, none)
  | .out => .error .pointer
  | .node result =>
    let head := next result
    let tail := if head = .null then .null else q.tail
    .ok (Function.update next result .out, ⟨head, tail⟩, some result)

/-- The loop of `nn_queue_remove`, for so many rounds at most. -/
def removeLoop (next : α → Link α) (q : Queue α) (item : α) :
    Nat → Link α → Link α → Except Fault ((α → Link α) × Queue α)
  | 0, _, _ => .error .loop
  | n + 1, prev, it =>
    match it with
    | .null => .ok (next, q)
    | .out => .error .pointer
    | .node a =>
      if a = item then
        let head := if q.head = .node a then next a else q.head
        let tail := if q.tail = .node a then prev else q.tail
        .ok (Function.update (relink next prev (next a)) item .out, ⟨head, tail⟩)
      else removeLoop next q item n (.node a) (next a)

def nnQueueRemove (fuel : Nat) (next : α → Link α) (q : Queue α) (item : α) :
    Except Fault ((α → Link α) × Queue α) :=
  if next item = .out then .ok (next, q) else removeLoop next q item fuel .null q.head

/-! ## Pushing and popping -/

theorem push_holds (h : Holds next q xs) (hout : next item = .out) : ∃ next' q',
    nnQueuePush next q item = .ok (next', q') ∧ Holds next' q' (xs ++ [item]) ∧
      ∀ a, a ∉ xs ++ [item] → next' a = next a := by
  have hmem := h.notMem hout
  have hptr : q.tail ≠ .out := h.tail ▸ Link.first_ne_out _
  have hpush : nnQueuePush next q item = .ok (relink (Function.update next item .null) q.tail (.node item),
      ⟨if q.head = .null then .node item else q.head, .node item⟩) := by
    simp only [nnQueuePush, hout, hptr, ne_eq, not_true_eq_false, if_false]
  have hnd : (xs ++ [item]).Nodup := List.nodup_append.mpr ⟨h.nodup, List.nodup_singleton _,
    fun a ha b hb heq => hmem (List.mem_singleton.mp hb ▸ heq ▸ ha)⟩
  refine ⟨_, _, hpush, ⟨hnd, ?_, ?_, ?_⟩, fun a ha => ?_⟩
  · rw [h.head]
    cases xs <;> rfl
  · rw [List.reverse_append]
    rfl
  · have hlinks : Seg next .null (xs ++ []) := (List.append_nil xs).symm ▸ h.links
    exact h.tail ▸ seg_insert hnd hlinks
  · rw [List.mem_append, not_or] at ha
    rw [h.tail, relink_of_ne (Link.last_ne ha.1)]
    exact Function.update_of_ne (fun heq => ha.2 (List.mem_singleton.mpr heq)) _ _

theorem pop_nil (h : Holds next q []) : nnQueuePop next q = .ok (next, q, none) := by
  simp only [nnQueuePop, h.head, Link.first_nil]

theorem pop_cons (h : Holds next q (item :: xs)) : ∃ q',
    nnQueuePop next q = .ok (Function.update next item .out, q', some item) ∧
      Holds (Function.update next item .out) q' xs := by
  obtain ⟨hmem, hnd⟩ := List.nodup_cons.mp h.nodup
  have hpop : nnQueuePop next q = .ok (Function.update next item .out,
      ⟨Link.first .null xs, if Link.first .null xs = .null then .null else q.tail⟩, some item) := by
    simp only [nnQueuePop, h.head, Link.first_cons, h.links.1]
  refine ⟨_, hpop, hnd, rfl, ?_, (seg_update hmem).mpr h.links.2⟩
  show (if Link.first .null xs = .null then .null else q.tail) = _
  rw [h.tail, List.reverse_cons]
  by_cases hnil : xs = []
  · rw [if_pos (Link.first_eq_null.mpr hnil), hnil]
    rfl
  · rw [if_neg fun h => hnil (Link.first_eq_null.mp h)]
    exact Link.last_append hnil _

/-! ## An item is taken out -/

/-- The loop when it stands behind `as`. -/
theorem removeLoop_found {as bs cs : List α} (h : Holds next q (as ++ item :: cs))
    (hbs : as ++ item :: cs = xs ++ bs) (hxs : xs.length ≤ as.length) (hfuel : bs.length < fuel) :
    removeLoop next q item fuel (Link.first .null xs.reverse) (Link.first .null bs) =
      .ok (Function.update (relink next (Link.first .null as.reverse) (next item)) item .out,
        ⟨if q.head = .node item then next item else q.head,
          if q.tail = .node item then Link.first .null as.reverse else q.tail⟩) := by
  induction fuel generalizing xs bs with
  | zero => exact absurd hfuel (Nat.not_lt_zero _)
  | succ fuel ih =>
    cases bs with
    | nil =>
      have hlen := congrArg List.length hbs
      simp only [List.length_append, List.length_cons, List.length_nil] at hlen
      omega
    | cons b bs =>
      by_cases heq : xs.length = as.length
      · obtain ⟨rfl, hcons⟩ := List.append_inj' hbs (by
          have hlen := congrArg List.length hbs
          simp only [List.length_append] at hlen
          omega)
        obtain ⟨rfl, rfl⟩ := List.cons.inj hcons
        simp only [removeLoop, Link.first_cons, if_true]
      · have hmem : b ∈ as := by
          have hget := congrArg (fun l : List α => l[xs.length]?) hbs
          simp only [List.getElem?_append_right (Nat.le_refl _), Nat.sub_self, List.getElem?_cons_zero] at hget
          rw [List.getElem?_append_left (by omega)] at hget
          exact List.mem_of_getElem? hget
        have hne : b ≠ item := fun heq => by
          subst heq
          exact List.disjoint_of_nodup_append h.nodup hmem List.mem_cons_self
        have hnext : next b = Link.first .null bs := by
          have hlinks := h.links
          rw [hbs, seg_append] at hlinks
          exact hlinks.2.1
        simp only [removeLoop, Link.first_cons, hne, if_false, hnext]
        have hsplit : as ++ item :: cs = (xs ++ [b]) ++ bs := by
          rw [hbs, List.append_assoc]
          rfl
        have hih := ih hsplit (by rw [List.length_append, List.length_singleton]; omega)
          (by rw [List.length_cons] at hfuel; omega)
        rw [List.reverse_append] at hih
        exact hih

/-- The loop does not find an item of another queue. -/
theorem removeLoop_absent {bs : List α} {prev : Link α} (h : Seg next .null bs) (ha : item ∉ bs)
    (hfuel : bs.length < fuel) :
    removeLoop next q item fuel prev (Link.first .null bs) = .ok (next, q) := by
  induction bs generalizing fuel prev with
  | nil =>
    obtain ⟨fuel, rfl⟩ := Nat.exists_eq_succ_of_ne_zero (Nat.ne_of_gt hfuel)
    rfl
  | cons b bs ih =>
    obtain ⟨fuel, rfl⟩ := Nat.exists_eq_succ_of_ne_zero (Nat.ne_of_gt (Nat.zero_lt_of_lt hfuel))
    rw [List.mem_cons, not_or] at ha
    simp only [removeLoop, Link.first_cons, Ne.symm ha.1, if_false, h.1]
    exact ih h.2 ha.2 (by rw [List.length_cons] at hfuel; omega)

theorem remove_absent (h : Holds next q xs) (ha : item ∉ xs) (hfuel : xs.length < fuel) :
    nnQueueRemove fuel next q item = .ok (next, q) := by
  unfold nnQueueRemove
  split
  · rfl
  · rw [h.head]
    exact removeLoop_absent h.links ha hfuel

theorem remove_holds (h : Holds next q xs) (ha : item ∈ xs) (hfuel : xs.length < fuel) : ∃ next' q',
    nnQueueRemove fuel next q item = .ok (next', q') ∧ Holds next' q' (xs.erase item) ∧
      next' item = .out ∧ ∀ a, a ∉ xs → next' a = next a := by
  obtain ⟨as, cs, rfl⟩ := List.append_of_mem ha
  have hnot : item ∉ as := fun hmem =>
    List.disjoint_of_nodup_append h.nodup hmem List.mem_cons_self
  have herase : (as ++ item :: cs).erase item = as ++ cs := by
    rw [List.erase_append_right _ hnot, List.erase_cons_head]
  have hnotc : item ∉ cs := (List.nodup_cons.mp h.nodup.of_append_right).1
  have hitem : next item = Link.first .null cs := (seg_append.mp h.links).2.1
  have hin : next item ≠ .out := hitem ▸ Link.first_ne_out cs
  have hloop := removeLoop_found h (List.nil_append _).symm (Nat.zero_le _) hfuel
  have hremove : nnQueueRemove fuel next q item = .ok (Function.update (relink next
      (Link.first .null as.reverse) (next item)) item .out, ⟨if q.head = .node item then next item else q.head,
        if q.tail = .node item then Link.first .null as.reverse else q.tail⟩) := by
    rw [nnQueueRemove, if_neg hin, h.head]
    rw [h.head] at hloop
    exact hloop
  refine ⟨_, _, hremove, ⟨h.nodup.erase item, ?_, ?_, ?_⟩, Function.update_self _ _ _,
    fun a hmem => ?_⟩
  · rw [herase, h.head, hitem]
    cases as with
    | nil => exact if_pos rfl
    | cons b as =>
      refine if_neg fun heq => hnot ?_
      cases heq
      exact List.mem_cons_self
  · rw [herase, h.tail, List.reverse_append, List.reverse_append, List.reverse_cons, List.append_assoc]
    by_cases hnil : cs = []
    · subst hnil
      exact if_pos rfl
    · rw [Link.last_append hnil, Link.last_append hnil]
      exact if_neg (Link.last_ne hnotc)
  · rw [herase]
    exact seg_erase h.nodup h.links _
  · rw [List.mem_append, List.mem_cons, not_or, not_or] at hmem
    rw [Function.update_of_ne hmem.2.1]
    exact relink_of_ne (Link.last_ne hmem.1)

/-! ## The events of a context -/

/-- The items of the events that wait. -/
def World.items (w : World) : List (Nat × Item) := w.queue.map fun p => (p.1, p.2.item)

/-- `nn_fsm_raise` on the list is `nn_queue_push` on the queue that holds it. -/
theorem raise_push {w : World} {next : Nat × Item → Link (Nat × Item)} {q : Queue (Nat × Item)}
    (h : Holds next q w.items) (hout : ∀ i, i ∉ w.items → next i = .out) (e : Event) :
    (w.raise e = .error .queuePush ∧ nnQueuePush next q (w.self, e.item) = .error .assertion) ∨
      ∃ w' next' q', w.raise e = .ok w' ∧ nnQueuePush next q (w.self, e.item) = .ok (next', q') ∧
        Holds next' q' w'.items ∧ ∀ i, i ∉ w'.items → next' i = .out := by
  by_cases hmem : (w.self, e.item) ∈ w.items
  · have hin : next (w.self, e.item) ≠ .out := seg_mem_ne_out h.links hmem
    exact .inl ⟨if_pos hmem, if_pos hin⟩
  · obtain ⟨next', q', hpush, hholds, hsame⟩ := push_holds h (hout _ hmem)
    have hitems : ({ w with queue := w.queue ++ [(w.self, e)] } : World).items =
        w.items ++ [(w.self, e.item)] := List.map_append
    refine .inr ⟨{ w with queue := w.queue ++ [(w.self, e)] }, next', q', if_neg hmem, hpush,
      hitems ▸ hholds, fun i hi => ?_⟩
    rw [hitems] at hi
    rw [hsame i hi]
    rw [List.mem_append, not_or] at hi
    exact hout i hi.1

end Nanomsg
