import Getd.Lib.Reads
import Getd.Lib.Trace
import Getd.Decoding
import Getd.SessionIds

/-!
# The stored session id as a string

`main` leaves `sessionId` as the stack had it, and `MessageType6Handler` hands it to
`strcmp` before it looks at `lastSent`. `sidCalls` lists the calls of unbounded string
functions on it that a round makes; an id in a reply comes from one of them
(`handleCalls_stored`). Each of them meets a string exactly when the array held one
from the start or no acknowledgement comes before the first accepted type 0 message
(`stored_id_iff`).
-/

namespace Getd

open CLib

variable {e : Env} {m : Mem} {g : Daemon} {i : Input}

/-! ## The calls -/

/-- A call of a string function on `state->sessionId`: the `State` it is made on, the
offsets it reads there, and for `strcpy` the number of bytes it stores. -/
structure SidCall where
  state : State
  reads : List Nat
  stored : Option Nat

namespace SidCall

/-- `strcmp(messageType6->sessionId, state->sessionId)`. -/
def strcmp (e : Env) (m : Mem) (g : Daemon) : SidCall :=
  ⟨g.state, strncmpReads (MessageType6.sessionId m) (g.sessionId e) addrSpace, none⟩

/-- `strncmp(state->sessionId, message->sessionId, message->sidLength)`. -/
def strncmp (e : Env) (m : Mem) (g : Daemon) : SidCall :=
  ⟨g.state, strncmpReads (g.sessionId e) (MessageType6.sessionId m) (MessageType6.sidLength m),
    none⟩

def strcpy (e : Env) (g : Daemon) : SidCall :=
  ⟨g.state, strnlenReads (g.sessionId e) addrSpace, some (strlen (g.sessionId e) + 1)⟩

def strlen (e : Env) (g : Daemon) : SidCall :=
  ⟨g.state, strnlenReads (g.sessionId e) addrSpace, none⟩

/-- A NUL occurs within the array, the call reads nothing behind it, and what it
stores fits the field of a reply. -/
structure OnString (c : SidCall) : Prop where
  nul : 0 ∈ c.state.sessionId.toList
  inside : ∀ i ∈ c.reads, i < 129
  fits : ∀ n ∈ c.stored, n ≤ 129

end SidCall

def messageType1BuilderCalls (e : Env) (g : Daemon) : List SidCall := [.strcpy e g, .strlen e g]

/-- The call of `MessegeType4Builder`. The `strlen` behind it reads the copy. -/
def messegeType4BuilderCalls (e : Env) (g : Daemon) : List SidCall := [.strcpy e (g.setLastSent 4)]

/-- The call of `MessegeType5Builder`. -/
def messegeType5BuilderCalls (e : Env) (g : Daemon) : List SidCall :=
  [.strcpy e (g.fclose.setLastSent 5)]

/-- The comparisons at the head of `MessageType6Handler`. The `strncmp` of
`MessageType3Handler` is left out: its bound is 128. -/
def comparisonCalls (e : Env) (m : Mem) (g : Daemon) : List SidCall :=
  if Header.messageType m ≠ 6 then []
  else
    .strcmp e m g ::
    if CLib.strcmp (MessageType6.sessionId m) (g.sessionId e) ≠ 0 then []
    else [.strncmp e m (g.setLastRecieved 6)]

/-- The calls of the builder that makes the reply. What is done to the stream before it
leaves `State` alone. -/
def Due.calls (e : Env) (m : Mem) (g : Daemon) : Due → List SidCall
  | issue _ => messageType1BuilderCalls e (newSession m g)
  | piece _ _ =>
    messegeType4BuilderCalls e (if Header.messageType m = 6 then g.setLastRecieved 6 else g)
  | finish _ => messegeType5BuilderCalls e (g.setLastRecieved 6)
  | error _ | nothing => []

def handleCalls (e : Env) (m : Mem) (g : Daemon) : List SidCall :=
  comparisonCalls e m g ++ (due e m g).calls e m g

def sidCalls (g : Daemon) (i : Input) : List SidCall :=
  let g := { g with buffer := nnRecv g.buffer i.recv }
  handleCalls i.env (view g.buffer i.past) g

/-! ## Calls and replies -/

theorem accepted_calls (ha : Accept0 m g) :
    (due e m g).calls e m g = messageType1BuilderCalls e (newSession m g) := by
  rw [due_type0 ha.type ha.lastSent, if_neg (not_not.mpr ha.ver), Due.calls]

theorem starting_calls {f : File} (ha : Auth3 e m g) (hl : g.state.lastSent = 1)
    (hf : e.fopen (pathOf m) = some f) (hr : f.isReg = true) :
    (due e m g).calls e m g = messegeType4BuilderCalls e g := by
  have h36 : (3 : UInt8) ≠ 6 := by decide
  rw [ha.due, if_neg (not_not.mpr hl), hf]
  simp only [hr, if_true, Due.calls, ha.type, if_neg h36]

theorem sending_calls (ha : Auth6 e m g) (hl : g.state.lastSent = 4) :
    (due e m g).calls e m g = if g.atEof then messegeType5BuilderCalls e (g.setLastRecieved 6)
      else messegeType4BuilderCalls e (g.setLastRecieved 6) := by
  rw [ha.due, if_pos hl]
  cases g.atEof with
  | true => rfl
  | false => exact congrArg (messegeType4BuilderCalls e) (if_pos ha.type)

theorem stored_strcpy (ht : g.state.Terminated) :
    (SidCall.strcpy e g).stored = some (g.state.sid.length + 1) :=
  congrArg (fun n => some (n + 1)) (ht.strlen e.beyond)

/-- **A reply that carries an id** has it from one of the calls, as long as it is. -/
theorem handleCalls_stored (hinv : SessionInv g) {r : Reply} {sid : List UInt8}
    (hr : replyOf (handle e m g) = some r) (hs : r.sessionId? = some sid) :
    ∃ c ∈ handleCalls e m g, c.stored = some (sid.length + 1) := by
  have herr : ∀ (g1 : Daemon) {text : List UInt8}, text.length < 2 ^ 32 →
      replyOf (sendError g1 text) ≠ some r := fun g1 text ht h => by
    rw [replyOf_error g1 ht] at h
    cases h
    cases hs
  have hexit := handle_exit e m g
  generalize handle e m g = out at hexit hr
  cases hexit with
  | busy0 | corrupt0 | corrupt3 | stranger3 | invalid3 | noFile3 | irregular3 | stranger6 | corrupt6
  | invalid6 => exact absurd hr (herr _ (by decide))
  | other => exact absurd hr (herr _ (Nat.lt_of_le_of_lt (invalidType_length_le _) (by decide)))
  | silent6 => exact absurd hr.symm (Option.some_ne_none _)
  | accept0 ht hl hv =>
    have hterm := newSession_terminated m g
    have hmem : .strcpy e (newSession m g) ∈ (due e m g).calls e m g := by
      rw [accepted_calls ⟨ht, hl, hv⟩]
      exact List.mem_cons_self
    generalize newSession m g = g1 at hterm hmem hr
    rw [replyOf_type1 hterm] at hr
    cases hr
    cases hs
    exact ⟨_, List.mem_append_right _ hmem, stored_strcpy hterm⟩
  | start3 ha hl f hf hreg =>
    have hst : (g.fopen e (pathOf m)).fstat.state = g.state := fopen_state _
    rw [replyOf_type4 (hinv.starting hl _), hst] at hr
    cases hr
    cases hs
    refine ⟨.strcpy e (g.setLastSent 4), List.mem_append_right _ ?_,
      stored_strcpy (g := g.setLastSent 4) (hinv.terminated (.inl hl))⟩
    rw [starting_calls ha hl hf hreg]
    exact List.mem_cons_self
  | finish6 ha hl he =>
    rw [replyOf_type5 (hinv.sending hl)] at hr
    cases hr
    cases hs
    refine ⟨.strcpy e ((g.setLastRecieved 6).fclose.setLastSent 5), List.mem_append_right _ ?_,
      stored_strcpy (g := (g.setLastRecieved 6).fclose.setLastSent 5) (hinv.sending hl)⟩
    rw [sending_calls ha hl, if_pos he]
    exact List.mem_cons_self
  | more6 ha hl he =>
    rw [replyOf_type4 (hinv.sending hl)] at hr
    cases hr
    cases hs
    refine ⟨.strcpy e ((g.setLastRecieved 6).setLastSent 4), List.mem_append_right _ ?_,
      stored_strcpy (g := (g.setLastRecieved 6).setLastSent 4) (hinv.sending hl)⟩
    rw [sending_calls ha hl, if_neg (by rw [he]; decide)]
    exact List.mem_cons_self

/-! ## Calls on a string -/

section OnString

variable (hn : 0 ∈ g.state.sessionId.toList)
include hn

theorem spells_stored : Spells (g.sessionId e) g.state.sid := State.spells_sid hn e.beyond

theorem onString_strcmp : (SidCall.strcmp e m g).OnString := by
  have hlt := State.sid_length_of_nul hn
  refine ⟨hn, fun i hi => ?_, fun n h => by cases h⟩
  have hle := strncmpReads_le (.inr (spells_stored hn)) hi
  omega

theorem onString_strncmp : (SidCall.strncmp e m g).OnString := by
  have hlt := State.sid_length_of_nul hn
  refine ⟨hn, fun i hi => ?_, fun n h => by cases h⟩
  have hle := strncmpReads_le (.inl (spells_stored hn)) hi
  omega

theorem strlen_reads : ∀ i ∈ strnlenReads (g.sessionId e) addrSpace, i < 129 := by
  intro i hi
  have hlt := State.sid_length_of_nul hn
  have hle := (mem_strnlenReads.mp hi).2
  rw [(spells_stored hn).strnlen] at hle
  omega

theorem onString_strlen : (SidCall.strlen e g).OnString :=
  ⟨hn, strlen_reads hn, fun n h => by cases h⟩

theorem onString_strcpy : (SidCall.strcpy e g).OnString := by
  have hlt := State.sid_length_of_nul hn
  have haddr : 129 ≤ addrSpace := by decide
  have hlen : strlen (g.sessionId e) = g.state.sid.length := (spells_stored hn).strlen (by omega)
  refine ⟨hn, strlen_reads hn, fun n h => ?_⟩
  obtain rfl : strlen (g.sessionId e) + 1 = n := Option.some.inj h
  omega

end OnString

theorem onString_type1 (hn : 0 ∈ g.state.sessionId.toList) :
    ∀ c ∈ messageType1BuilderCalls e g, c.OnString := by
  intro c hc
  rcases List.mem_cons.mp hc with rfl | hc
  · exact onString_strcpy hn
  · rw [List.mem_singleton.mp hc]
    exact onString_strlen hn

theorem onString_type4 (hn : 0 ∈ g.state.sessionId.toList) :
    ∀ c ∈ messegeType4BuilderCalls e g, c.OnString := by
  intro c hc
  rw [List.mem_singleton.mp hc]
  exact onString_strcpy (g := g.setLastSent 4) hn

theorem onString_type5 (hn : 0 ∈ g.state.sessionId.toList) :
    ∀ c ∈ messegeType5BuilderCalls e g, c.OnString := by
  intro c hc
  rw [List.mem_singleton.mp hc]
  exact onString_strcpy (g := g.fclose.setLastSent 5) hn

/-! ## One round -/

theorem onString_nil : ∀ c ∈ ([] : List SidCall), c.OnString := fun _ hc =>
  absurd hc List.not_mem_nil

theorem comparisons_onString (hn : 0 ∈ g.state.sessionId.toList) :
    ∀ c ∈ comparisonCalls e m g, c.OnString := by
  unfold comparisonCalls
  split
  · exact onString_nil
  refine List.forall_mem_cons.mpr ⟨onString_strcmp hn, ?_⟩
  split
  · exact onString_nil
  · exact List.forall_mem_singleton.mpr (onString_strncmp (g := g.setLastRecieved 6) hn)

/-- An accepted type 0 message has made the string that it copies. The other builders
are called in an open session. -/
theorem builder_onString (hinv : SessionInv g) : ∀ c ∈ (due e m g).calls e m g, c.OnString := by
  have hopen : g.state.lastSent = 1 ∨ g.state.lastSent = 4 → 0 ∈ g.state.sessionId.toList :=
    fun hl => (hinv.terminated hl).nul_mem
  refine due_cases (motive := fun d => ∀ c ∈ d.calls e m g, c.OnString) (fun _ _ => onString_nil) ?_
    (fun _ _ hl => ?_) (fun hl => ?_) onString_nil
  · exact onString_type1 (newSession_terminated m g).nul_mem
  · refine onString_type4 ?_
    split <;> exact hopen hl
  · exact onString_type5 (g := g.setLastRecieved 6) (hopen (.inr hl))

/-- An acknowledgement is compared whatever has come before it. -/
theorem strcmp_mem (h6 : Header.messageType m = 6) : .strcmp e m g ∈ handleCalls e m g := by
  unfold handleCalls comparisonCalls
  rw [if_neg (not_not.mpr h6)]
  exact List.mem_append_left _ List.mem_cons_self

/-- **One message** has no string function run on what is no string exactly when it
is no acknowledgement or the array holds a string. -/
theorem handleCalls_iff (hinv : SessionInv g) : (∀ c ∈ handleCalls e m g, c.OnString) ↔
    (Header.messageType m = 6 → 0 ∈ g.state.sessionId.toList) := by
  refine ⟨fun h h6 => (h _ (strcmp_mem h6)).nul,
    fun h => List.forall_mem_append.mpr ⟨?_, builder_onString hinv⟩⟩
  by_cases h6 : Header.messageType m = 6
  · exact comparisons_onString (h h6)
  · unfold comparisonCalls
    rw [if_pos h6]
    exact onString_nil

theorem sidCalls_iff (hinv : SessionInv g) : (∀ c ∈ sidCalls g i, c.OnString) ↔
    (Header.messageType (i.message g) = 6 → 0 ∈ g.state.sessionId.toList) :=
  handleCalls_iff (hinv.setBuffer (nnRecv g.buffer i.recv))

/-! ## The run -/

/-- The array holds a string from the start or from the first accepted type 0
message on. -/
theorem run_nul_iff (is : List Input) : ∀ {g : Daemon},
    0 ∈ (mainLoop.run g is).state.sessionId.toList ↔
      0 ∈ g.state.sessionId.toList ∨ accepted g is ≠ 0 := by
  induction is with
  | nil => exact (or_iff_left fun h => h rfl).symm
  | cons i is ih =>
    intro g
    rw [run_cons, ih]
    by_cases ha : Accept0 (i.message g) g
    · rw [accepted_cons_of ha]
      exact iff_of_true (.inl (iteration_terminated ha).nul_mem) (.inr (Nat.succ_ne_zero _))
    · rw [accepted_cons_of_not ha, (iteration_noDraw ha).sessionId]

/-- **The stored session id is a string** wherever an unbounded string function gets
it, all along a run, exactly when the array held one at the start or no message of
type 6 comes before the first accepted message of type 0. -/
theorem stored_id_iff (hg : Init g) (is : List Input) :
    AtEach (fun pre i => ∀ c ∈ sidCalls (mainLoop.run g pre) i, c.OnString) is ↔
      0 ∈ g.state.sessionId.toList ∨
        AtEach (fun pre i => Header.messageType (i.message (mainLoop.run g pre)) = 6 →
          accepted g pre ≠ 0) is := by
  have hround : ∀ pre i, (∀ c ∈ sidCalls (mainLoop.run g pre) i, c.OnString) ↔
      (Header.messageType (i.message (mainLoop.run g pre)) = 6 →
        0 ∈ g.state.sessionId.toList ∨ accepted g pre ≠ 0) := fun pre i => by
    have hreach : Reachable (mainLoop.run g pre) := (Mealy.Reach.init hg).run pre
    rw [sidCalls_iff hreach.sessionInv, run_nul_iff]
  simp only [hround]
  by_cases hn : 0 ∈ g.state.sessionId.toList
  · exact iff_of_true (fun _ _ _ _ _ => .inl hn) (.inl hn)
  · simp only [hn, false_or]

/-! ## An array of 129 letters -/

def rawBoot : Daemon :=
  boot (Vector.replicate 129 97) (Vector.replicate 33 0) (fun _ => 0) (fun _ => 0) zeroBoot.rand

theorem rawBoot_init : Init rawBoot := ⟨_, _, _, _, _, rfl⟩

theorem stored_id_alice : AtEach (fun pre i => ∀ c ∈ sidCalls (mainLoop.run rawBoot pre) i,
    c.OnString) [greeting, recvOf (encode6 (iteration rawBoot greeting).1.state.sid) none] := by
  refine (stored_id_iff rawBoot_init _).mpr (.inr ?_)
  rw [AtEach.cons_iff, AtEach.cons_iff]
  have ha := greeting_accept0 (g := rawBoot) (.inl rfl)
  refine ⟨fun h => ?_, fun _ => ?_, .nil⟩
  · exact absurd (ha.type.symm.trans h) (by decide)
  · rw [accepted_cons_of ha]
    exact Nat.succ_ne_zero _

def longHead : List UInt8 := 6 :: ([0, 0, 0] ++ le32 MessageType6.size ++ le32 128)

/-- An acknowledgement under an id of letters only. -/
def longId (n : Nat) : Input := recvOf (longHead ++ List.replicate n 97) none

theorem longId_type (g : Daemon) (n : Nat) : Header.messageType ((longId n).message g) = 6 :=
  messageType_recv g.buffer _ 6 _

theorem longId_sessionId (g : Daemon) {n j : Nat} (hj : j < n) (hn : 12 + n ≤ 4000) :
    MessageType6.sessionId ((longId n).message g) j = 97 := by
  have hhead : longHead.length = 12 := rfl
  have hlen : (longHead ++ List.replicate n (97 : UInt8)).length = 12 + n := by
    rw [List.length_append, hhead, List.length_replicate]
  have hown : MessageType6.sessionId ((longId n).message g) j =
      ((memOf (longHead ++ List.replicate n 97)).off 12) j :=
    (if_pos (by omega)).trans (if_pos (by omega))
  rw [hown, memOf_off _ _ hhead, memOf, List.getD_eq_getElem?_getD, List.getElem?_replicate_of_lt hj]
  rfl

/-- Against an array of the same letters `strcmp` reads on behind it. -/
theorem longId_reads {n : Nat} (h129 : 129 ≤ n) (hn : 12 + n ≤ 4000)
    (hs : ∀ j (_ : j < 129), g.state.sessionId[j] = 97) :
    ∃ c ∈ sidCalls g (longId n), 129 ∈ c.reads := by
  have h97 : (97 : UInt8) ≠ 0 := by decide
  refine ⟨_, strcmp_mem (longId_type g n), mem_strncmpReads.mpr ⟨by decide, fun j hj => ?_⟩⟩
  have hm := longId_sessionId g (by omega : j < n) hn
  exact ⟨hm.trans ((State.image_sessionId hj).trans (hs j hj)).symm, fun h => h97 (hm.symm.trans h)⟩

/-- As the first message it has `strcmp` read behind the array. -/
theorem longId_overreads : Init rawBoot ∧ (∃ c ∈ sidCalls rawBoot (longId 200), 129 ∈ c.reads) ∧
    ¬ AtEach (fun pre i => ∀ c ∈ sidCalls (mainLoop.run rawBoot pre) i, c.OnString)
      [longId 200] := by
  have hcall : ∃ c ∈ sidCalls rawBoot (longId 200), 129 ∈ c.reads :=
    longId_reads (by decide) (by decide) fun _ hj => Vector.getElem_replicate hj
  refine ⟨rawBoot_init, hcall, fun h => ?_⟩
  obtain ⟨c, hc, hreads⟩ := hcall
  exact absurd (((AtEach.cons_iff.mp h).1 c hc).inside 129 hreads) (Nat.lt_irrefl 129)

end Getd
