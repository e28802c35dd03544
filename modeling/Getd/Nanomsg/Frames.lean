import Getd.Lib.PrefixCode
import Getd.Nanomsg.Sipc

/-!
# Frames as a code

The frames of `transports/ipc/sipc.c` on a stream of bytes. `nextFrame` takes one
off the front, if there is all of one and it is not too large. A text begins with
a frame in one way only (`nextFrame_some`), so `frames` is a prefix code.
-/

namespace Nanomsg

open CLib

variable {bs r : List UInt8} {msg : Msg}

def nextFrame (bs : List UInt8) : Option (Msg × List UInt8) :=
  let size := hdrSize (bs.take 9)
  if bs.length < 9 ∨ bs.head? ≠ some NN_SIPC_MSG_NORMAL ∨ rcvmaxsize < size then none
  else if bs.length < 9 + size then none
  else some ((bs.drop 9).take size, bs.drop (9 + size))

/-- A length that is not too large is what its header says. -/
theorem hdrSize_outhdr (hlen : msg.length ≤ rcvmaxsize) (b : UInt8) (r : List UInt8) :
    hdrSize (b :: nnPutll (UInt64.ofNat msg.length) ++ r) = msg.length := by
  have hlt : msg.length < 2 ^ 64 := Nat.lt_of_le_of_lt hlen (by decide)
  simp only [hdrSize, List.cons_append, List.drop_succ_cons, List.drop_zero, nnGetll_nnPutll]
  rw [UInt64.toNat_ofNat', Nat.mod_eq_of_lt hlt]

/-- A header of nine bytes is the header of a message of its size. -/
theorem inhdr_eq {inhdr : List UInt8} (hlen : inhdr.length = 9)
    (hhead : inhdr.head? = some NN_SIPC_MSG_NORMAL) (hsize : msg.length = hdrSize inhdr) :
    inhdr ++ msg = frame msg := by
  cases inhdr with
  | nil => cases hlen
  | cons b rest =>
    obtain rfl : b = NN_SIPC_MSG_NORMAL := by simpa using hhead
    have hrest : rest.length = 8 := by simpa using hlen
    have hval : UInt64.ofNat msg.length = nnGetll rest := by
      rw [hsize, hdrSize, List.drop_succ_cons, List.drop_zero, UInt64.ofNat_toNat]
    rw [frame, hval, nnPutll_nnGetll hrest]

theorem nextFrame_some : nextFrame bs = some (msg, r) ↔ bs = frame msg ++ r ∧ msg.length ≤ rcvmaxsize := by
  constructor
  · intro h
    unfold nextFrame at h
    dsimp only at h
    split at h
    · cases h
    rename_i hhdr
    split at h
    · cases h
    rename_i hbody
    obtain ⟨hlen, hhead, hmax⟩ : 9 ≤ bs.length ∧ bs.head? = some NN_SIPC_MSG_NORMAL ∧
        hdrSize (bs.take 9) ≤ rcvmaxsize := by
      simpa only [not_or, Nat.not_lt, ne_eq, not_not] using hhdr
    obtain ⟨rfl, rfl⟩ : (bs.drop 9).take (hdrSize (bs.take 9)) = msg ∧
        bs.drop (9 + hdrSize (bs.take 9)) = r := by simpa using h
    have hsize : ((bs.drop 9).take (hdrSize (bs.take 9))).length = hdrSize (bs.take 9) := by
      rw [List.length_take, List.length_drop]
      omega
    refine ⟨?_, Nat.le_trans (Nat.le_of_eq hsize) hmax⟩
    have hnine : (bs.take 9).length = 9 := by
      rw [List.length_take]
      omega
    rw [← inhdr_eq hnine
      (by rw [List.head?_take, if_neg (by omega), hhead]) hsize, List.append_assoc,
      ← List.drop_drop, List.take_append_drop, List.take_append_drop]
  · rintro ⟨rfl, hlen⟩
    have htake : (frame msg ++ r).take 9 = NN_SIPC_MSG_NORMAL :: nnPutll (UInt64.ofNat msg.length) := rfl
    have hsize := hdrSize_outhdr hlen NN_SIPC_MSG_NORMAL []
    rw [List.append_nil] at hsize
    have hlength : (frame msg ++ r).length = 9 + msg.length + r.length := by
      simp only [frame, List.length_append, List.length_cons, nnPutll_length]
    have hdrop : (frame msg ++ r).drop 9 = msg ++ r := rfl
    unfold nextFrame
    dsimp only
    rw [htake, hsize, if_neg, if_neg (by omega), ← List.drop_drop, hdrop, List.take_left', List.drop_left']
    · rfl
    · rfl
    · rw [hlength]
      rintro (h | h | h)
      · omega
      · exact h rfl
      · omega

/-- The frames of messages, one after the other. -/
def frames : Codec Msg UInt8 where
  word := frame
  next := nextFrame
  word_ne_nil _ := List.cons_ne_nil _ _
  next_eq h := (nextFrame_some.mp h).1
  next_append s h := by
    obtain ⟨rfl, hlen⟩ := nextFrame_some.mp h
    exact nextFrame_some.mpr ⟨List.append_assoc _ _ _, hlen⟩

theorem frames_word (msg : Msg) : frames.word msg = frame msg := rfl

theorem frames_readable (hlen : msg.length ≤ rcvmaxsize) : frames.Readable msg :=
  nextFrame_some.mpr ⟨(List.append_nil _).symm, hlen⟩

/-- The rest of a text whose frames have all been taken. -/
theorem next_short (hlen : bs.length < 9) : frames.next bs = none := if_pos (.inl hlen)

end Nanomsg
