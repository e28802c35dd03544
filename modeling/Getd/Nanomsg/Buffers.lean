import Getd.Nanomsg.Usock

/-!
# What the buffers of a socket hold

Where a `nn_usock` stands between its owner and the kernel. `Handed h u` says that
of what `recvmsg` delivered the owner has been given `h` and the rest is in the
batch buffer, `Waiting h n u` that a receive of `n` bytes behind `h` goes on.
`Still t u` says that `sendmsg` has taken `t`, `Sending t u` that it has taken a
beginning of `t` and the iovecs hold the rest. The two `Raw` lemmas are all that one
system call can do, however the kernel cuts the stream.
-/

namespace Nanomsg

variable {io : Io} {u : Usock} {h t : List UInt8} {n : Nat}

/-! ## The iovecs -/

theorem iovAdvance_spec (iov : List (List UInt8)) : ∀ n, (∀ b ∈ iov, b ≠ []) →
    n ≤ iov.flatten.length → ∃ iov', iovAdvance iov n = .ok (iov', iov' = []) ∧
      iov'.flatten = iov.flatten.drop n ∧ ∀ b ∈ iov', b ≠ [] := by
  induction iov with
  | nil =>
    intro n _ hn
    obtain rfl : n = 0 := by simpa using hn
    exact ⟨[], rfl, rfl, fun _ hb => absurd hb List.not_mem_nil⟩
  | cons base iov ih =>
    intro n hne hn
    cases n with
    | zero => exact ⟨base :: iov, rfl, rfl, hne⟩
    | succ n =>
      have hne' : ∀ b ∈ iov, b ≠ [] := fun b hb => hne b (List.mem_cons_of_mem _ hb)
      rw [List.flatten_cons, List.length_append] at hn
      by_cases hle : base.length ≤ n + 1
      · by_cases hlast : iov = []
        · subst hlast
          have heq : n + 1 = base.length := by
            rw [List.flatten_nil, List.length_nil] at hn
            omega
          refine ⟨[], ?_, ?_, hne'⟩
          · simp only [iovAdvance, if_pos hle, if_pos heq, if_true, decide_true]
          · rw [List.flatten_cons, List.flatten_nil, List.append_nil, heq, List.drop_length]
        · obtain ⟨iov', hadv, hflat, hch⟩ := ih (n + 1 - base.length) hne' (by omega)
          refine ⟨iov', ?_, ?_, hch⟩
          · simp only [iovAdvance, if_pos hle, if_neg hlast]
            exact hadv
          · rw [hflat, List.flatten_cons, List.drop_append, List.drop_eq_nil_of_le hle,
              List.nil_append]
      · refine ⟨base.drop (n + 1) :: iov, ?_, ?_, ?_⟩
        · simp only [iovAdvance, if_neg hle, reduceCtorEq, decide_false]
        · rw [List.flatten_cons, List.flatten_cons, List.drop_append_of_le_length (by omega)]
        · intro b hb
          rcases List.mem_cons.mp hb with rfl | hb
          · intro hnil
            have hlen := congrArg List.length hnil
            rw [List.length_drop, List.length_nil] at hlen
            omega
          · exact hne' b hb

/-- `nn_usock_send_raw` moves a piece of what is left from the iovecs to the kernel. -/
theorem nnUsockSendRaw_spec (io : Io) (u : Usock) (hne : ∀ b ∈ u.iov, b ≠ []) : ∃ iov' sent rc,
    nnUsockSendRaw io u = .ok ({ u with iov := iov', tx := u.tx ++ sent }, rc) ∧
      sent ++ iov'.flatten = u.iov.flatten ∧ (∀ b ∈ iov', b ≠ []) ∧
      (rc = none ∨ rc = some (decide (iov' = []))) := by
  unfold nnUsockSendRaw
  cases io.sendmsg with
  | error => exact ⟨u.iov, [], none, by rw [List.append_nil], rfl, hne, .inl rfl⟩
  | again =>
    obtain ⟨iov', hadv, hflat, hch⟩ := iovAdvance_spec u.iov 0 hne (Nat.zero_le _)
    refine ⟨iov', [], some (iov' = []), ?_, hflat, hch, .inr rfl⟩
    simp only [hadv, List.append_nil]
    rfl
  | took nbytes =>
    obtain ⟨iov', hadv, hflat, hch⟩ := iovAdvance_spec u.iov (min nbytes u.iov.flatten.length) hne
      (Nat.min_le_right _ _)
    refine ⟨iov', u.iov.flatten.take (min nbytes u.iov.flatten.length), some (iov' = []), ?_, ?_,
      hch, .inr rfl⟩
    · simp only [hadv]
      rfl
    · rw [hflat, List.take_append_drop]

/-! ## The batch buffer -/

/-- `nn_usock_recv_raw` stores the next bytes of the stream, no more than it was asked
for, and less only when the batch buffer is empty. -/
theorem nnUsockRecvRaw_spec (io : Io) (u : Usock) (n : Nat) : ∃ batch' new r,
    nnUsockRecvRaw io u n = ({ u with batch := batch', rx := u.rx ++ new }, r) ∧
      (r = none ∨ ∃ got, r = some got ∧ got ++ batch' = u.batch ++ new ∧ got.length ≤ n ∧
        (got.length = n ∨ batch' = [])) := by
  have htake : (u.batch.take n).length = min n u.batch.length := List.length_take
  unfold nnUsockRecvRaw
  dsimp only
  by_cases hbatch : u.batch ≠ [] ∧ n - (u.batch.take n).length = 0
  · rw [if_pos hbatch]
    refine ⟨u.batch.drop n, [], _, by rw [List.append_nil], .inr ⟨_, rfl, ?_, ?_, .inl ?_⟩⟩
    · rw [List.take_append_drop, List.append_nil]
    · omega
    · omega
  rw [if_neg hbatch]
  -- the batch buffer has been used up
  have hall : u.batch.length ≤ n := by
    rcases not_and_or.mp hbatch with hnil | hrest
    · rw [not_not.mp hnil]
      exact Nat.zero_le _
    · omega
  have hfirst : u.batch.take n = u.batch := List.take_of_length_le hall
  have hdrop : u.batch.drop n = [] := List.drop_eq_nil_of_le hall
  rw [hfirst, hdrop]
  cases io.recvmsg with
  | error => exact ⟨[], [], none, by rw [List.append_nil], .inl rfl⟩
  | again =>
    refine ⟨[], [], some u.batch, ?_, .inr ⟨_, rfl, rfl, hall, .inr rfl⟩⟩
    rw [List.append_nil]
    dsimp only
    split <;> rfl
  | data bytes =>
    dsimp only
    by_cases hdirect : NN_USOCK_BATCH_SIZE < n - u.batch.length
    · rw [if_pos hdirect]
      by_cases hnil : bytes.take (n - u.batch.length) = []
      · rw [if_pos hnil]
        exact ⟨[], [], none, by rw [List.append_nil], .inl rfl⟩
      · rw [if_neg hnil, if_pos hdirect]
        refine ⟨[], _, some _, rfl, .inr ⟨_, rfl, List.append_nil _, ?_, .inr rfl⟩⟩
        rw [List.length_append, List.length_take]
        omega
    · rw [if_neg hdirect]
      by_cases hnil : bytes.take NN_USOCK_BATCH_SIZE = []
      · rw [if_pos hnil]
        exact ⟨[], [], none, by rw [List.append_nil], .inl rfl⟩
      · rw [if_neg hnil, if_neg hdirect]
        generalize bytes.take NN_USOCK_BATCH_SIZE = new at hnil ⊢
        refine ⟨new.drop (n - u.batch.length), new, some _, rfl, .inr ⟨_, rfl, ?_, ?_, ?_⟩⟩
        · rw [List.append_assoc, List.take_append_drop]
        · rw [List.length_append, List.length_take]
          omega
        · rw [List.length_append, List.length_take]
          rcases Nat.lt_or_ge new.length (n - u.batch.length) with hlt | hge
          · exact .inr (List.drop_eq_nil_of_le (Nat.le_of_lt hlt))
          · exact .inl (by omega)

/-! ## Between the owner and the kernel -/

/-- The owner has `h` and waits for nothing. -/
structure Handed (h : List UInt8) (u : Usock) : Prop where
  rx : u.rx = h ++ u.batch
  taskRecv : u.taskRecv = false
  pollIn : u.pollIn = false

/-- The owner has `h` and waits for `n` bytes, of which some are in `buf`. -/
structure Waiting (h : List UInt8) (n : Nat) (u : Usock) : Prop where
  rx : u.rx = h ++ u.buf
  batch : u.batch = []
  length : u.buf.length + u.len = n
  pos : 0 < u.len
  polls : u.taskRecv = !u.pollIn

/-- All of `t` is sent. -/
structure Still (t : List UInt8) (u : Usock) : Prop where
  tx : u.tx = t
  taskSend : u.taskSend = false
  pollOut : u.pollOut = false

/-- Of `t` the iovecs are still to be sent. -/
structure Sending (t : List UInt8) (u : Usock) : Prop where
  tx : u.tx ++ u.iov.flatten = t
  iov : u.iov ≠ []
  chunks : ∀ b ∈ u.iov, b ≠ []
  polls : u.taskSend = !u.pollOut

/-- `Handed`, or `Waiting` for as many bytes as the owner wants. -/
def Receives (h : List UInt8) : Option Nat → Usock → Prop
  | none => Handed h
  | some n => Waiting h n

def Sends (t : List UInt8) : Bool → Usock → Prop
  | false => Still t
  | true => Sending t

/-- What has been handed over and sent when it ended. -/
structure Gone (h t : List UInt8) (u : Usock) : Prop where
  rx : h <+: u.rx
  tx : u.tx <+: t

theorem Receives.congr {want : Option Nat} {u' : Usock} (hr : Receives h want u)
    (hrx : u'.rx = u.rx) (hbatch : u'.batch = u.batch) (hbuf : u'.buf = u.buf)
    (hlen : u'.len = u.len) (htask : u'.taskRecv = u.taskRecv) (hpoll : u'.pollIn = u.pollIn) :
    Receives h want u' := by
  cases want with
  | none => exact ⟨by rw [hrx, hbatch, Handed.rx hr], htask.trans hr.taskRecv, hpoll.trans hr.pollIn⟩
  | some n =>
    exact ⟨by rw [hrx, hbuf, Waiting.rx hr], hbatch.trans hr.batch,
      by rw [hbuf, hlen, Waiting.length hr], hlen ▸ hr.pos, by rw [htask, hpoll, Waiting.polls hr]⟩

theorem Sends.congr {sending : Bool} {u' : Usock} (hs : Sends t sending u) (htx : u'.tx = u.tx)
    (hiov : u'.iov = u.iov) (htask : u'.taskSend = u.taskSend) (hpoll : u'.pollOut = u.pollOut) :
    Sends t sending u' := by
  cases sending with
  | false => exact ⟨htx.trans hs.tx, htask.trans hs.taskSend, hpoll.trans hs.pollOut⟩
  | true =>
    exact ⟨by rw [htx, hiov, Sending.tx hs], hiov ▸ hs.iov, hiov ▸ hs.chunks,
      by rw [htask, hpoll, Sending.polls hs]⟩

theorem Receives.rx {want : Option Nat} (hr : Receives h want u) : h <+: u.rx := by
  cases want with
  | none => exact ⟨_, (Handed.rx hr).symm⟩
  | some n => exact ⟨_, (Waiting.rx hr).symm⟩

theorem Sends.tx {sending : Bool} (hs : Sends t sending u) : u.tx <+: t := by
  cases sending with
  | false => exact ⟨[], (List.append_nil _).trans (Still.tx hs)⟩
  | true => exact ⟨_, Sending.tx hs⟩

end Nanomsg
