import Getd.Lib.Reads
import Getd.Receive

/-!
# Long paths

A `MessageType3` has 4244 bytes and the receive buffer 4000, so what lies behind
the buffer stands in for the end of the path. `type3Ver` compares lengths only:
the file opened is the file named, with every byte read out of the buffer, exactly
when the path ends with its NUL in the buffer (`file_named_iff`). A client that copies
the id of its session passes every check exactly when its path ends in the buffer or
what lies behind the buffer has as many characters as are missing (`accepts_back_iff`).
-/

namespace Getd

open CLib

variable {m past b : Mem} {d : List UInt8}

/-! ## What is read -/

def wordReads (k : Nat) : List Nat := [k, k + 1, k + 2, k + 3]

/-- The offsets of the message that `type3Ver` reads, in order. -/
def type3VerReads (message : Mem) : List Nat :=
  wordReads 4 ++
  if Header.messageLength message ≠ MessageType3.size then []
  else (strnlenReads (MessageType3.sessionId message) 128).map (16 + ·) ++ wordReads 8 ++
    if strnlen (MessageType3.sessionId message) 128 ≠ MessageType3.sidLength message then []
    else (strnlenReads (MessageType3.pathName message) 4096).map (145 + ·) ++ wordReads 12

/-- The offsets of the message that `fopen` reads: the path with its NUL. -/
def fopenReads (message : Mem) : List Nat :=
  (strnlenReads (MessageType3.pathName message) addrSpace).map (145 + ·)

/-- The file opened is the file named: as sent the path has its NUL in its field,
`fopen` is given the bytes sent, and `type3Ver` and `fopen` read only what
`nn_recv` has stored. -/
structure FileNamed (d : List UInt8) (past buffer : Mem) : Prop where
  fits : MessageType3.pathLength (memOf d) < 4097
  nul : MessageType3.pathName (memOf d) (MessageType3.pathLength (memOf d)) = 0
  path : pathOf (arrive d past buffer) =
    (MessageType3.pathName (memOf d)).bytes 0 (MessageType3.pathLength (memOf d))
  stored : ∀ i ∈ type3VerReads (arrive d past buffer) ++ fopenReads (arrive d past buffer), i < 4000

/-! ## When it is -/

theorem wordReads_lt {k i : Nat} (h : i ∈ wordReads k) : i < k + 4 := by
  simp only [wordReads, List.mem_cons, List.not_mem_nil, or_false] at h
  omega

/-- A message that passes is read up to the NUL behind its path, or for 4096 bytes. -/
theorem mem_type3VerReads (hv : type3Ver m = 0) {i : Nat} (hi : i < 4096)
    (hle : i ≤ MessageType3.pathLength m) : 145 + i ∈ type3VerReads m := by
  obtain ⟨hm, hs, hp⟩ := (type3Ver_eq_zero_iff m).mp hv
  have hread : i ∈ strnlenReads (MessageType3.pathName m) 4096 :=
    mem_strnlenReads.mpr ⟨hi, by omega⟩
  unfold type3VerReads
  rw [if_neg (not_not.mpr hm), if_neg (not_not.mpr hs)]
  refine List.mem_append_right _ (List.mem_append_right _ (List.mem_append_left _ ?_))
  exact List.mem_map_of_mem hread

theorem type3VerReads_lt (hp : strnlen (MessageType3.pathName m) 4096 = MessageType3.pathLength m) :
    ∀ i ∈ type3VerReads m, i < 146 + MessageType3.pathLength m := by
  intro i hi
  unfold type3VerReads at hi
  rcases List.mem_append.mp hi with hi | hi
  · have := wordReads_lt hi
    omega
  split at hi
  · exact absurd hi List.not_mem_nil
  rcases List.mem_append.mp hi with hi | hi
  · rcases List.mem_append.mp hi with hi | hi
    · obtain ⟨j, hj, rfl⟩ := List.mem_map.mp hi
      have := (mem_strnlenReads.mp hj).1
      omega
    · have := wordReads_lt hi
      omega
  split at hi
  · exact absurd hi List.not_mem_nil
  rcases List.mem_append.mp hi with hi | hi
  · obtain ⟨j, hj, rfl⟩ := List.mem_map.mp hi
    have := (mem_strnlenReads.mp hj).2
    omega
  · have := wordReads_lt hi
    omega

/-- A message that passes is read out of the buffer only if its path ends there. -/
theorem ends_of_stored (hv : type3Ver m = 0) (h : ∀ i ∈ type3VerReads m, i < 4000) :
    145 + MessageType3.pathLength m < 4000 := by
  have hp := ((type3Ver_eq_zero_iff m).mp hv).2.2
  have hle := strnlen_le (MessageType3.pathName m) 4096
  rcases Nat.lt_or_ge (MessageType3.pathLength m) 4096 with hlt | hge
  · exact h _ (mem_type3VerReads hv hlt (Nat.le_refl _))
  · have := h _ (mem_type3VerReads hv (i := 4095) (by omega) (by omega))
    omega

/-- **The file opened is the file named** in a message that passes `type3Ver`
exactly when the path ends in the buffer. -/
theorem file_named_iff (hd : d.length = MessageType3.size)
    (hv : type3Ver (arrive d past b) = 0) :
    FileNamed d past b ↔ 145 + MessageType3.pathLength (memOf d) < 4000 := by
  have h4000 : min d.length 4000 = 4000 := by rw [hd]; decide
  have hlen : MessageType3.pathLength (arrive d past b) = MessageType3.pathLength (memOf d) :=
    u32_arrive (by omega)
  obtain ⟨-, -, hp⟩ := (type3Ver_eq_zero_iff _).mp hv
  constructor
  · intro h
    rw [← hlen]
    exact ends_of_stored hv fun i hi => h.stored i (List.mem_append_left _ hi)
  · intro hlt
    have hshort : strnlen (MessageType3.pathName (arrive d past b)) 4096 < 4096 := by omega
    have hspells := spells_of_strnlen_lt hshort
    have hown : ∀ i, 145 + i < 4000 → MessageType3.pathName (arrive d past b) i =
        MessageType3.pathName (memOf d) i := fun i hi => arrive_own (by omega)
    have hbytes : (MessageType3.pathName (arrive d past b)).bytes 0
          (MessageType3.pathLength (memOf d)) =
        (MessageType3.pathName (memOf d)).bytes 0 (MessageType3.pathLength (memOf d)) :=
      Mem.bytes_congr.mpr fun i hi => by rw [Nat.zero_add]; exact hown i (by omega)
    rw [hp, hlen, hbytes] at hspells
    have hn : ((MessageType3.pathName (memOf d)).bytes 0
        (MessageType3.pathLength (memOf d))).length = MessageType3.pathLength (memOf d) :=
      Mem.bytes_length ..
    have haddr : MessageType3.pathLength (memOf d) ≤ addrSpace := by unfold addrSpace; omega
    refine ⟨by omega, ?_, hspells.cstr (by omega), fun i hi => ?_⟩
    · rw [← hown _ hlt]
      have := hspells.nul
      rwa [hn] at this
    · rcases List.mem_append.mp hi with hi | hi
      · have := type3VerReads_lt hp i hi
        omega
      · obtain ⟨j, hj, rfl⟩ := List.mem_map.mp hi
        have := strnlen_le (MessageType3.pathName (arrive d past b)) addrSpace
        have hle := (mem_strnlenReads.mp hj).2
        rw [hspells.strnlen, hn] at hle
        omega

/-- With the rest of the datagram behind the buffer the message is the datagram. -/
theorem arrive_whole (h : 4000 ≤ d.length) : arrive d ((memOf d).off 4000) b = memOf d :=
  view_wholeOf b h none

theorem file_named_motd :
    FileNamed (encode3 [] (chars "/etc/motd"))
        ((memOf (encode3 [] (chars "/etc/motd"))).off 4000) (fun _ => 0) ↔
      145 + MessageType3.pathLength (memOf (encode3 [] (chars "/etc/motd"))) < 4000 := by
  have hd : (encode3 [] (chars "/etc/motd")).length = MessageType3.size :=
    encode3_length (by decide) (by decide)
  have ha : Asks (memOf (encode3 [] (chars "/etc/motd"))) ([] : List UInt8).length []
      (chars "/etc/motd") :=
    asks_encode3 List.not_mem_nil (by decide) (by decide) (by decide)
  refine file_named_iff hd ?_
  rw [arrive_whole (by rw [hd]; decide)]
  exact ha.ver (by decide)

/-! ## A path that does not end in the buffer -/

theorem pathName_past (i : Nat) : MessageType3.pathName (arrive d past b) (3855 + i) = past i := by
  show arrive d past b (145 + (3855 + i)) = past i
  rw [arrive, view, if_neg (by omega), show 145 + (3855 + i) - 4000 = i by omega]

/-- What lies behind the buffer is taken for the end of a long path. -/
theorem spells_long {n : Nat} {sid path tail : List UInt8} (hd : d.length = MessageType3.size)
    (ha : Asks (memOf d) n sid path) (htail : Spells past tail)
    (hlen : path.length = 3855 + tail.length) :
    Spells (MessageType3.pathName (arrive d past b)) (path.take 3855 ++ tail) := by
  have h4000 : min d.length 4000 = 4000 := by rw [hd]; decide
  have htake : (path.take 3855).length = 3855 := by
    rw [List.length_take]
    omega
  refine spells_append ?_ (fun h => ha.pathName.ne_nul (List.mem_of_mem_take h)) ?_
  · rw [htake]
    calc (MessageType3.pathName (arrive d past b)).bytes 0 3855
        = (MessageType3.pathName (memOf d)).bytes 0 3855 :=
          Mem.bytes_congr.mpr fun i hi => arrive_own (by omega)
      _ = ((MessageType3.pathName (memOf d)).bytes 0 path.length).take 3855 := by
          rw [Mem.bytes_take, Nat.min_eq_left (by omega)]
      _ = path.take 3855 := by rw [ha.pathName.bytes]
  · have hoff : (MessageType3.pathName (arrive d past b)).off (path.take 3855).length = past := by
      funext i
      rw [htake]
      exact pathName_past i
    rwa [hoff]

theorem long_length {path tail : List UInt8} (hlen : path.length = 3855 + tail.length) :
    (path.take 3855 ++ tail).length = path.length := by
  rw [List.length_append, List.length_take]
  omega

/-- But for its path a request arrives as it was sent. -/
theorem Asks.arrive {n : Nat} {sid path path' : List UInt8} (ha : Asks (memOf d) n sid path)
    (hd : d.length = MessageType3.size) (hs : sid.length ≤ 128)
    (hpath : Spells (MessageType3.pathName (arrive d past b)) path')
    (hlen : path'.length = path.length) : Asks (arrive d past b) n sid path' := by
  have h4000 : min d.length 4000 = 4000 := by rw [hd]; decide
  have hword : ∀ k ≤ 3996, (Getd.arrive d past b).u32 k = (memOf d).u32 k :=
    fun k hk => u32_arrive (by omega)
  refine ⟨?_, ?_, ?_, ?_, ?_, hpath, hlen ▸ ha.fits⟩
  · exact (arrive_own (by omega)).trans ha.type
  · exact (hword 4 (by omega)).trans ha.messageLength
  · exact (hword 8 (by omega)).trans ha.sidLength
  · exact ha.sessionId.congr fun i hi => arrive_own (by omega)
  · exact (hword 12 (by omega)).trans (ha.pathLength.trans hlen.symm)

theorem long_path {sid path tail : List UInt8} (hd : d.length = MessageType3.size)
    (ha : Asks (memOf d) sid.length sid path) (hs : sid.length ≤ 128)
    (htail : Spells past tail) (hlen : path.length = 3855 + tail.length) :
    type3Ver (arrive d past b) = 0 ∧
      Spells (MessageType3.pathName (arrive d past b)) (path.take 3855 ++ tail) := by
  have hpath := spells_long (b := b) hd ha htail hlen
  exact ⟨(ha.arrive hd hs hpath (long_length hlen)).ver hs, hpath⟩

def longPath : List UInt8 := List.replicate 3860 97

theorem file_misnamed : (encode3 [] longPath).length = MessageType3.size ∧
    type3Ver (arrive (encode3 [] longPath) (memOf (chars "bbbbb")) fun _ => 0) = 0 ∧
    pathOf (arrive (encode3 [] longPath) (memOf (chars "bbbbb")) fun _ => 0) =
      longPath.take 3855 ++ chars "bbbbb" ∧
    ¬ FileNamed (encode3 [] longPath) (memOf (chars "bbbbb")) fun _ => 0 := by
  have hl : longPath.length = 3860 := List.length_replicate
  have h0 : 0 ∉ longPath := fun h => absurd (List.eq_of_mem_replicate h) (by decide)
  have hd : (encode3 [] longPath).length = MessageType3.size := encode3_length (by decide) (by omega)
  have ha : Asks (memOf (encode3 [] longPath)) ([] : List UInt8).length [] longPath :=
    asks_encode3 List.not_mem_nil (by decide) h0 (by omega)
  have htail : Spells (memOf (chars "bbbbb")) (chars "bbbbb") := by
    rw [← List.append_nil (chars "bbbbb")]
    exact spells_memOf (by decide) rfl
  generalize encode3 [] longPath = d at hd ha ⊢
  obtain ⟨hv, hp⟩ := long_path (b := fun _ => 0) hd ha (by decide) htail hl
  have hlen : MessageType3.pathLength (arrive d (memOf (chars "bbbbb")) fun _ => 0) = 3860 := by
    have h4000 : min d.length 4000 = 4000 := by rw [hd]; decide
    exact (u32_arrive (by omega)).trans (ha.pathLength.trans hl)
  refine ⟨hd, hv, hp.cstr ?_, fun h => ?_⟩
  · rw [List.length_append, List.length_take, hl]
    decide
  · have := ends_of_stored hv fun i hi => h.stored i (List.mem_append_left _ hi)
    omega

/-! ## What is issued comes back -/

section AcceptsBack

variable {e : Env} {g : Daemon} {sid path : List UInt8} {n : Nat}

/-- A whole message of an honest client, with an id of length `n` out of a reply. -/
inductive Honest (d : List UInt8) (n : Nat) (sid : List UInt8) : Prop where
  | request {path : List UInt8} (hd : d.length = MessageType3.size)
      (ha : Asks (memOf d) n sid path)
  | acknowledgement (hd : d.length = MessageType6.size) (ha : Acknowledges (memOf d) n sid)

/-- The message of the round passes every check of its type, and no session or corruption
error answers it. -/
structure AcceptedBack (g : Daemon) (i : Input) : Prop where
  request : Header.messageType (i.message g) = 3 → type3Ver (i.message g) = 0 ∧
    strncmp (MessageType3.sessionId (i.message g)) (g.sessionId i.env) 128 = 0
  acknowledgement : Header.messageType (i.message g) = 6 →
    strcmp (MessageType6.sessionId (i.message g)) (g.sessionId i.env) = 0 ∧
    type6Ver (i.message g) ((g.setLastRecieved 6).sessionId i.env) = 0 ∧
    (scan (MessageType6.sessionId (i.message g)) 129 0).toNat = MessageType6.sidLength (i.message g)
  answer : ∀ messageLength msgLength text,
    replyOf (iteration g i) = some (.type2 messageLength msgLength text) → text ∉ sessionErrors

/-- The path of a request ends in the buffer, or the 241 bytes of `pathName` behind the
buffer have their first NUL where the path has its own. -/
def Completed (d : List UInt8) (past : Mem) : Prop :=
  Header.messageType (memOf d) = 3 →
    145 + MessageType3.pathLength (memOf d) < 4000 ∨
      145 + MessageType3.pathLength (memOf d) = 4000 + strnlen past 241

theorem Completed.asks (hc : Completed d past) (hd : d.length = MessageType3.size)
    (ha : Asks (memOf d) n sid path) (hs : sid.length ≤ 128) :
    ∃ path', Asks (arrive d past b) n sid path' := by
  have h4000 : min d.length 4000 = 4000 := by rw [hd]; decide
  have hfits := ha.fits
  have hends := hc ha.type
  rw [ha.pathLength] at hends
  rcases hends with hlt | heq
  · refine ⟨path, ha.arrive hd hs (ha.pathName.congr fun i hi => ?_) rfl⟩
    exact arrive_own (by omega)
  · have htail := spells_of_strnlen_lt (m := past) (n := 241) (by omega)
    have hlen : path.length = 3855 + (past.bytes 0 (strnlen past 241)).length := by
      rw [Mem.bytes_length]
      omega
    exact ⟨_, ha.arrive hd hs (spells_long hd ha htail hlen) (long_length hlen)⟩

/-- A request that passes `type3Ver` is completed. -/
theorem completed_of_ver (hd : d.length = MessageType3.size) (ha : Asks (memOf d) n sid path)
    (hv : type3Ver (arrive d past b) = 0) : Completed d past := by
  intro _
  have h4000 : min d.length 4000 = 4000 := by rw [hd]; decide
  have hfits := ha.fits
  have hp := ((type3Ver_eq_zero_iff _).mp hv).2.2
  have hlen : MessageType3.pathLength (arrive d past b) = path.length :=
    (u32_arrive (by omega)).trans ha.pathLength
  rw [hlen] at hp
  rw [ha.pathLength]
  refine or_iff_not_imp_left.mpr fun hge => ?_
  obtain ⟨k, hk⟩ : ∃ k, path.length = 3855 + k := Nat.exists_eq_add_of_le (by omega)
  suffices hpast : strnlen past 241 = k by omega
  -- the path has its NUL at `k` behind the buffer, and none before
  have hnul : past k = 0 := by
    have h0 := strnlen_nul (m := MessageType3.pathName (arrive d past b)) (n := 4096) (by omega)
    rwa [hp, hk, pathName_past] at h0
  refine Nat.le_antisymm ?_ (le_strnlen_iff.mpr ⟨by omega, fun i hi => ?_⟩)
  · by_contra hlt
    exact strnlen_ne_nul (Nat.lt_of_not_le hlt) hnul
  · have hi' : MessageType3.pathName (arrive d past b) (3855 + i) ≠ 0 :=
      strnlen_ne_nul (n := 4096) (by omega)
    rwa [pathName_past] at hi'

/-- Any other request is answered with a corruption error. -/
theorem corrupt_of_not_completed (hd : d.length = MessageType3.size)
    (ha : Asks (memOf d) n sid path) (hn : ¬ Completed d past) :
    replyOf (iteration g ⟨some d, past, e⟩) =
      some (.type2 MessageType2.size 22 (chars "Corrupt Type 3 Message")) := by
  have htype : Header.messageType (arrive d past g.buffer) = 3 :=
    (arrive_own (by rw [hd]; decide)).trans ha.type
  have hcorrupt := Exit.corrupt3 (e := e) (g := { g with buffer := nnRecv g.buffer (some d) }) htype
    fun hv => hn (completed_of_ver hd ha hv)
  exact (congrArg replyOf hcorrupt.handle_eq).trans (replyOf_error _ (by decide))

/-- **The daemon accepts back what it issues.** From a type 1 packet to the next one, a
request or an acknowledgement that copies the session id and its length out of any reply
of the session passes every check, and is answered with no session or corruption error,
exactly when it is completed. -/
theorem accepts_back_iff (hg : Reachable g) {p : Packet} {since : List Packet}
    (hi : g.Issued p since) {q : Packet} (hq : q ∈ p :: since) {r : Reply}
    (hr : q.reply = some r) (hn : r.sidLength? = some n) (hs : r.sessionId? = some sid)
    (hd : Honest d n sid) : AcceptedBack g ⟨some d, past, e⟩ ↔ Completed d past := by
  have hinv := hg.issuedInv
  have ht := hinv.terminated hi
  obtain ⟨hsid, hlen⟩ := issued_copy hinv hi hq hr hn hs
  have hle : sid.length ≤ 128 := hsid ▸ State.sid_length_le ht
  have h36 : (3 : UInt8) ≠ 6 := by decide
  have hanswer : ∀ {m : Mem}, m = arrive d past g.buffer → (Auth3 e m g ∨ Auth6 e m g) →
      ∀ messageLength msgLength text,
        replyOf (iteration g ⟨some d, past, e⟩) = some (.type2 messageLength msgLength text) →
          text ∉ sessionErrors := by
    rintro m rfl ha messageLength msgLength text h
    refine handle_authentic (e := e) (m := arrive d past g.buffer)
      (g := { g with buffer := nnRecv g.buffer (some d) }) (hinv.session.setBuffer _) ?_ h
    exact ha.imp (fun ha => ⟨ha.type, ha.ver, ha.sid⟩) fun ha => ⟨ha.type, ha.sid, ha.ver⟩
  cases hd with
  | @request path hd ha =>
    constructor
    · intro h
      have htype : Header.messageType (arrive d past g.buffer) = 3 :=
        (arrive_own (by rw [hd]; decide)).trans ha.type
      exact completed_of_ver hd ha (h.request htype).1
    · intro hc
      obtain ⟨path', ha'⟩ := hc.asks (b := g.buffer) hd ha hle
      have hauth := asks_auth3 (e := e) ha' ht hsid hlen
      exact ⟨fun _ => ⟨hauth.ver, hauth.sid⟩, fun h6 => absurd (ha'.type.symm.trans h6) h36,
        hanswer rfl (.inl hauth)⟩
  | acknowledgement hd ha =>
    refine iff_of_true ?_ fun h3 => absurd (h3.symm.trans ha.type) h36
    have ha' : Acknowledges (arrive d past g.buffer) n sid := ha.congr hle fun i hi =>
      arrive_own (by rw [hd]; unfold MessageType6.size at hi ⊢; omega)
    have hauth := acknowledges_auth6 (e := e) ha' ht hsid hlen
    refine ⟨fun h3 => absurd (h3.symm.trans ha'.type) h36, fun _ => ⟨hauth.sid, hauth.ver, ?_⟩,
      hanswer rfl (.inr hauth)⟩
    show (scan (MessageType6.sessionId (arrive d past g.buffer)) 129 0).toNat =
      MessageType6.sidLength (arrive d past g.buffer)
    rw [scan_eq_strnlen, ha'.sessionId.strnlen, ha'.sidLength, hlen]
    omega

end AcceptsBack

theorem aliceOpened_issued : ∃ p since, aliceOpened.Issued p since ∧
    p.reply = some (.type1 MessageType1.size zeroSid.length zeroSid) := by
  obtain ⟨p, since, hi⟩ := exists_issued aliceOpened_type1
  have hr := aliceOpened_reachable.issuedInv.first hi
  rw [aliceOpened_sid] at hr
  exact ⟨p, since, hi, hr⟩

theorem longPath_asks : Asks (memOf (encode3 zeroSid longPath)) zeroSid.length zeroSid longPath := by
  have h0 : 0 ∉ longPath := fun h => absurd (List.eq_of_mem_replicate h) (by decide)
  have hl : longPath.length = 3860 := List.length_replicate
  exact asks_encode3 zeroSid_ne_nul zeroSid_length_le h0 (by omega)

theorem longPath_length : (encode3 zeroSid longPath).length = MessageType3.size := by
  have hl : longPath.length = 3860 := List.length_replicate
  have hs := zeroSid_length_le
  exact encode3_length (by omega) (by omega)

theorem accepts_back_alice :
    AcceptedBack aliceOpened ⟨some (encode3 zeroSid longPath), memOf (chars "bbbbb"), envOf none⟩ := by
  obtain ⟨p, since, hi, hr⟩ := aliceOpened_issued
  refine (accepts_back_iff aliceOpened_reachable hi List.mem_cons_self hr rfl rfl
    (.request longPath_length longPath_asks)).mpr fun _ => .inr ?_
  have htail : Spells (memOf (chars "bbbbb")) (chars "bbbbb") := by
    rw [← List.append_nil (chars "bbbbb")]
    exact spells_memOf (by decide) rfl
  rw [longPath_asks.pathLength, htail.strnlen, longPath, List.length_replicate]
  decide

theorem long_request_corrupt : Reachable aliceOpened ∧
    (∃ p since, aliceOpened.Issued p since ∧
      p.reply = some (.type1 MessageType1.size zeroSid.length zeroSid)) ∧
    Honest (encode3 zeroSid longPath) zeroSid.length zeroSid ∧
    ¬ AcceptedBack aliceOpened (recvOf (encode3 zeroSid longPath) none) ∧
    replyOf (iteration aliceOpened (recvOf (encode3 zeroSid longPath) none)) =
      some (.type2 MessageType2.size 22 (chars "Corrupt Type 3 Message")) := by
  have hm : Honest (encode3 zeroSid longPath) zeroSid.length zeroSid :=
    .request longPath_length longPath_asks
  have hn : ¬ Completed (encode3 zeroSid longPath) (recvOf (encode3 zeroSid longPath) none).past := by
    intro hc
    have hends := hc longPath_asks.type
    have h0 : strnlen (recvOf (encode3 zeroSid longPath) none).past 241 = 0 := if_pos rfl
    rw [longPath_asks.pathLength, longPath, List.length_replicate] at hends
    rw [longPath] at h0
    omega
  obtain ⟨p, since, hi, hr⟩ := aliceOpened_issued
  refine ⟨aliceOpened_reachable, ⟨p, since, hi, hr⟩, hm, fun h => hn ?_, ?_⟩
  · exact (accepts_back_iff aliceOpened_reachable hi List.mem_cons_self hr rfl rfl hm).mp h
  · exact corrupt_of_not_completed longPath_length longPath_asks hn

end Getd
