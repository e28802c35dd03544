import Getd.Main

/-!
# What the builders send

Each builder as one equation: what it does to the process (`..Builder_eq`) and
how its receiver decodes the reply (`decode_out..`). `out1`, `out2`, `out4` and
`out5` are the writes into `outMessage`, in the order of the source.
-/

namespace Getd

open CLib

/-! ## Writes into `outMessage` -/

def out2 (b : Buf) (errorMsg : List UInt8) : Buf :=
  ((((b.write 4 (le32 MessageType2.size)).write 0 [2]).write 8 (le32 errorMsg.length)).write 12
    errorMsg).write (12 + (errorMsg.length + 1)) [0]

def out1 (b : Buf) (sid : List UInt8) : Buf :=
  (((b.write 0 [1]).write 12 (sid ++ [0])).write 8 (le32 sid.length)).write 4
    (le32 MessageType1.size)

def out4 (b : Buf) (file : Option Nat) (got sid : List UInt8) : Buf :=
  (((((b.write 0 [4]).store 145 got file).write 12 (le32 got.length)).write 16
    (sid ++ [0])).write 8 (le32 sid.length)).write 4 (le32 MessageType4.size)

def out5 (b : Buf) (sid : List UInt8) : Buf :=
  (((b.write 0 [5]).write 12 (sid ++ [0])).write 8 (le32 sid.length)).write 4
    (le32 MessageType5.size)

theorem byte_write_head {b : Buf} {x : UInt8} {o : Option Nat} :
    (b.store 0 [x] o).byte 0 = x :=
  Buf.store_byte_in (k := 0) (i := 0) (by simp)

theorem out2_fields (b : Buf) {errorMsg : List UInt8} (h : errorMsg.length < 2 ^ 32) :
    Header.messageType (out2 b errorMsg).byte = 2 ∧
      Header.messageLength (out2 b errorMsg).byte = MessageType2.size ∧
      MessageType2.msgLength (out2 b errorMsg).byte = errorMsg.length ∧
      (MessageType2.errorMessage (out2 b errorMsg).byte).bytes 0 errorMsg.length = errorMsg := by
  refine ⟨?_, ?_, ?_, ?_⟩
  · unfold out2 Header.messageType
    rw [Buf.store_byte_out (by omega), Buf.store_byte_out (by omega),
      Buf.store_byte_out (by omega), byte_write_head]
  · unfold out2 Header.messageLength
    rw [Buf.u32_store_of_disjoint (by omega), Buf.u32_store_of_disjoint (by omega),
      Buf.u32_store_of_disjoint (by simp), Buf.u32_store_of_disjoint (by simp),
      Buf.u32_write_self (by decide)]
  · unfold out2 MessageType2.msgLength
    rw [Buf.u32_store_of_disjoint (by omega), Buf.u32_store_of_disjoint (by omega),
      Buf.u32_write_self h]
  · unfold out2 MessageType2.errorMessage
    rw [Mem.bytes_off, Buf.bytes_store_of_disjoint (by omega), Buf.bytes_store_self]

theorem out1_fields (b : Buf) {sid : List UInt8} (h0 : 0 ∉ sid) (hs : sid.length ≤ 128) :
    Header.messageType (out1 b sid).byte = 1 ∧
      Header.messageLength (out1 b sid).byte = MessageType1.size ∧
      MessageType1.sidLength (out1 b sid).byte = sid.length ∧
      Spells (MessageType1.sessionId (out1 b sid).byte) sid := by
  refine ⟨?_, ?_, ?_, ?_⟩
  · unfold out1 Header.messageType
    rw [Buf.store_byte_out (by omega), Buf.store_byte_out (by omega),
      Buf.store_byte_out (by omega), byte_write_head]
  · unfold out1 Header.messageLength
    rw [Buf.u32_write_self (by decide)]
  · unfold out1 MessageType1.sidLength
    rw [Buf.u32_store_of_disjoint (by simp), Buf.u32_write_self (by omega)]
  · unfold out1 MessageType1.sessionId
    exact Buf.spells_store_of_disjoint (Buf.spells_store_of_disjoint
      (Buf.spells_write_self h0) (by simp)) (by simp)

theorem out5_fields (b : Buf) {sid : List UInt8} (h0 : 0 ∉ sid) (hs : sid.length ≤ 128) :
    Header.messageType (out5 b sid).byte = 5 ∧
      Header.messageLength (out5 b sid).byte = MessageType5.size ∧
      MessageType5.sidLength (out5 b sid).byte = sid.length ∧
      Spells (MessageType5.sessionId (out5 b sid).byte) sid := by
  refine ⟨?_, ?_, ?_, ?_⟩
  · unfold out5 Header.messageType
    rw [Buf.store_byte_out (by omega), Buf.store_byte_out (by omega),
      Buf.store_byte_out (by omega), byte_write_head]
  · unfold out5 Header.messageLength
    rw [Buf.u32_write_self (by decide)]
  · unfold out5 MessageType5.sidLength
    rw [Buf.u32_store_of_disjoint (by simp), Buf.u32_write_self (by omega)]
  · unfold out5 MessageType5.sessionId
    exact Buf.spells_store_of_disjoint (Buf.spells_store_of_disjoint
      (Buf.spells_write_self h0) (by simp)) (by simp)

theorem out4_fields (b : Buf) (file : Option Nat) {got sid : List UInt8} (h0 : 0 ∉ sid)
    (hs : sid.length ≤ 128) (hg : got.length ≤ 4096) :
    Header.messageType (out4 b file got sid).byte = 4 ∧
      Header.messageLength (out4 b file got sid).byte = MessageType4.size ∧
      MessageType4.sidLength (out4 b file got sid).byte = sid.length ∧
      MessageType4.contentLength (out4 b file got sid).byte = got.length ∧
      Spells (MessageType4.sessionId (out4 b file got sid).byte) sid ∧
      (MessageType4.contentBuffer (out4 b file got sid).byte).bytes 0 got.length = got := by
  refine ⟨?_, ?_, ?_, ?_, ?_, ?_⟩
  · unfold out4 Header.messageType
    rw [Buf.store_byte_out (by omega), Buf.store_byte_out (by omega),
      Buf.store_byte_out (by omega), Buf.store_byte_out (by omega),
      Buf.store_byte_out (by omega), byte_write_head]
  · unfold out4 Header.messageLength
    rw [Buf.u32_write_self (by decide)]
  · unfold out4 MessageType4.sidLength
    rw [Buf.u32_store_of_disjoint (by simp), Buf.u32_write_self (by omega)]
  · unfold out4 MessageType4.contentLength
    rw [Buf.u32_store_of_disjoint (by simp), Buf.u32_store_of_disjoint (by simp),
      Buf.u32_store_of_disjoint (by omega), Buf.u32_write_self (by omega)]
  · unfold out4 MessageType4.sessionId
    exact Buf.spells_store_of_disjoint (Buf.spells_store_of_disjoint
      (Buf.spells_write_self h0) (by simp)) (by simp)
  · unfold out4 MessageType4.contentBuffer
    rw [Mem.bytes_off, Buf.bytes_store_of_disjoint (by simp),
      Buf.bytes_store_of_disjoint (by simp), Buf.bytes_store_of_disjoint
        (by simp only [List.length_append, List.length_singleton]; omega),
      Buf.bytes_store_of_disjoint (by simp), Buf.bytes_store_self]

theorem decode_out2 (b : Buf) {errorMsg : List UInt8} (h : errorMsg.length < 2 ^ 32) :
    Reply.decode (out2 b errorMsg).byte =
      some (.type2 MessageType2.size errorMsg.length errorMsg) := by
  obtain ⟨htype, hlen, hmsg, htext⟩ := out2_fields b h
  unfold Reply.decode
  rw [htype, hlen, hmsg, htext]
  rfl

theorem decode_out1 (b : Buf) {sid : List UInt8} (h0 : 0 ∉ sid) (hs : sid.length ≤ 128) :
    Reply.decode (out1 b sid).byte = some (.type1 MessageType1.size sid.length sid) := by
  obtain ⟨htype, hlen, hsid, hid⟩ := out1_fields b h0 hs
  unfold Reply.decode
  rw [htype, hlen, hsid, sidField_of_spells hid hs]
  rfl

theorem decode_out5 (b : Buf) {sid : List UInt8} (h0 : 0 ∉ sid) (hs : sid.length ≤ 128) :
    Reply.decode (out5 b sid).byte = some (.type5 MessageType5.size sid.length sid) := by
  obtain ⟨htype, hlen, hsid, hid⟩ := out5_fields b h0 hs
  unfold Reply.decode
  rw [htype, hlen, hsid, sidField_of_spells hid hs]
  rfl

theorem decode_out4 (b : Buf) (file : Option Nat) {got sid : List UInt8} (h0 : 0 ∉ sid)
    (hs : sid.length ≤ 128) (hg : got.length ≤ 4096) :
    Reply.decode (out4 b file got sid).byte =
      some (.type4 MessageType4.size sid.length got.length sid got) := by
  obtain ⟨htype, hlen, hsid, hcount, hid, hcontent⟩ := out4_fields b file h0 hs hg
  unfold Reply.decode
  rw [htype, hlen, hsid, hcount, hcontent, sidField_of_spells hid hs]
  rfl

/-! ## The builders -/

section Builders

variable {e : Env} {g : Daemon}

theorem messageType2Builder_eq (g : Daemon) (errorMsg : List UInt8) :
    messageType2Builder g errorMsg =
      ({ g with outMessage := out2 g.outMessage errorMsg }, MessageType2.size) := by
  have h : Header.messageLength (out2 g.outMessage errorMsg).byte = MessageType2.size := by
    unfold out2 Header.messageLength
    rw [Buf.u32_store_of_disjoint (by omega), Buf.u32_store_of_disjoint (by omega),
      Buf.u32_store_of_disjoint (by simp), Buf.u32_store_of_disjoint (by simp),
      Buf.u32_write_self (by decide)]
  exact Prod.ext rfl h

theorem messageType1Builder_eq (h : g.state.Terminated) :
    messageType1Builder e g =
      ({ g with
        state := { g.state with lastSent := 1 }
        outMessage := out1 g.outMessage g.state.sid }, MessageType1.size) := by
  have h1 : (g.put 0 [1]).sessionId e = g.state.image e.beyond := rfl
  have h2 : ∀ bs, ((g.put 0 [1]).put 12 bs).sessionId e = g.state.image e.beyond := fun _ => rfl
  unfold messageType1Builder
  simp only [h1, h2, h.cstr, h.strlen]
  exact Prod.ext rfl (Buf.u32_write_self (by decide))

theorem messegeType5Builder_eq (h : g.state.Terminated) :
    messegeType5Builder e g =
      ({ g.fclose with
        state := { g.state with lastSent := 5 }
        outMessage := out5 g.outMessage g.state.sid }, MessageType5.size) := by
  have h5 : State.Terminated { g.state with lastSent := 5 } := h.congr rfl
  have hsid : State.sid { g.state with lastSent := 5 } = g.state.sid := State.sid_congr rfl
  have hcstr : cstr (((g.fclose.setLastSent 5).put 0 [5]).sessionId e) = g.state.sid :=
    (h5.cstr e.beyond).trans hsid
  have hlen : strlen (MessageType5.sessionId
      (((g.fclose.setLastSent 5).put 0 [5]).put 12 (g.state.sid ++ [0])).outMessage.byte) =
      g.state.sid.length :=
    (Buf.spells_write_self (State.sid_ne_nul _)).strlen (Nat.le_of_lt (State.sid_length_lt h))
  unfold messegeType5Builder
  simp only [hcstr, hlen]
  exact Prod.ext rfl (Buf.u32_write_self (by decide))

/-- The process after `fread` and the `getc` that follows a short read. -/
def Daemon.readBlock (g : Daemon) : Daemon :=
  if (g.got 4096).length ≠ 4096 then (g.fread 145 4096).getc else g.fread 145 4096

theorem readBlock_sendFile (g : Daemon) : g.readBlock.sendFile = g.sendFile := by
  unfold Daemon.readBlock
  split <;> rfl

theorem got_length_le (g : Daemon) (n : Nat) : (g.got n).length ≤ n := by
  unfold Daemon.got
  cases g.file with
  | none => exact Nat.zero_le n
  | some f => exact Stream.fread_length_le f.stream n

theorem messegeType4Builder_eq (h : g.state.Terminated) :
    messegeType4Builder e g =
      ({ g.readBlock with
        state := { g.state with lastSent := 4 }
        outMessage := out4 g.outMessage g.sendFile (g.got 4096) g.state.sid },
      MessageType4.size) := by
  have h4 : State.Terminated { g.state with lastSent := 4 } := h.congr rfl
  have hsid : State.sid { g.state with lastSent := 4 } = g.state.sid := State.sid_congr rfl
  have hle := got_length_le g 4096
  -- the process once the content is in place
  let g1 := (((g.setLastSent 4).put 0 [4]).fread 145 4096).put 12 (le32 (g.got 4096).length)
  have hcount : MessageType4.contentLength g1.outMessage.byte = (g.got 4096).length :=
    Buf.u32_write_self (by omega)
  have htail : ∀ g2 : Daemon, g2.state = { g.state with lastSent := 4 } →
      (let g3 := g2.put 16 (cstr (g2.sessionId e) ++ [0])
       let g4 := g3.put 8 (le32 (strlen (MessageType4.sessionId g3.outMessage.byte)))
       let g5 := g4.put 4 (le32 MessageType4.size)
       (g5, Header.messageLength g5.outMessage.byte)) =
      (((g2.put 16 (g.state.sid ++ [0])).put 8 (le32 g.state.sid.length)).put 4
        (le32 MessageType4.size), MessageType4.size) := by
    intro g2 h2
    have hcstr : cstr (g2.sessionId e) = g.state.sid := by
      unfold Daemon.sessionId
      rw [h2, h4.cstr, hsid]
    have hlen : strlen (MessageType4.sessionId
        (g2.put 16 (g.state.sid ++ [0])).outMessage.byte) = g.state.sid.length :=
      (Buf.spells_write_self (State.sid_ne_nul _)).strlen (Nat.le_of_lt (State.sid_length_lt h))
    simp only [hcstr, hlen]
    exact Prod.ext rfl (Buf.u32_write_self (by decide))
  have hsplit := htail (if MessageType4.contentLength g1.outMessage.byte ≠ 4096 then g1.getc
    else g1) (by split <;> rfl)
  refine Eq.trans hsplit ?_
  rw [hcount]
  unfold Daemon.readBlock
  split <;> rfl

end Builders

/-! ## The stream of `sendFile` -/

section Streams

variable {g : Daemon} {h : Nat} {f : OpenFile}

theorem file_stream (hs : g.sendFile = some h) (hf : g.streams[h]? = some f) : g.file = some f := by
  rw [Daemon.file, hs, Option.bind_some, hf]

theorem got_file (hf : g.file = some f) (n : Nat) : g.got n = (f.stream.fread n).1 := by
  rw [Daemon.got, hf, Option.map_some, Option.getD_some]

theorem atEof_file (hf : g.file = some f) : g.atEof = f.stream.eof := by
  rw [Daemon.atEof, hf, Option.map_some, Option.getD_some]

theorem got_stream (hs : g.sendFile = some h) (hf : g.streams[h]? = some f) (n : Nat) :
    g.got n = (f.stream.fread n).1 := got_file (file_stream hs hf) n

theorem atEof_stream (hs : g.sendFile = some h) (hf : g.streams[h]? = some f) :
    g.atEof = f.stream.eof := atEof_file (file_stream hs hf)

theorem onFile_stream (hs : g.sendFile = some h) (hf : g.streams[h]? = some f)
    (φ : OpenFile → OpenFile) : (g.onFile φ)[h]? = some (φ f) := by
  simp only [Daemon.onFile, hs, List.getElem?_modify, hf, if_true, Option.map_eq_map,
    Option.map_some]

theorem readBlock_stream (hs : g.sendFile = some h) (hf : g.streams[h]? = some f) :
    g.readBlock.streams[h]? = some { f with stream := f.stream.next 4096 } := by
  have hread : (g.fread 145 4096).streams[h]? =
      some { f with stream := (f.stream.fread 4096).2 } := onFile_stream hs hf _
  unfold Daemon.readBlock Stream.next
  rw [got_stream hs hf]
  split
  · exact onFile_stream (g := g.fread 145 4096) hs hread _
  · exact hread

theorem readBlock_file (hf : g.file = some f) :
    g.readBlock.file = some { f with stream := f.stream.next 4096 } := by
  obtain ⟨h, hs, hf'⟩ := Option.bind_eq_some_iff.mp hf
  exact file_stream ((readBlock_sendFile g).trans hs) (readBlock_stream hs hf')

end Streams

end Getd
