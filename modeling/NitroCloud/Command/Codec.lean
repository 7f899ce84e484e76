import NitroCloud.Command.Command

/-!
# The command codec

`FromStream` on a stream whose next characters are the message of a `Count` command, after white
space, returns that command and stops in front of the two carriage returns that end the message
(`fromStream_message`).  They are white space to the next call, which gives the round trip of whole
streams; and since nothing behind the message is looked at, what follows it may be anything.
-/

namespace NitroCloud

open Bytes Stream

namespace Count

/-- The message of a command: the tag, the row index and three carriage returns. -/
theorem message_eq (c : Count) : c.message = [48, CR] ++ putInt c.m_rowIndex.toInt ++ [CR, CR] := by
  have htag : putInt CountCommand.toInt = [48] := by decide
  simp [message, serialize, write, htag]

theorem length_message_le (c : Count) : c.message.length ≤ 15 := by
  have h := length_putInt_le c.m_rowIndex
  simp only [message_eq, List.length_append, List.length_cons, List.length_nil]
  omega

/-- A message stored in a buffer leaves its length, and what no message reaches. -/
theorem length_store_message (c : Count) {buf : Bytes} (h : 15 ≤ buf.length) :
    (store buf c.message).length = buf.length :=
  length_store (c.length_message_le.trans h)

theorem drop_store_message (c : Count) (buf : Bytes) :
    (store buf c.message).drop 15 = buf.drop 15 :=
  drop_store buf c.length_message_le

theorem notMem_putInt {b : UInt8} (hdigit : isDigit b = false) (hsign : b ≠ 45) (v : Int) :
    b ∉ putInt v := by
  intro h
  rcases mem_putInt h with h | h
  · rw [hdigit] at h
    cases h
  · exact hsign h

theorem zero_notMem_message (c : Count) : (0 : UInt8) ∉ c.message := by
  have hrow : (0 : UInt8) ∉ putInt c.m_rowIndex.toInt := notMem_putInt rfl (by decide) _
  simp [message_eq, CR, hrow]

/-- An answer has the bytes of its texts, digits and a sign. -/
theorem notMem_run {b : UInt8} (hdigit : isDigit b = false) (hsign : b ≠ 45)
    (htexts : b ∉ ascii "Row[" ∧ b ∉ ascii "] = " ∧ b ∉ ascii "] = <error>") (t : Target)
    (file : Bytes) (c : Count) : b ∉ c.run t file := by
  have hcount (n : ℕ) : b ∉ putNat n := by
    intro h
    rw [isDigit_of_mem_putNat h] at hdigit
    cases hdigit
  have hrow := notMem_putInt hdigit hsign c.m_rowIndex.toInt
  unfold run
  split
  · simp [htexts, hcount, hrow]
  · simp [htexts, hrow]

/-- An answer is a C string. -/
theorem zero_notMem_run (t : Target) (file : Bytes) (c : Count) : (0 : UInt8) ∉ c.run t file :=
  notMem_run (by decide) (by decide) (by decide) t file c

/-- An answer is short. -/
theorem length_run_le (t : Target) (file : Bytes) (c : Count) : (c.run t file).length ≤ 39 := by
  have hrow := length_putInt_le c.m_rowIndex
  have htexts : (ascii "Row[").length = 4 ∧ (ascii "] = ").length = 4 ∧
      (ascii "] = <error>").length = 11 := by decide
  unfold run
  split
  case h_1 row _ =>
    have hcount : (putNat (row.getCharsCount t)).length ≤ 20 := by
      refine length_putNat_le (by decide) ((t.wrap_lt _).trans_le ?_)
      cases t <;> simp [Target.sizeofSizeT]
    simp only [List.length_append, htexts]
    omega
  case h_2 =>
    simp only [List.length_append, htexts]
    omega

theorem run_ne_nil (t : Target) (file : Bytes) (c : Count) : c.run t file ≠ [] := by
  have htext : ascii "Row[" ≠ [] := by decide
  unfold run
  split <;> simp [htext]

theorem serialize_eq (writeStream : Bytes) (c : Count) :
    serialize writeStream c = writeStream ++ c.message := by
  simp [message, serialize]

theorem foldl_serialize (writeStream : Bytes) (cs : List Count) :
    cs.foldl serialize writeStream = writeStream ++ cs.flatMap message := by
  induction cs generalizing writeStream with
  | nil => simp
  | cons c cs ih => rw [List.foldl_cons, ih, serialize_eq, List.flatMap_cons, List.append_assoc]

end Count

/-- The stream after the calls that decode one message: just past the digits of the row index. -/
def afterMessage (s : IStream) (ws : Bytes) (c : Count) : IStream :=
  { s with pos := s.pos + ws.length + 2 + (putInt c.m_rowIndex.toInt).length }

section Message

variable {s : IStream} {ws rest : Bytes} {c : Count}

theorem extractInt_tag (hgood : s.good = true) (hws : ∀ b ∈ ws, isSpace b = true)
    (h : s.data.drop s.pos = ws ++ (c.message ++ rest)) (x : Int32) :
    s.extractInt x = (CountCommand, { s with pos := s.pos + ws.length + 1 }) := by
  have hahead : s.data.drop s.pos = ws ++ (putInt CountCommand.toInt ++
      (Count.CR :: (putInt c.m_rowIndex.toInt ++ ([Count.CR, Count.CR] ++ rest)))) := by
    rw [h, Count.message_eq]
    simp [show putInt CountCommand.toInt = [48] from by decide]
  rw [IStream.extractInt_ahead CountCommand x hgood hahead hws (by simp [Count.CR, isDigit])]
  have heof : s.eof = false := (IStream.good_iff.1 hgood).1
  simp [heof, show putInt CountCommand.toInt = [48] from by decide]

/-- Looking at the tag leaves the stream as it was. -/
theorem readNextCommandType_message (hgood : s.good = true) (hws : ∀ b ∈ ws, isSpace b = true)
    (h : s.data.drop s.pos = ws ++ (c.message ++ rest)) :
    readNextCommandType s = (CountCommand, s) := by
  have hpos : s.pos ≤ s.data.length := by
    have hlen := congrArg List.length h
    rw [List.length_drop, List.length_append, List.length_append, Count.message_eq] at hlen
    simp only [List.length_append, List.length_cons] at hlen
    omega
  exact readNextCommandType_eq hgood hpos (extractInt_tag hgood hws h 0)

theorem deserialize_message (hgood : s.good = true) (hws : ∀ b ∈ ws, isSpace b = true)
    (h : s.data.drop s.pos = ws ++ (c.message ++ rest)) :
    deserialize s = (some c, afterMessage s ws c) := by
  -- after the tag, the row index lies behind the carriage return that ends the tag
  let s' : IStream := { s with pos := s.pos + ws.length + 1 }
  have hahead : s'.data.drop s'.pos =
      [Count.CR] ++ (putInt c.m_rowIndex.toInt ++ ([Count.CR, Count.CR] ++ rest)) := by
    simp only [s', Nat.add_assoc]
    rw [← List.drop_drop, h, ← List.drop_drop, List.drop_left, Count.message_eq]
    simp
  have hrow := IStream.extractInt_ahead (s := s') c.m_rowIndex (-1) hgood hahead
    (by simp [Count.CR, isSpace]) (by simp [Count.CR, isDigit])
  have heof : s.eof = false := (IStream.good_iff.1 hgood).1
  simp only [deserialize, IStream.tellg, hgood, if_true, extractInt_tag hgood hws h, ne_eq,
    not_true_eq_false, if_false, hrow, s', afterMessage]
  simp [heof, Nat.add_assoc]

/-- A message ahead is decoded, whatever follows it. -/
theorem fromStream_message (hgood : s.good = true) (hws : ∀ b ∈ ws, isSpace b = true)
    (h : s.data.drop s.pos = ws ++ (c.message ++ rest)) :
    fromStream s = (some c, afterMessage s ws c) := by
  simp only [fromStream, readNextCommandType_message hgood hws h, deserialize_message hgood hws h,
    if_true]

/-- A text that starts with a message is decoded to its command. -/
theorem fromStream_data (c : Count) (rest : Bytes) :
    (fromStream { data := c.message ++ rest }).1 = some c := by
  have hahead : (c.message ++ rest).drop 0 = [] ++ (c.message ++ rest) := rfl
  rw [fromStream_message rfl (by simp) hahead]

/-- The C string of a buffer that starts with a message is decoded to its command. -/
theorem fromStream_store (buf : Bytes) (c : Count) :
    (fromStream { data := cStr (store buf c.message) }).1 = some c := by
  rw [store, cStr_append c.zero_notMem_message, fromStream_data]

/-- A text that starts with a message is answered by running its command. -/
theorem answer_message (t : Target) (file : Bytes) (c : Count) (rest : Bytes) :
    answer t file (c.message ++ rest) = some (c.run t file) := by
  rw [answer, fromStream_data, Option.map_some]

theorem answer_self (t : Target) (file : Bytes) (c : Count) :
    answer t file c.message = some (c.run t file) := by
  simpa using answer_message t file c []

/-- What lies ahead then are the last two carriage returns and what followed the message. -/
theorem drop_afterMessage (h : s.data.drop s.pos = ws ++ (c.message ++ rest)) :
    (afterMessage s ws c).data.drop (afterMessage s ws c).pos = [Count.CR, Count.CR] ++ rest := by
  have hlen : ([48, Count.CR] ++ putInt c.m_rowIndex.toInt).length =
      2 + (putInt c.m_rowIndex.toInt).length := by
    rw [List.length_append]
    rfl
  simp only [afterMessage, Nat.add_assoc]
  rw [← List.drop_drop, h, ← List.drop_drop, List.drop_left, Count.message_eq, List.append_assoc,
    ← hlen, List.drop_left]

end Message

/-! ## Whole streams -/

/-- Decoding as many commands as were serialized, from a stream that holds them behind white
space. -/
theorem fromStreamTimes_messages (cs : List Count) {s : IStream} {ws : Bytes}
    (hgood : s.good = true) (hws : ∀ b ∈ ws, isSpace b = true)
    (h : s.data.drop s.pos = ws ++ cs.flatMap Count.message) :
    (fromStreamTimes cs.length s).1 = cs.map some := by
  induction cs generalizing s ws with
  | nil => rfl
  | cons c cs ih =>
    rw [List.flatMap_cons] at h
    have hnext := ih (s := afterMessage s ws c) hgood (by simp [Count.CR, isSpace])
      (drop_afterMessage h)
    simp only [List.length_cons, fromStreamTimes, fromStream_message hgood hws h, hnext,
      List.map_cons]

/-- Commands serialized one after another into one stream are decoded by as many calls of
`FromStream`, with the same row indices in the same order. -/
theorem fromStream_serialize (rows : List Int32) :
    (fromStreamTimes rows.length
        { data := (rows.map Count.mk).foldl Count.serialize [] }).1 =
      rows.map fun r => some ⟨r⟩ := by
  have hdata := Count.foldl_serialize [] (rows.map Count.mk)
  have h := fromStreamTimes_messages (rows.map Count.mk)
    (s := { data := (rows.map Count.mk).foldl Count.serialize [] }) rfl (by simp) hdata
  rw [List.length_map, List.map_map] at h
  exact h

end NitroCloud
