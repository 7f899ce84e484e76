import NitroCloud.Foundations.IStream
import NitroCloud.Mem.Serializer

/-!
# Commands

`command/command.h` and `command/command_impl.h` of `boost_cloud` and `cloud_prototypes`: the text
format of a `Count` command, the decoder `FromStream` with its peek at the type tag, the command
generator, and `CountImpl::Run`.  Between the two trees the decoder is a member of
`CommandGenerator` or of `CommandDeserializer`, with the same body.

A decoded command also carries the reader that the decoder shares with all its commands.  `Run`
opens a reader of its own and does not look at that one, so it is left out.
-/

namespace NitroCloud

open Bytes Stdio Stream

/-- `MESSAGE_SIZE` of `define.h`. -/
def MESSAGE_SIZE : ℕ := 2048

/-- The type tag `CountCommand`; the tag is read and compared as an `int`. -/
def CountCommand : Int32 := 0

/-- `command::Count` and `command::CountImpl`. -/
structure Count where
  m_rowIndex : Int32
deriving DecidableEq, Repr

namespace Count

/-- The carriage return that ends each field. -/
def CR : UInt8 := 13

/-- `Count::Write`: the text it adds to the stream. -/
def write (c : Count) : Bytes := putInt c.m_rowIndex.toInt ++ [CR]

/-- `Base::Serialize` of a `Count`, on a stream that holds the text `writeStream`. -/
def serialize (writeStream : Bytes) (base : Count) : Bytes :=
  writeStream ++ (putInt CountCommand.toInt ++ [CR]) ++ base.write ++ [CR]

/-- The text that `Base::Serialize` puts into an empty stream: the message sent for a command. -/
def message (c : Count) : Bytes := serialize [] c

end Count

/-! ## Decoding -/

/-- `Base::ReadNextCommandType`: the next integer, with the position put back. -/
def readNextCommandType (readStream : IStream) : Int32 × IStream :=
  let (saveSeek, readStream) := readStream.tellg
  let (type, readStream) := readStream.extractInt 0
  (type, readStream.seekg saveSeek)

/-- The look at a tag that can be read leaves the stream as it was: `seekg` puts back the position,
and clears the `eofbit` of an extraction that came to the end. -/
theorem readNextCommandType_eq {s : IStream} {type : Int32} {pos : ℕ} {eof : Bool}
    (hgood : s.good = true) (hpos : s.pos ≤ s.data.length)
    (hextract : s.extractInt 0 = (type, { s with pos := pos, eof := eof })) :
    readNextCommandType s = (type, s) := by
  obtain ⟨heof, hfail⟩ := IStream.good_iff.1 hgood
  have htell : s.tellg = ((s.pos : ℤ), s) := by
    rw [IStream.tellg, if_pos hgood]
  have hseek : IStream.seekg { s with pos := pos, eof := eof } s.pos = s := by
    rw [IStream.seekg, if_neg (by simp [hfail]), if_pos ⟨by omega, by simpa using hpos⟩]
    obtain ⟨data, pos, eof, fail⟩ := s
    cases heof
    rfl
  simp only [readNextCommandType, htell, hextract, hseek]

/-- `Base::Deserialize<CountImpl>`.  The command starts as `CountImpl()`, with row index `-1`. -/
def deserialize (readStream : IStream) : Option Count × IStream :=
  let (saveSeek, readStream) := readStream.tellg
  let (type, readStream) := readStream.extractInt 0
  if CountCommand ≠ type then (none, readStream.seekg saveSeek)
  else
    let (m_rowIndex, readStream) := readStream.extractInt (-1)
    (some ⟨m_rowIndex⟩, readStream)

/-- `FromStream`. -/
def fromStream (readStream : IStream) : Option Count × IStream :=
  let (type, readStream) := readNextCommandType readStream
  if type = CountCommand then deserialize readStream else (none, readStream)

/-- `n` calls of `FromStream` on one stream. -/
def fromStreamTimes : ℕ → IStream → List (Option Count) × IStream
  | 0, readStream => ([], readStream)
  | n + 1, readStream =>
    let (command, readStream) := fromStream readStream
    let (commands, readStream) := fromStreamTimes n readStream
    (command :: commands, readStream)

/-! ## Running -/

/-- `CountImpl::Run` with the given content of the data file.  The row index is an `int` in the
answer and is converted to `uint16_t` for the lookup. -/
def Count.run (t : Target) (file : Bytes) (c : Count) : Bytes :=
  match (Reader.getRowById t (Reader.ofContent file) c.m_rowIndex.toUInt32.toUInt16).1 with
  | some row =>
    ascii "Row[" ++ putInt c.m_rowIndex.toInt ++ ascii "] = " ++ putNat (row.getCharsCount t)
  | none => ascii "Row[" ++ putInt c.m_rowIndex.toInt ++ ascii "] = <error>"

/-- A text decoded by a fresh `FromStream` and run: `none` when the decoder returns null. -/
def answer (t : Target) (file : Bytes) (text : Bytes) : Option Bytes :=
  (fromStream { data := text }).1.map (Count.run t file)

/-! ## Generating -/

/-- `command::CommandGenerator`.  `rowIndex k` is the row index that the call of `NextCommand` draws
which leaves `k` iterations; the theorems hold for every such choice. -/
structure CommandGenerator where
  m_iteration : ℕ
  rowIndex : ℕ → Int32

namespace CommandGenerator

/-- `CommandGenerator()`: 4000 iterations, each drawing `rand() % 2999`. -/
def ofRand (rand : ℕ → ℕ) : CommandGenerator := ⟨4000, fun k => Int32.ofNat (rand k % 2999)⟩

/-- `HasCommands`. -/
def hasCommands (g : CommandGenerator) : Bool := 0 < g.m_iteration

/-- `NextCommand`. -/
def nextCommand (g : CommandGenerator) : Option Count × CommandGenerator :=
  match g.m_iteration with
  | 0 => (none, g)
  | k + 1 => (some ⟨g.rowIndex k⟩, { g with m_iteration := k })

/-- The commands that the generator has still to hand out, in order. -/
def commands (g : CommandGenerator) : List Count :=
  ((List.range g.m_iteration).map fun k => ⟨g.rowIndex k⟩).reverse

/-- The commands of a generator are those it hands out next, in order. -/
theorem commands_eq (g : CommandGenerator) :
    g.commands = g.nextCommand.1.toList ++ g.nextCommand.2.commands := by
  obtain ⟨n, rowIndex⟩ := g
  cases n with
  | zero => rfl
  | succ n => simp [commands, nextCommand, List.range_succ]

/-- A generator without commands stays as it is. -/
theorem exhausted {g : CommandGenerator} (h : g.hasCommands = false) :
    g.nextCommand = (none, g) ∧ g.commands = [] := by
  obtain ⟨n, rowIndex⟩ := g
  cases n with
  | zero => exact ⟨rfl, rfl⟩
  | succ n => simp [hasCommands] at h

/-- A command handed out is one iteration less. -/
theorem m_iteration_nextCommand {g g' : CommandGenerator} {command : Count}
    (h : g.nextCommand = (some command, g')) : g'.m_iteration < g.m_iteration := by
  obtain ⟨n, rowIndex⟩ := g
  cases n with
  | zero => cases h
  | succ n =>
    cases h
    exact Nat.lt_succ_self n

/-- A generator has no iteration left, or hands out a command for one. -/
theorem nextCommand_cases (g : CommandGenerator) :
    (g.m_iteration = 0 ∧ g.nextCommand = (none, g)) ∨
      ∃ command g', g.nextCommand = (some command, g') ∧ g.m_iteration = g'.m_iteration + 1 := by
  obtain ⟨n, rowIndex⟩ := g
  cases n with
  | zero => exact .inl ⟨rfl, rfl⟩
  | succ n => exact .inr ⟨_, _, rfl, rfl⟩

end CommandGenerator

/-! ## Results -/

/-- `statistic::Result`. -/
structure Result where
  request : Bytes
  response : Bytes
deriving DecidableEq, Repr

end NitroCloud
