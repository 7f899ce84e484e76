import NitroCloud.Foundations.Stdio

/-!
# The row file

`Row` (mem/row.h), `Reader` and `Writer` (mem/serializer.h), as the two copies under
`boost_cloud/include/mem` and `cloud_prototypes/include/mem` have them.  A row file is a `size_t`
header that holds the offset of the table, the rows, each ended by a line feed, and the table: a
`size_t` count and one entry, a `size_t` offset and a 16-bit number, for each row.

None of the calls into the C library is checked by the code, so the model keeps what each one does
when it falls short: a short `fread` leaves the missing bytes of the word zero, and a failed `fseek`
leaves the position.  Values of type `size_t` are naturals, reduced by `Target.wrap` where the code
adds to one.
-/

namespace NitroCloud

open Bytes Stdio

/-- The platforms of the Visual Studio projects; they differ in the width of `size_t`. -/
inductive Target where
  | win32
  | x64
deriving DecidableEq, Repr

namespace Target

/-- `sizeof(size_t)`. -/
def sizeofSizeT : Target → ℕ
  | win32 => 4
  | x64 => 8

/-- A sum as a value of type `size_t`. -/
def wrap (t : Target) (n : ℕ) : ℕ := n % 256 ^ t.sizeofSizeT

theorem two_pow_32_le (t : Target) : 2 ^ 32 ≤ 256 ^ t.sizeofSizeT := by
  cases t <;> simp [sizeofSizeT]

theorem wrap_eq (t : Target) {n : ℕ} (h : n < 256 ^ t.sizeofSizeT) : t.wrap n = n :=
  Nat.mod_eq_of_lt h

theorem wrap_of_lt (t : Target) {n : ℕ} (h : n < 2 ^ 32) : t.wrap n = n :=
  t.wrap_eq (lt_of_lt_of_le h t.two_pow_32_le)

theorem wrap_lt (t : Target) (n : ℕ) : t.wrap n < 256 ^ t.sizeofSizeT :=
  Nat.mod_lt _ (Nat.pow_pos (by norm_num))

end Target

/-- `sizeof(uint16_t)`. -/
def sizeofUInt16 : ℕ := 2

/-! ## Rows -/

/-- `ROW_END`. -/
def ROW_END : UInt8 := 10

/-- `element::Row`. -/
structure Row where
  m_value : Bytes
deriving DecidableEq, Repr

namespace Row

/-- `Row::Write`: the value without a terminator of its own, then `ROW_END`. -/
def write (row : Row) (fileToWrite : File) : ℕ × File :=
  let (offsetSeek, fileToWrite) := fileToWrite.fwrite row.m_value
  let (written, fileToWrite) := fileToWrite.fwrite [ROW_END]
  (offsetSeek + written, fileToWrite)

/-- The loop of `Row::Read`.  `char` is a signed byte, so the narrowing of the value of `fgetc`
makes the byte `0xFF` equal to `EOF`. -/
def readLoop : ℕ → File → Bytes → Bytes × File
  | 0, fileToRead, m_value => (m_value, fileToRead)
  | fuel + 1, fileToRead, m_value =>
    let (ch, fileToRead) := fileToRead.fgetc
    let c : Int8 := Int8.ofInt ch
    let m_value := if c.toInt ≠ EOF then m_value ++ [c.toUInt8] else m_value
    if c.toInt ≠ EOF ∧ c.toUInt8 ≠ ROW_END then readLoop fuel fileToRead m_value
    else (m_value, fileToRead)

/-- `Row::Read`.  Each turn of the loop but the last reads a byte, so the loop ends within one turn
more than there are bytes ahead.  The `bool` it returns is true, since a NUL was just pushed, and is
used by nobody. -/
def read (fileToRead : File) : Row × File :=
  let (m_value, fileToRead) :=
    readLoop (fileToRead.data.length - fileToRead.pos + 1) fileToRead []
  (⟨m_value ++ [0]⟩, fileToRead)

/-- `Row::GetCharsCount`, a `size_t`. -/
def getCharsCount (t : Target) (row : Row) : ℕ := t.wrap row.m_value.length

end Row

/-- `serializer::FileHolder`: the file, unless `fopen` failed. -/
structure FileHolder where
  m_file : Option File
deriving DecidableEq, Repr

/-! ## Reading -/

/-- A zero-initialized word of `w` bytes after `fread` into it. -/
def freadWord (w : ℕ) (f : File) : ℕ × File :=
  let (bs, f) := f.fread w
  (leValue bs, f)

/-- `serializer::Reader`. -/
abbrev Reader := FileHolder

namespace Reader

/-- A `Reader` just constructed on a file with the given content. -/
def ofContent (content : Bytes) : Reader := ⟨some (File.openRead content)⟩

/-- The loop of `Reader::GetRowById` with `n` entries left.  The variable `offsetRefTable` is not
used again there. -/
def findRow (t : Target) (rowId : UInt16) : ℕ → File → Option Row × File
  | 0, f => (none, f)
  | n + 1, f =>
    let (offsetRef, f) := freadWord t.sizeofSizeT f
    let (rowNumber, f) := freadWord sizeofUInt16 f
    if rowId = rowNumber.toUInt16 then
      let (row, f) := Row.read (f.fseek (toLong offsetRef))
      (some row, f)
    else findRow t rowId n f

/-- `Reader::GetRowById`. -/
def getRowById (t : Target) (reader : Reader) (rowId : UInt16) : Option Row × Reader :=
  match reader.m_file with
  | none => (none, reader)
  | some f =>
    let (offsetRefTable, f) := freadWord t.sizeofSizeT f
    let f := f.fseek (toLong offsetRefTable)
    let (sizeRowsCollection, f) := freadWord t.sizeofSizeT f
    let (result, f) := findRow t rowId sizeRowsCollection f
    (result, ⟨some f⟩)

/-- The loop of `Reader::Read` with `n` entries left. -/
def readRows (t : Target) : ℕ → ℕ → File → List Row → List Row × File
  | 0, _, f, collection => (collection, f)
  | n + 1, offsetRefTable, f, collection =>
    let (offsetRef, f) := freadWord t.sizeofSizeT f
    let offsetRefTable := t.wrap (offsetRefTable + t.sizeofSizeT)
    -- the row number is read and not used
    let (_, f) := freadWord sizeofUInt16 f
    let offsetRefTable := t.wrap (offsetRefTable + sizeofUInt16)
    let (newRow, f) := Row.read (f.fseek (toLong offsetRef))
    let f := f.fseek (toLong offsetRefTable)
    readRows t n offsetRefTable f (collection ++ [newRow])

/-- `Reader::Read`. -/
def read (t : Target) (reader : Reader) (collection : List Row) : List Row × Reader :=
  match reader.m_file with
  | none => (collection, reader)
  | some f =>
    let (offsetRefTable, f) := freadWord t.sizeofSizeT f
    let f := f.fseek (toLong offsetRefTable)
    -- the return value of `fread`, unlike the word it fills, tells how much was there
    let (bs, f) := f.fread t.sizeofSizeT
    let sizeRowsCollection := leValue bs
    let offsetRefTable := t.wrap (offsetRefTable + bs.length)
    let (collection, f) := readRows t sizeRowsCollection offsetRefTable f collection
    (collection, ⟨some f⟩)

end Reader

/-! ## Writing -/

/-- `serializer::Writer`. -/
abbrev Writer := FileHolder

namespace Writer

/-- A `Writer` just constructed: mode `wb` creates the file or empties it. -/
def fresh : Writer := ⟨some File.create⟩

/-- The loop of `Writer::Write` over the rows. -/
def writeRows (t : Target) : List Row → File → UInt16 → ℕ → List (ℕ × UInt16) →
    File × ℕ × List (ℕ × UInt16)
  | [], f, _, offsetSeek, offsetCollection => (f, offsetSeek, offsetCollection)
  | itemtoWrite :: rest, f, number, offsetSeek, offsetCollection =>
    let (writeSize, f) := itemtoWrite.write f
    let number := number + 1
    writeRows t rest f number (t.wrap (offsetSeek + writeSize))
      (offsetCollection ++ [(offsetSeek, number)])

/-- The loop of `Writer::Write` over the collected offsets. -/
def writeTable (t : Target) : List (ℕ × UInt16) → File → File
  | [], f => f
  | offset :: rest, f =>
    let (_, f) := f.fwrite (leBytes t.sizeofSizeT offset.1)
    let (_, f) := f.fwrite (leBytes sizeofUInt16 offset.2.toNat)
    writeTable t rest f

/-- `Writer::Write`. -/
def write (t : Target) (writer : Writer) (collection : List Row) : Writer :=
  match writer.m_file with
  | none => writer
  | some f =>
    let (offsetSeek, f) := f.fwrite (leBytes t.sizeofSizeT 0)
    let (f, offsetSeek, offsetCollection) := writeRows t collection f 0 offsetSeek []
    let offsetRefTable := offsetSeek
    let sizeRowsCollection := offsetCollection.length
    let (_, f) := f.fwrite (leBytes t.sizeofSizeT sizeRowsCollection)
    let f := writeTable t offsetCollection f
    let f := f.fseek 0
    let (_, f) := f.fwrite (leBytes t.sizeofSizeT offsetRefTable)
    ⟨some f⟩

/-- The content of the file that `Writer::Write` leaves on a fresh file. -/
def content (t : Target) (collection : List Row) : Bytes :=
  ((write t fresh collection).m_file.map File.data).getD []

end Writer

end NitroCloud
