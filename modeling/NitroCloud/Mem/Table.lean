import NitroCloud.Mem.Serializer

/-!
# The two ways to read the table

`Reader::GetRowById` walks the table entry by entry, while `Reader::Read` leaves it for every row
and seeks back to an offset that it keeps itself.  Both see the same entries: those of the bytes
that lie ahead once the count has been read (`tableBytes`), where `entry` fills the bytes that are
missing past the end of the file with zeros.  `findRow_spec` and `readRows_spec` say what each loop
returns in terms of these entries.
-/

namespace NitroCloud

open Bytes Stdio

/-- The row that `Row::Read` makes at an offset of a file. -/
def rowAt (data : Bytes) (offset : ℕ) : Row := (Row.read ⟨data, offset⟩).1

@[simp] theorem Row.readLoop_data (fuel : ℕ) (f : File) (m_value : Bytes) :
    (Row.readLoop fuel f m_value).2.data = f.data := by
  induction fuel generalizing f m_value with
  | zero => rfl
  | succ fuel ih =>
    simp only [Row.readLoop]
    split_ifs <;> simp [ih]

@[simp] theorem Row.read_data (f : File) : (Row.read f).2.data = f.data := by
  simp [Row.read]

@[simp] theorem freadWord_fst (w : ℕ) (f : File) : (freadWord w f).1 = leValue (f.ahead.take w) :=
  rfl

@[simp] theorem freadWord_data (w : ℕ) (f : File) : (freadWord w f).2.data = f.data := rfl

@[simp] theorem ahead_freadWord (w : ℕ) (f : File) : (freadWord w f).2.ahead = f.ahead.drop w :=
  f.ahead_fread w

/-! ## Entries -/

section Entries

variable (t : Target)

/-- The size of a table entry. -/
def entrySize : ℕ := t.sizeofSizeT + sizeofUInt16

/-- The `i`-th entry of a table, its offset and its number, with bytes that are missing zero. -/
def entry (table : Bytes) (i : ℕ) : ℕ × UInt16 :=
  let bs := table.drop (i * entrySize t)
  (leValue (bs.take t.sizeofSizeT), (leValue ((bs.drop t.sizeofSizeT).take sizeofUInt16)).toUInt16)

theorem entry_drop (table : Bytes) (i : ℕ) :
    entry t (table.drop (entrySize t)) i = entry t table (i + 1) := by
  simp only [entry, List.drop_drop, Nat.succ_mul, Nat.add_comm (entrySize t)]

/-- The offset in the header. -/
def tableOffset (content : Bytes) : ℕ := leValue (content.take t.sizeofSizeT)

/-- The declared number of entries. -/
def tableCount (content : Bytes) : ℕ :=
  leValue ((content.drop (tableOffset t content)).take t.sizeofSizeT)

/-- The offset of the first entry: the one after the bytes of the count that there are. -/
def tableStart (content : Bytes) : ℕ :=
  tableOffset t content + ((content.drop (tableOffset t content)).take t.sizeofSizeT).length

/-- The bytes that lie ahead once the count has been read. -/
def tableBytes (content : Bytes) : Bytes := content.drop (tableStart t content)

end Entries

theorem tableBytes_eq (t : Target) (content : Bytes) :
    tableBytes t content = (content.drop (tableOffset t content)).drop t.sizeofSizeT :=
  File.ahead_fread ⟨content, tableOffset t content⟩ t.sizeofSizeT

/-! ## The loops -/

/-- `GetRowById` returns the row of the first entry with the number. -/
theorem Reader.findRow_spec (t : Target) (rowId : UInt16) (n : ℕ) (f : File)
    (hoff : ∀ i < n, (entry t f.ahead i).1 < 2 ^ 31) :
    (Reader.findRow t rowId n f).1 =
      ((List.range n).find? fun i => rowId = (entry t f.ahead i).2).map fun i =>
        rowAt f.data (entry t f.ahead i).1 := by
  induction n generalizing f with
  | zero => rfl
  | succ n ih =>
    let f' := (freadWord sizeofUInt16 (freadWord t.sizeofSizeT f).2).2
    have hdata : f'.data = f.data := rfl
    have hahead : f'.ahead = f.ahead.drop (entrySize t) := by
      simp only [f', ahead_freadWord, List.drop_drop, entrySize]
    have h₀ : entry t f.ahead 0 = ((freadWord t.sizeofSizeT f).1,
        (freadWord sizeofUInt16 (freadWord t.sizeofSizeT f).2).1.toUInt16) := by
      simp [entry]
    have hshift : ∀ i, entry t f'.ahead i = entry t f.ahead (i + 1) := by
      intro i
      rw [hahead, entry_drop]
    have hoff₀ := hoff 0 (Nat.succ_pos n)
    rw [h₀] at hoff₀
    rw [List.range_succ_eq_map, List.find?_cons, Reader.findRow]
    simp only [h₀]
    by_cases hid : rowId = (freadWord sizeofUInt16 (freadWord t.sizeofSizeT f).2).1.toUInt16
    · simp only [← hid, if_true, decide_true, Option.map_some, h₀]
      rw [File.fseek_toLong _ hoff₀, rowAt]
      rfl
    · simp only [if_neg hid, decide_eq_false hid, List.find?_map, Option.map_map]
      have hrec := ih f' fun i hi => by
        rw [hshift]
        exact hoff (i + 1) (by omega)
      simp only [hshift, hdata] at hrec
      exact hrec

/-- `Read` pushes the rows of all entries in order: seeking back to the offset it keeps puts it in
front of the entry that the walk of `GetRowById` would read next. -/
theorem Reader.readRows_spec (t : Target) (n offsetRefTable : ℕ) (f : File) (collection : List Row)
    (hahead : f.ahead = f.data.drop offsetRefTable)
    (hpos : ∀ i < n, offsetRefTable + (i + 1) * entrySize t < 2 ^ 31)
    (hoff : ∀ i < n, (entry t f.ahead i).1 < 2 ^ 31) :
    (Reader.readRows t n offsetRefTable f collection).1 =
      collection ++ (List.range n).map fun i => rowAt f.data (entry t f.ahead i).1 := by
  induction n generalizing offsetRefTable f collection with
  | zero => simp [Reader.readRows]
  | succ n ih =>
    have hpos₀ : offsetRefTable + entrySize t < 2 ^ 31 := by
      simpa using hpos 0 (Nat.succ_pos n)
    have hoff₀ : (freadWord t.sizeofSizeT f).1 < 2 ^ 31 := by
      simpa [entry] using hoff 0 (Nat.succ_pos n)
    have hwrap : t.wrap (t.wrap (offsetRefTable + t.sizeofSizeT) + sizeofUInt16) =
        offsetRefTable + entrySize t := by
      rw [entrySize] at hpos₀
      rw [t.wrap_of_lt (by omega : offsetRefTable + t.sizeofSizeT < 2 ^ 32),
        t.wrap_of_lt (by omega), entrySize, Nat.add_assoc]
    rw [Reader.readRows]
    simp only [hwrap, File.fseek_toLong _ hpos₀, File.fseek_toLong _ hoff₀, Row.read_data,
      freadWord_data]
    have hshift : ∀ i, entry t (f.data.drop (offsetRefTable + entrySize t)) i =
        entry t f.ahead (i + 1) := by
      intro i
      rw [← List.drop_drop, ← hahead, entry_drop]
    have hpos' : ∀ i < n, offsetRefTable + entrySize t + (i + 1) * entrySize t < 2 ^ 31 := by
      intro i hi
      have := hpos (i + 1) (by omega)
      rw [Nat.succ_mul] at this
      omega
    have hoff' : ∀ i < n, (entry t (f.data.drop (offsetRefTable + entrySize t)) i).1 < 2 ^ 31 := by
      intro i hi
      rw [hshift]
      exact hoff (i + 1) (by omega)
    have hfirst : (Row.read ⟨f.data, (freadWord t.sizeofSizeT f).1⟩).1 =
        rowAt f.data (entry t f.ahead 0).1 := by
      simp [rowAt, entry]
    rw [ih (offsetRefTable + entrySize t) ⟨f.data, _⟩ _ rfl hpos' hoff', hfirst]
    simp only [File.ahead_mk, hshift, List.range_succ_eq_map, List.map_cons, List.map_map,
      List.append_assoc, List.singleton_append]
    rfl

/-! ## Both calls on a fresh reader -/

/-- What a call makes of a file before it looks at the count: the header, and the file after
`fseek`. -/
def Reader.sought (t : Target) (f : File) : ℕ × File :=
  ((freadWord t.sizeofSizeT f).1,
    (freadWord t.sizeofSizeT f).2.fseek (toLong (freadWord t.sizeofSizeT f).1))

/-- Every offset that the two calls seek to is below `2 ^ 31`: the offset of the table, the position
after each entry, and the stored offset of each row. -/
structure Seekable (t : Target) (content : Bytes) : Prop where
  table : tableOffset t content < 2 ^ 31
  position : ∀ i < tableCount t content, tableStart t content + (i + 1) * entrySize t < 2 ^ 31
  row : ∀ i < tableCount t content, (entry t (tableBytes t content) i).1 < 2 ^ 31

/-- The row of the `i`-th table entry of a file. -/
def tableRow (t : Target) (content : Bytes) (i : ℕ) : Row :=
  rowAt content (entry t (tableBytes t content) i).1

/-- The number of the `i`-th table entry of a file. -/
def tableNumber (t : Target) (content : Bytes) (i : ℕ) : UInt16 :=
  (entry t (tableBytes t content) i).2

section Fresh

variable {t : Target} {content : Bytes}

/-- The file once the header and the count have been read. -/
def afterCount (t : Target) (content : Bytes) : File :=
  (freadWord t.sizeofSizeT ⟨content, tableOffset t content⟩).2

theorem afterCount_data : (afterCount t content).data = content := rfl

theorem ahead_afterCount : (afterCount t content).ahead = tableBytes t content := by
  rw [afterCount, ahead_freadWord, File.ahead_mk, tableBytes_eq]

/-- Both calls first seek to the offset in the header. -/
theorem fseek_header (h : tableOffset t content < 2 ^ 31) :
    (freadWord t.sizeofSizeT (File.openRead content)).2.fseek
      (toLong (freadWord t.sizeofSizeT (File.openRead content)).1) =
        ⟨content, tableOffset t content⟩ :=
  File.fseek_toLong _ h

/-- `GetRowById` seeks to the table and to one row only. -/
theorem Reader.getRowById_fresh (htable : tableOffset t content < 2 ^ 31)
    (hrow : ∀ i < tableCount t content, (entry t (tableBytes t content) i).1 < 2 ^ 31)
    (rowId : UInt16) :
    (Reader.getRowById t (Reader.ofContent content) rowId).1 =
      ((List.range (tableCount t content)).find? fun i => rowId = tableNumber t content i).map
        (tableRow t content) := by
  have hspec := Reader.findRow_spec t rowId (tableCount t content) (afterCount t content)
  rw [ahead_afterCount, afterCount_data] at hspec
  simp only [Reader.getRowById, Reader.ofContent]
  rw [fseek_header htable]
  exact hspec hrow

theorem Reader.read_fresh (h : Seekable t content) (collection : List Row) :
    (Reader.read t (Reader.ofContent content) collection).1 =
      collection ++ (List.range (tableCount t content)).map (tableRow t content) := by
  have hspec := Reader.readRows_spec t (tableCount t content) (tableStart t content)
    (afterCount t content) collection
  rw [ahead_afterCount, afterCount_data] at hspec
  have hstart : t.wrap (tableStart t content) = tableStart t content := by
    apply t.wrap_of_lt
    have htable := h.table
    have hw : ((content.drop (tableOffset t content)).take t.sizeofSizeT).length ≤ 8 := by
      rw [List.length_take]
      have : t.sizeofSizeT ≤ 8 := by cases t <;> decide
      omega
    rw [tableStart]
    omega
  have hread : (Reader.read t (Reader.ofContent content) collection).1 =
      (Reader.readRows t (tableCount t content) (t.wrap (tableStart t content))
        (afterCount t content) collection).1 := by
    simp only [Reader.read, Reader.ofContent]
    rw [fseek_header h.table]
    rfl
  rw [hread, hstart]
  exact hspec rfl h.position h.row

end Fresh

/-- The two read paths agree on every file: `GetRowById` returns the row that `Read` pushes at the
first index whose entry has the number, and null when no entry has it. -/
theorem getRowById_eq_read {t : Target} {content : Bytes} (h : Seekable t content) (id : UInt16) :
    let found := (Reader.getRowById t (Reader.ofContent content) id).1
    let rows := (Reader.read t (Reader.ofContent content) []).1
    (∀ i < tableCount t content, tableNumber t content i = id →
      (∀ j < i, tableNumber t content j ≠ id) → ∃ row, rows[i]? = some row ∧ found = some row) ∧
    (found = none ↔ ∀ i < tableCount t content, tableNumber t content i ≠ id) := by
  intro found rows
  have hfound : found = _ := Reader.getRowById_fresh h.table h.row id
  have hrows : rows = _ := Reader.read_fresh h []
  rw [List.nil_append] at hrows
  constructor
  · intro i hi hid hfirst
    have hfind : (List.range (tableCount t content)).find?
        (fun i => id = tableNumber t content i) = some i := by
      rw [List.find?_range_eq_some]
      simp only [decide_eq_true_eq, List.mem_range, Bool.not_eq_true', decide_eq_false_iff_not]
      exact ⟨hid.symm, hi, fun j hj => (hfirst j hj).symm⟩
    refine ⟨tableRow t content i, ?_, ?_⟩
    · rw [hrows, List.getElem?_map, List.getElem?_range hi, Option.map_some]
    · rw [hfound, hfind, Option.map_some]
  · rw [hfound, Option.map_eq_none_iff, List.find?_eq_none]
    simp [eq_comm]

/-- A file cut off inside the second entry of its table. -/
def truncatedFile : Bytes := [4, 0, 0, 0, 2, 0, 0, 0, 0, 0, 0, 0, 7, 0, 1, 0]

theorem seekable_truncatedFile : Seekable .win32 truncatedFile :=
  ⟨by decide, by decide, by decide⟩

theorem getRowById_eq_read_truncatedFile :
    ∃ row, (Reader.read .win32 (Reader.ofContent truncatedFile) []).1[1]? = some row ∧
      (Reader.getRowById .win32 (Reader.ofContent truncatedFile) 0).1 = some row :=
  (getRowById_eq_read seekable_truncatedFile 0).1 1 (by decide) (by decide) (by decide)

end NitroCloud
