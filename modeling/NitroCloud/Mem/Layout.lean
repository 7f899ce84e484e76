import NitroCloud.Mem.Table

/-!
# The file that `Writer::Write` leaves

`Writer.content_eq` is the layout of the file, for rows of any bytes: the header, the rows, the
count and the entries, as the loops compute them.  `Writer.content_layout` gives them from the rows
alone, for all rows that the width of `size_t` admits.

Reading the file back rests on two facts about the layout: the `i`-th entry holds the offset at
which the bytes of the `i`-th row start (`entry_content`), and `Row::Read` at that offset returns
what it would return for the bytes of the row alone (`rowAt_rowBytes`): the row, its line feed and a
NUL, when the row itself has neither a line feed nor the byte `0xFF`.
-/

namespace NitroCloud

open Bytes Stdio

/-! ## What each loop writes -/

/-- The bytes of a row in the file. -/
def rowBytes (row : Row) : Bytes := row.m_value ++ [ROW_END]

/-- The bytes of a table entry. -/
def entryBytes (t : Target) (e : ℕ × UInt16) : Bytes :=
  leBytes t.sizeofSizeT e.1 ++ leBytes sizeofUInt16 e.2.toNat

@[simp] theorem length_rowBytes (row : Row) : (rowBytes row).length = row.m_value.length + 1 := by
  simp [rowBytes]

@[simp] theorem length_entryBytes (t : Target) (e : ℕ × UInt16) :
    (entryBytes t e).length = entrySize t := by
  simp [entryBytes, entrySize]

/-- The entries collected for rows that start at an offset, after the given number. -/
def entriesFrom (t : Target) : UInt16 → ℕ → List Row → List (ℕ × UInt16)
  | _, _, [] => []
  | number, offset, row :: rows =>
    (offset, number + 1) ::
      entriesFrom t (number + 1) (t.wrap (offset + (rowBytes row).length)) rows

@[simp] theorem length_entriesFrom (t : Target) (number : UInt16) (offset : ℕ) (rows : List Row) :
    (entriesFrom t number offset rows).length = rows.length := by
  induction rows generalizing number offset with
  | nil => rfl
  | cons row rows ih => simp [entriesFrom, ih]

/-- The value of `offsetSeek` after rows that start at an offset. -/
def offsetAfter (t : Target) (offset : ℕ) (rows : List Row) : ℕ :=
  rows.foldl (fun o row => t.wrap (o + (rowBytes row).length)) offset

theorem Row.write_append (row : Row) (data : Bytes) :
    row.write ⟨data, data.length⟩ =
      ((rowBytes row).length, ⟨data ++ rowBytes row, (data ++ rowBytes row).length⟩) := by
  simp only [Row.write, File.fwrite_append]
  simp [rowBytes]

theorem Writer.writeRows_append (t : Target) (rows : List Row) (data : Bytes) (number : UInt16)
    (offset : ℕ) (collected : List (ℕ × UInt16)) :
    Writer.writeRows t rows ⟨data, data.length⟩ number offset collected =
      (⟨data ++ rows.flatMap rowBytes, (data ++ rows.flatMap rowBytes).length⟩,
        offsetAfter t offset rows, collected ++ entriesFrom t number offset rows) := by
  induction rows generalizing data number offset collected with
  | nil => simp [Writer.writeRows, offsetAfter, entriesFrom]
  | cons row rows ih =>
    simp only [Writer.writeRows, Row.write_append, ih, List.flatMap_cons, List.append_assoc,
      List.singleton_append, offsetAfter, List.foldl_cons, entriesFrom]

theorem Writer.writeTable_append (t : Target) (es : List (ℕ × UInt16)) (data : Bytes) :
    Writer.writeTable t es ⟨data, data.length⟩ =
      ⟨data ++ es.flatMap (entryBytes t), (data ++ es.flatMap (entryBytes t)).length⟩ := by
  induction es generalizing data with
  | nil => simp [Writer.writeTable]
  | cons e es ih =>
    simp only [Writer.writeTable, File.fwrite_append, ih, List.flatMap_cons, entryBytes,
      List.append_assoc]

/-- The file is the header, the rows, the count and the entries, and nothing else. -/
theorem Writer.content_eq (t : Target) (rows : List Row) :
    Writer.content t rows =
      leBytes t.sizeofSizeT (offsetAfter t t.sizeofSizeT rows) ++
        (rows.flatMap rowBytes ++ (leBytes t.sizeofSizeT rows.length ++
          (entriesFrom t 0 t.sizeofSizeT rows).flatMap (entryBytes t))) := by
  let reserved := leBytes t.sizeofSizeT 0
  have hreserve : File.create.fwrite reserved = (t.sizeofSizeT, ⟨reserved, reserved.length⟩) := by
    simpa [reserved, File.create] using File.fwrite_append [] reserved
  have hseek (f : File) : f.fseek 0 = ⟨f.data, 0⟩ := File.fseek_toLong f (n := 0) (by norm_num)
  simp only [Writer.content, Writer.write, Writer.fresh, hreserve, reserved,
    Writer.writeRows_append, File.fwrite_append, Writer.writeTable_append, hseek, List.nil_append,
    length_entriesFrom, Option.map_some, Option.getD_some, List.append_assoc]
  rw [File.fwrite_patch _ _ _ (by simp)]

theorem Writer.length_content (t : Target) (rows : List Row) :
    (Writer.content t rows).length =
      t.sizeofSizeT + (rows.flatMap rowBytes).length + t.sizeofSizeT +
        rows.length * entrySize t := by
  have htable : ((entriesFrom t 0 t.sizeofSizeT rows).flatMap (entryBytes t)).length =
      rows.length * entrySize t := by
    simp [List.length_flatMap]
  rw [Writer.content_eq]
  simp only [List.length_append, length_leBytes, htable, Nat.add_assoc]

/-! ## Offsets and numbers -/

/-- The bytes of the rows in front of the `i`-th one. -/
def bytesBefore (rows : List Row) (i : ℕ) : ℕ := ((rows.take i).flatMap rowBytes).length

theorem bytesBefore_cons (row : Row) (rows : List Row) (i : ℕ) :
    bytesBefore (row :: rows) (i + 1) = (rowBytes row).length + bytesBefore rows i := by
  simp [bytesBefore]

theorem bytesBefore_le (rows : List Row) (i : ℕ) :
    bytesBefore rows i ≤ (rows.flatMap rowBytes).length := by
  conv_rhs => rw [← List.take_append_drop i rows]
  rw [List.flatMap_append, List.length_append, bytesBefore]
  omega

theorem offsetAfter_eq (t : Target) (offset : ℕ) (rows : List Row)
    (h : offset + (rows.flatMap rowBytes).length < 256 ^ t.sizeofSizeT) :
    offsetAfter t offset rows = offset + (rows.flatMap rowBytes).length := by
  induction rows generalizing offset with
  | nil => simp [offsetAfter]
  | cons row rows ih =>
    rw [List.flatMap_cons, List.length_append] at h
    rw [offsetAfter, List.foldl_cons, t.wrap_eq (by omega), ← offsetAfter, ih _ (by omega),
      List.flatMap_cons, List.length_append, Nat.add_assoc]

/-- The `i`-th entry holds the offset of the `i`-th row and its number, counted from one. -/
theorem getElem?_entriesFrom (t : Target) (number : UInt16) (offset : ℕ) (rows : List Row)
    (h : offset + (rows.flatMap rowBytes).length < 256 ^ t.sizeofSizeT) {i : ℕ}
    (hi : i < rows.length) :
    (entriesFrom t number offset rows)[i]? =
      some (offset + bytesBefore rows i, number + (i + 1).toUInt16) := by
  induction rows generalizing number offset i with
  | nil => simp at hi
  | cons row rows ih =>
    rw [List.flatMap_cons, List.length_append] at h
    cases i with
    | zero => simp [entriesFrom, bytesBefore]
    | succ i =>
      rw [entriesFrom, List.getElem?_cons_succ, t.wrap_eq (by omega), ih _ _ (by omega)
        (by simpa using hi), bytesBefore_cons, Nat.add_assoc]
      simp [Nat.toUInt16, UInt16.add_assoc, UInt16.add_comm]

/-- The entries, one for each row. -/
theorem entriesFrom_eq (t : Target) (number : UInt16) (offset : ℕ) (rows : List Row)
    (h : offset + (rows.flatMap rowBytes).length < 256 ^ t.sizeofSizeT) :
    entriesFrom t number offset rows = (List.range rows.length).map fun k =>
      (offset + bytesBefore rows k, number + (k + 1).toUInt16) := by
  apply List.ext_getElem?
  intro k
  by_cases hk : k < rows.length
  · rw [getElem?_entriesFrom t number offset rows h hk, List.getElem?_map,
      List.getElem?_range hk, Option.map_some]
  · rw [List.getElem?_eq_none (by simpa using hk), List.getElem?_eq_none (by simpa using hk)]

/-- At the offset of a row lie its bytes. -/
theorem Writer.drop_content (t : Target) {rows : List Row} {k : ℕ} (hk : k < rows.length) :
    ∃ rest, (Writer.content t rows).drop (t.sizeofSizeT + bytesBefore rows k) =
      rowBytes rows[k] ++ rest := by
  have hsplit : rows.flatMap rowBytes = (rows.take k).flatMap rowBytes ++
      (rowBytes rows[k] ++ (rows.drop (k + 1)).flatMap rowBytes) := by
    conv_lhs => rw [← List.take_append_drop k rows, List.drop_eq_getElem_cons hk]
    rw [List.flatMap_append, List.flatMap_cons]
  rw [Writer.content_eq, ← List.drop_drop, List.drop_left' (length_leBytes _ _), hsplit,
    List.append_assoc, List.append_assoc, bytesBefore, List.drop_left]
  exact ⟨_, rfl⟩

theorem length_flatMap_rowBytes (rows : List Row) :
    (rows.flatMap rowBytes).length = (rows.map fun row => row.m_value.length + 1).sum := by
  simp only [List.length_flatMap, length_rowBytes]

/-- For all rows, of any bytes, that fit the width of `size_t`: the file is the header, with the
offset behind the rows, the rows with a line feed each, their number, and an entry for each row with
its offset and its number, counted from one and reduced to 16 bits; and the offset of a row is where
its bytes lie. -/
theorem Writer.content_layout (t : Target) (rows : List Row)
    (hsize : (Writer.content t rows).length < 256 ^ t.sizeofSizeT) :
    Writer.content t rows =
      leBytes t.sizeofSizeT (t.sizeofSizeT + (rows.map fun row => row.m_value.length + 1).sum) ++
        (rows.flatMap (fun row => row.m_value ++ [ROW_END]) ++
          (leBytes t.sizeofSizeT rows.length ++
            (List.range rows.length).flatMap fun k =>
              leBytes t.sizeofSizeT (t.sizeofSizeT + bytesBefore rows k) ++
                leBytes sizeofUInt16 ((k + 1) % 65536))) ∧
      ∀ k (hk : k < rows.length), ∃ rest,
        (Writer.content t rows).drop (t.sizeofSizeT + bytesBefore rows k) =
          rows[k].m_value ++ [ROW_END] ++ rest := by
  have hfits : t.sizeofSizeT + (rows.flatMap rowBytes).length < 256 ^ t.sizeofSizeT := by
    rw [Writer.length_content] at hsize
    omega
  refine ⟨?_, fun k hk => Writer.drop_content t hk⟩
  have htable : (entriesFrom t 0 t.sizeofSizeT rows).flatMap (entryBytes t) =
      (List.range rows.length).flatMap fun k =>
        leBytes t.sizeofSizeT (t.sizeofSizeT + bytesBefore rows k) ++
          leBytes sizeofUInt16 ((k + 1) % 65536) := by
    rw [entriesFrom_eq t 0 t.sizeofSizeT rows hfits, List.flatMap_map]
    apply List.flatMap_congr
    intro k _
    rw [entryBytes, UInt16.zero_add, Nat.toUInt16, UInt16.toNat_ofNat']
  rw [Writer.content_eq, htable, offsetAfter_eq t _ _ hfits, length_flatMap_rowBytes]
  rfl

/-- A text, and a row that is a line feed itself. -/
theorem Writer.content_layout_two :
    Writer.content .win32 [⟨ascii "ab"⟩, ⟨[10]⟩] =
      [9, 0, 0, 0, 97, 98, 10, 10, 10, 2, 0, 0, 0, 4, 0, 0, 0, 1, 0, 7, 0, 0, 0, 2, 0] :=
  (Writer.content_layout .win32 [⟨ascii "ab"⟩, ⟨[10]⟩]
    (by rw [Writer.length_content]; decide)).1.trans (by decide)

/-- Reading entry `i` of a written table gives it back. -/
theorem entry_flatMap (t : Target) (es : List (ℕ × UInt16)) (i : ℕ) {e : ℕ × UInt16}
    (he : es[i]? = some e) (hlt : e.1 < 2 ^ 32) : entry t (es.flatMap (entryBytes t)) i = e := by
  induction i generalizing es with
  | zero =>
    obtain ⟨es', rfl⟩ : ∃ es', es = e :: es' := by
      cases es with
      | nil => simp at he
      | cons e' es' =>
        rw [List.getElem?_cons_zero, Option.some.injEq] at he
        exact ⟨es', by rw [he]⟩
    have hoff : leValue (leBytes t.sizeofSizeT e.1) = e.1 :=
      leValue_leBytes_of_lt (lt_of_lt_of_le hlt t.two_pow_32_le)
    have hnum : leValue (leBytes sizeofUInt16 e.2.toNat) = e.2.toNat :=
      leValue_leBytes_of_lt e.2.toNat_lt
    have htake (w n : ℕ) (rest : Bytes) : (leBytes w n ++ rest).take w = leBytes w n :=
      List.take_left' (length_leBytes w n)
    have hdrop (w n : ℕ) (rest : Bytes) : (leBytes w n ++ rest).drop w = rest :=
      List.drop_left' (length_leBytes w n)
    simp only [entry, Nat.zero_mul, List.drop_zero, List.flatMap_cons, entryBytes,
      List.append_assoc, htake, hdrop, hoff, hnum]
    simp [Nat.toUInt16]
  | succ i ih =>
    cases es with
    | nil => simp at he
    | cons e' es =>
      rw [← entry_drop, List.flatMap_cons, List.drop_left' (length_entryBytes t e')]
      exact ih es (by simpa using he)

/-! ## Rows -/

theorem toUInt8_narrow (b : UInt8) : (Int8.ofInt (b.toNat : Int)).toUInt8 = b := by
  apply UInt8.toBitVec_inj.1
  change BitVec.ofInt 8 (b.toNat : Int) = b.toBitVec
  rw [BitVec.ofInt_natCast]
  exact (BitVec.ofNat_toNat 8 b.toBitVec).trans (by simp)

theorem narrow_ne_EOF {b : UInt8} (h : b ≠ 0xFF) : (Int8.ofInt (b.toNat : Int)).toInt ≠ EOF := by
  intro he
  have hc : Int8.ofInt (b.toNat : Int) = -1 := Int8.toInt_inj.1 he
  apply h
  rw [← toUInt8_narrow b, hc]
  rfl

/-- A row that can be told from its surroundings: no line feed and no byte that narrows to `EOF`. -/
def Row.Clean (row : Row) : Prop := ∀ b ∈ row.m_value, b ≠ ROW_END ∧ b ≠ 0xFF

instance (row : Row) : Decidable row.Clean :=
  List.decidableBAll (fun b => b ≠ ROW_END ∧ b ≠ 0xFF) row.m_value

/-- The bytes that `Row::Read` takes: up to the first line feed, which it keeps, but only those in
front of a byte that narrows to `EOF`. -/
def line : Bytes → Bytes
  | [] => []
  | b :: bs => if b = 0xFF then [] else if b = ROW_END then [b] else b :: line bs

/-- The number of bytes that `Row::Read` moves on by: those of the line, and the byte that narrows
to `EOF` in case it stops there. -/
def taken : Bytes → ℕ
  | [] => 0
  | b :: bs => if b = 0xFF ∨ b = ROW_END then 1 else taken bs + 1

theorem Row.readLoop_nil {f : File} (h : f.ahead = []) (fuel : ℕ) (m_value : Bytes) :
    Row.readLoop (fuel + 1) f m_value = (m_value, f) := by
  have heof : f.fgetc = (EOF, f) := by
    have hnone : f.data[f.pos]? = none := by
      rw [List.getElem?_eq_none_iff]
      exact List.drop_eq_nil_iff.1 h
    simp only [File.fgetc, hnone]
  have hnarrow : (Int8.ofInt EOF).toInt = EOF := by decide
  simp only [Row.readLoop, heof, hnarrow, ne_eq, not_true_eq_false, if_false, false_and]

theorem Row.readLoop_stop {f : File} {rest : Bytes} (h : f.ahead = 0xFF :: rest) (fuel : ℕ)
    (m_value : Bytes) : Row.readLoop (fuel + 1) f m_value = (m_value, ⟨f.data, f.pos + 1⟩) := by
  have hnarrow : (Int8.ofInt ((0xFF : UInt8).toNat : Int)).toInt = EOF := by decide
  simp only [Row.readLoop, File.fgetc_ahead h, hnarrow, ne_eq, not_true_eq_false, if_false,
    false_and]

theorem Row.readLoop_byte {f : File} {b : UInt8} {rest : Bytes} (h : f.ahead = b :: rest)
    (hb : b ≠ 0xFF) (fuel : ℕ) (m_value : Bytes) :
    Row.readLoop (fuel + 1) f m_value =
      if b ≠ ROW_END then Row.readLoop fuel ⟨f.data, f.pos + 1⟩ (m_value ++ [b])
      else (m_value ++ [b], ⟨f.data, f.pos + 1⟩) := by
  simp only [Row.readLoop, File.fgetc_ahead h, toUInt8_narrow, narrow_ne_EOF hb, ne_eq,
    not_false_eq_true, if_true, true_and]

/-- The loop of `Row::Read` takes the line ahead. -/
theorem Row.readLoop_line (bs : Bytes) (fuel : ℕ) {f : File} (m_value : Bytes) (h : f.ahead = bs)
    (hfuel : bs.length < fuel) :
    Row.readLoop fuel f m_value = (m_value ++ line bs, ⟨f.data, f.pos + taken bs⟩) := by
  induction bs generalizing fuel f m_value with
  | nil =>
    obtain ⟨fuel, rfl⟩ := Nat.exists_eq_succ_of_ne_zero (by omega : fuel ≠ 0)
    rw [Row.readLoop_nil h, line, taken, List.append_nil, Nat.add_zero]
  | cons b bs ih =>
    obtain ⟨fuel, rfl⟩ := Nat.exists_eq_succ_of_ne_zero (by omega : fuel ≠ 0)
    rw [line, taken]
    by_cases heof : b = 0xFF
    · subst heof
      rw [Row.readLoop_stop h, if_pos rfl, if_pos (.inl rfl), List.append_nil]
    · rw [Row.readLoop_byte h heof, if_neg heof]
      by_cases hend : b = ROW_END
      · rw [if_neg (not_not.2 hend), if_pos hend, if_pos (.inr hend)]
      · rw [if_pos hend, if_neg hend, if_neg (not_or.2 ⟨heof, hend⟩),
          ih fuel _ (File.ahead_succ h) (by simpa using hfuel), List.append_assoc,
          List.singleton_append, Nat.add_right_comm, Nat.add_assoc]

/-- What `Row::Read` stores, and where it leaves the position. -/
theorem Row.read_eq (f : File) :
    Row.read f = (⟨line f.ahead ++ [0]⟩, ⟨f.data, f.pos + taken f.ahead⟩) := by
  have hloop := Row.readLoop_line f.ahead (f.data.length - f.pos + 1) [] rfl
    (by rw [File.ahead, List.length_drop]; omega)
  rw [Row.read, hloop, List.nil_append]

theorem rowAt_eq (data : Bytes) (offset : ℕ) :
    rowAt data offset = ⟨line (data.drop offset) ++ [0]⟩ := by
  rw [rowAt, Row.read_eq]
  rfl

/-- A line feed ends the line, whatever follows it. -/
theorem line_rowBytes_append (row : Row) (rest : Bytes) :
    line (rowBytes row ++ rest) = line (rowBytes row) := by
  obtain ⟨bs⟩ := row
  simp only [rowBytes]
  induction bs with
  | nil => rfl
  | cons b bs ih => simp only [List.cons_append, line, ih]

theorem line_of_clean {row : Row} (hrow : row.Clean) : line (rowBytes row) = rowBytes row := by
  obtain ⟨bs⟩ := row
  simp only [rowBytes]
  induction bs with
  | nil => rfl
  | cons b bs ih =>
    obtain ⟨hend, heof⟩ := hrow b (by simp)
    have hbs : (Row.mk bs).Clean := fun c hc => hrow c (List.mem_cons_of_mem b hc)
    rw [List.cons_append, line, if_neg heof, if_neg hend, ih hbs]

/-- What `Row::Read` makes of a row that was written. -/
def storedRow (row : Row) : Row := rowAt (rowBytes row) 0

theorem storedRow_eq (row : Row) : storedRow row = ⟨line (rowBytes row) ++ [0]⟩ := by
  rw [storedRow, rowAt_eq, List.drop_zero]

/-- What `Row::Read` makes of a clean row that was written. -/
def readBack (row : Row) : Row := ⟨row.m_value ++ [ROW_END, 0]⟩

theorem storedRow_of_clean {row : Row} (hrow : row.Clean) : storedRow row = readBack row := by
  rw [storedRow_eq, line_of_clean hrow, readBack, rowBytes, List.append_assoc]
  rfl

theorem rowAt_rowBytes {data rest : Bytes} {offset : ℕ} {row : Row}
    (h : data.drop offset = rowBytes row ++ rest) : rowAt data offset = storedRow row := by
  rw [rowAt_eq, h, line_rowBytes_append, storedRow_eq]

/-! ## The written file as the readers see it -/

/-- The offset at which the rows end and the table starts. -/
def rowsEnd (t : Target) (rows : List Row) : ℕ :=
  t.sizeofSizeT + (rows.flatMap rowBytes).length

section Content

variable {t : Target} {rows : List Row}

theorem rowsEnd_lt (hsize : (Writer.content t rows).length < 2 ^ 31) : rowsEnd t rows < 2 ^ 31 := by
  rw [Writer.length_content] at hsize
  unfold rowsEnd
  omega

/-- Each row has a byte of its own, its line feed. -/
theorem length_le_rowsEnd (t : Target) (rows : List Row) : rows.length ≤ rowsEnd t rows := by
  have hle : rows.length ≤ (rows.flatMap rowBytes).length := by
    induction rows with
    | nil => simp
    | cons row rows ih =>
      rw [List.flatMap_cons, List.length_append, length_rowBytes, List.length_cons]
      omega
  unfold rowsEnd
  omega

variable (h : rowsEnd t rows < 2 ^ 31)

include h

theorem tableOffset_content : tableOffset t (Writer.content t rows) = rowsEnd t rows := by
  unfold rowsEnd at h
  rw [tableOffset, Writer.content_eq, List.take_left' (length_leBytes _ _),
    offsetAfter_eq t _ _ (lt_of_lt_of_le (by omega) t.two_pow_32_le)]
  exact leValue_leBytes_of_lt (lt_of_lt_of_le (by omega) t.two_pow_32_le)

/-- At the offset in the header lie the count and the entries. -/
theorem drop_tableOffset_content :
    (Writer.content t rows).drop (tableOffset t (Writer.content t rows)) =
      leBytes t.sizeofSizeT rows.length ++
        (entriesFrom t 0 t.sizeofSizeT rows).flatMap (entryBytes t) := by
  rw [tableOffset_content h, rowsEnd, Writer.content_eq, ← List.append_assoc]
  exact List.drop_left' (by simp)

theorem tableCount_content : tableCount t (Writer.content t rows) = rows.length := by
  have hn := length_le_rowsEnd t rows
  rw [tableCount, drop_tableOffset_content h, List.take_left' (length_leBytes _ _)]
  exact leValue_leBytes_of_lt (lt_of_lt_of_le (by omega) t.two_pow_32_le)

theorem tableBytes_content : tableBytes t (Writer.content t rows) =
    (entriesFrom t 0 t.sizeofSizeT rows).flatMap (entryBytes t) := by
  rw [tableBytes_eq, drop_tableOffset_content h, List.drop_left' (length_leBytes _ _)]

theorem entry_content {i : ℕ} (hi : i < rows.length) :
    entry t (tableBytes t (Writer.content t rows)) i =
      (t.sizeofSizeT + bytesBefore rows i, (i + 1).toUInt16) := by
  have hle := bytesBefore_le rows i
  unfold rowsEnd at h
  have he := getElem?_entriesFrom t 0 t.sizeofSizeT rows
    (lt_of_lt_of_le (by omega) t.two_pow_32_le) hi
  rw [UInt16.zero_add] at he
  rw [tableBytes_content h]
  exact entry_flatMap t _ i he (by simp only; omega)

theorem tableNumber_content {i : ℕ} (hi : i < rows.length) :
    tableNumber t (Writer.content t rows) i = (i + 1).toUInt16 := by
  rw [tableNumber, entry_content h hi]

/-- The row of an entry is the one that was written. -/
theorem tableRow_eq {i : ℕ} (hi : i < rows.length) :
    tableRow t (Writer.content t rows) i = storedRow rows[i] := by
  obtain ⟨rest, hdrop⟩ := Writer.drop_content t hi
  rw [tableRow, entry_content h hi]
  exact rowAt_rowBytes hdrop

theorem tableRow_content (hclean : ∀ row ∈ rows, row.Clean) {i : ℕ} (hi : i < rows.length) :
    tableRow t (Writer.content t rows) i = readBack rows[i] := by
  rw [tableRow_eq h hi, storedRow_of_clean (hclean _ (List.getElem_mem hi))]

theorem entry_content_lt (i : ℕ) (hi : i < tableCount t (Writer.content t rows)) :
    (entry t (tableBytes t (Writer.content t rows)) i).1 < 2 ^ 31 := by
  rw [tableCount_content h] at hi
  rw [entry_content h hi]
  have hle := bytesBefore_le rows i
  unfold rowsEnd at h
  simp only
  omega

/-- The lookup of a number in a written file goes by the numbers in the table. -/
theorem getRowById_content (id : UInt16) :
    (Reader.getRowById t (Reader.ofContent (Writer.content t rows)) id).1 =
      ((List.range rows.length).find? fun i =>
        id = tableNumber t (Writer.content t rows) i).map
          (tableRow t (Writer.content t rows)) := by
  have htable : tableOffset t (Writer.content t rows) < 2 ^ 31 := by
    rw [tableOffset_content h]
    exact h
  rw [Reader.getRowById_fresh htable (entry_content_lt h), tableCount_content h]

omit h in
theorem toUInt16_eq_iff {n : ℕ} (hn : n < 2 ^ 16) (id : UInt16) :
    id = n.toUInt16 ↔ id.toNat = n := by
  rw [← UInt16.toNat_inj, Nat.toUInt16, UInt16.toNat_ofNat', Nat.mod_eq_of_lt hn]

section Lookup

variable (hcount : rows.length ≤ 65535)

include hcount

theorem eq_tableNumber_iff (id : UInt16) {i : ℕ} (hi : i < rows.length) :
    id = tableNumber t (Writer.content t rows) i ↔ id.toNat = i + 1 := by
  rw [tableNumber_content h hi, toUInt16_eq_iff (by omega)]

/-- The lookup of the number of a row, counted from one, finds it. -/
theorem getRowById_stored {id : UInt16} {k : ℕ} (hk : k < rows.length) (hid : id.toNat = k + 1) :
    (Reader.getRowById t (Reader.ofContent (Writer.content t rows)) id).1 =
      some (storedRow rows[k]) := by
  have hfind : (List.range rows.length).find?
      (fun i => id = tableNumber t (Writer.content t rows) i) = some k := by
    rw [List.find?_range_eq_some]
    simp only [decide_eq_true_eq, List.mem_range, Bool.not_eq_true', decide_eq_false_iff_not]
    refine ⟨(eq_tableNumber_iff h hcount id hk).2 hid, hk, fun j hj => ?_⟩
    rw [eq_tableNumber_iff h hcount id (by omega)]
    omega
  rw [getRowById_content h, hfind, Option.map_some, tableRow_eq h hk]

/-- No other number is found. -/
theorem getRowById_none {id : UInt16} (hid : id.toNat = 0 ∨ rows.length < id.toNat) :
    (Reader.getRowById t (Reader.ofContent (Writer.content t rows)) id).1 = none := by
  rw [getRowById_content h, Option.map_eq_none_iff, List.find?_eq_none]
  intro i hi
  rw [List.mem_range] at hi
  rw [decide_eq_true_eq, eq_tableNumber_iff h hcount id hi]
  omega

end Lookup

omit h in
theorem seekable_content (hsize : (Writer.content t rows).length < 2 ^ 31) :
    Seekable t (Writer.content t rows) := by
  have h := rowsEnd_lt hsize
  refine ⟨?_, ?_, entry_content_lt h⟩
  · rw [tableOffset_content h]
    exact h
  · rw [tableCount_content h]
    intro i hi
    have hend : (i + 1) * entrySize t ≤ rows.length * entrySize t := Nat.mul_le_mul_right _ hi
    rw [tableStart, drop_tableOffset_content h, List.take_left' (length_leBytes _ _),
      length_leBytes, tableOffset_content h, rowsEnd]
    rw [Writer.length_content] at hsize
    omega

end Content

/-! ## Reading a written file -/

/-- Reading a written file gives back the rows, in order, each with its line feed and a NUL. -/
theorem read_write (t : Target) (rows : List Row) (hclean : ∀ row ∈ rows, row.Clean)
    (hsize : (Writer.content t rows).length < 2 ^ 31) :
    (Reader.read t (Reader.ofContent (Writer.content t rows)) []).1 = rows.map readBack := by
  have hend := rowsEnd_lt hsize
  rw [Reader.read_fresh (seekable_content hsize), tableCount_content hend, List.nil_append]
  apply List.ext_getElem (by simp)
  intro i hi hi'
  rw [List.length_map, List.length_range] at hi
  rw [List.getElem_map, List.getElem_range, List.getElem_map, tableRow_content hend hclean hi]

/-- Three rows: a text, an empty one, and one with a NUL and a byte above `0x7F`. -/
def sampleRows : List Row := [⟨ascii "Lorem"⟩, ⟨[]⟩, ⟨[0, 200]⟩]

theorem clean_sampleRows : ∀ row ∈ sampleRows, row.Clean := by
  refine List.forall_mem_cons.2 ⟨by decide, ?_⟩
  refine List.forall_mem_cons.2 ⟨by decide, ?_⟩
  exact List.forall_mem_singleton.2 (by decide)

theorem read_write_sampleRows :
    (Reader.read .x64 (Reader.ofContent (Writer.content .x64 sampleRows)) []).1 =
      [⟨ascii "Lorem" ++ [10, 0]⟩, ⟨[10, 0]⟩, ⟨[0, 200, 10, 0]⟩] :=
  read_write .x64 sampleRows clean_sampleRows (by rw [Writer.length_content]; decide)

/-- Looking up a number in a written file finds the row with that number, counted from one. -/
theorem getRowById_write (t : Target) (rows : List Row) (hclean : ∀ row ∈ rows, row.Clean)
    (hcount : rows.length ≤ 65535) (hsize : (Writer.content t rows).length < 2 ^ 31) (id : UInt16) :
    (∀ k (hk : k < rows.length), id.toNat = k + 1 →
      (Reader.getRowById t (Reader.ofContent (Writer.content t rows)) id).1 =
        some (readBack rows[k])) ∧
    (id = 0 ∨ rows.length < id.toNat →
      (Reader.getRowById t (Reader.ofContent (Writer.content t rows)) id).1 = none) := by
  have hend := rowsEnd_lt hsize
  constructor
  · intro k hk hid
    rw [getRowById_stored hend hcount hk hid,
      storedRow_of_clean (hclean _ (List.getElem_mem hk))]
  · intro hid
    apply getRowById_none hend hcount
    rcases hid with rfl | hid
    · exact .inl rfl
    · exact .inr hid

theorem getRowById_write_sampleRows :
    (Reader.getRowById .win32 (Reader.ofContent (Writer.content .win32 sampleRows)) 3).1 =
        some ⟨[0, 200, 10, 0]⟩ ∧
      (Reader.getRowById .win32 (Reader.ofContent (Writer.content .win32 sampleRows)) 4).1 = none :=
  have hsize : (Writer.content .win32 sampleRows).length < 2 ^ 31 := by
    rw [Writer.length_content]
    decide
  ⟨(getRowById_write .win32 sampleRows clean_sampleRows (by decide) hsize 3).1 2 (by decide)
      (by decide),
    (getRowById_write .win32 sampleRows clean_sampleRows (by decide) hsize 4).2 (.inr (by decide))⟩

end NitroCloud
