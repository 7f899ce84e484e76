import NitroCloud.Command.Command
import NitroCloud.Mem.Layout

/-!
# The row that a command counts

`CountImpl::Run` looks a row up by its `int` index, which the call of `GetRowById` reduces to a
`uint16_t`, and prints the `int`.  It answers for the row of the reduced index, so an index outside
the file is answered for a row of it when the reduced one is inside (`run_content_iff`).  The count
that it prints is that of the row as it was read back, which is two more than that of the row that
was written, for the line feed and for the NUL that `Row::Read` pushes (`getCharsCount_ne`).
-/

namespace NitroCloud

open Bytes Stdio Stream

namespace Count

/-- The answer for a row that was not found. -/
def errorText (c : Count) : Bytes :=
  ascii "Row[" ++ putInt c.m_rowIndex.toInt ++ ascii "] = <error>"

/-- The answer for a row that was found. -/
def countText (t : Target) (c : Count) (row : Row) : Bytes :=
  ascii "Row[" ++ putInt c.m_rowIndex.toInt ++ ascii "] = " ++ putNat (row.getCharsCount t)

/-- The number that the index becomes in the call of `GetRowById`. -/
def rowId (c : Count) : UInt16 := c.m_rowIndex.toUInt32.toUInt16

theorem run_of_some {t : Target} {file : Bytes} {c : Count} {row : Row}
    (h : (Reader.getRowById t (Reader.ofContent file) c.rowId).1 = some row) :
    c.run t file = c.countText t row := by
  rw [rowId] at h
  simp only [run, h, countText]

theorem run_of_none {t : Target} {file : Bytes} {c : Count}
    (h : (Reader.getRowById t (Reader.ofContent file) c.rowId).1 = none) :
    c.run t file = c.errorText := by
  rw [rowId] at h
  simp only [run, h, errorText]

/-- A count starts with a digit, and the error text with a bracket. -/
theorem countText_ne_errorText (t : Target) (c : Count) (row : Row) :
    c.countText t row ≠ c.errorText := by
  intro heq
  have herror : ascii "] = <error>" = ascii "] = " ++ ascii "<error>" := by decide
  rw [countText, errorText, herror, List.append_assoc _ (ascii "] = "), List.append_cancel_left_eq,
    List.append_cancel_left_eq] at heq
  have hmem : (60 : UInt8) ∈ putNat (row.getCharsCount t) := by
    rw [heq]
    decide
  exact absurd (isDigit_of_mem_putNat hmem) (by decide)

theorem toNat_rowId (c : Count) : (c.rowId.toNat : Int) = c.m_rowIndex.toInt % 65536 := by
  have hbits : c.m_rowIndex.toInt % (2 ^ 32 : ℕ) = c.m_rowIndex.toUInt32.toNat % (2 ^ 32 : ℕ) := by
    rw [← Int32.toInt_toBitVec, BitVec.toInt_eq_toNat_bmod, Int32.toNat_toBitVec, Int.bmod_emod]
  rw [rowId, UInt32.toNat_toUInt16]
  omega

/-- The index of a row, counted from one. -/
def InRange (rows : List Row) (r : Int) : Prop := 1 ≤ r ∧ r ≤ rows.length

instance (rows : List Row) (r : Int) : Decidable (InRange rows r) :=
  inferInstanceAs (Decidable (_ ∧ _))

section Content

variable {t : Target} {rows : List Row} (hend : rowsEnd t rows < 2 ^ 31)
  (hcount : rows.length ≤ 65535)

include hend hcount

/-- The answer is for the row of the reduced index. -/
theorem run_content {c : Count} {k : ℕ} (hk : k < rows.length)
    (hindex : c.m_rowIndex.toInt % 65536 = k + 1) :
    c.run t (Writer.content t rows) = c.countText t (storedRow rows[k]) := by
  have hid := c.toNat_rowId
  exact run_of_some (getRowById_stored hend hcount hk (by omega))

/-- The error text is the answer exactly when the reduced index is outside. -/
theorem run_content_eq_errorText_iff (c : Count) :
    c.run t (Writer.content t rows) = c.errorText ↔
      ¬ InRange rows (c.m_rowIndex.toInt % 65536) := by
  constructor
  · rintro herror ⟨hone, hle⟩
    obtain ⟨k, hk⟩ := Int.eq_ofNat_of_zero_le (by omega : 0 ≤ c.m_rowIndex.toInt % 65536 - 1)
    have hrun := run_content hend hcount (c := c) (by omega : k < rows.length) (by omega)
    exact countText_ne_errorText t c _ (hrun.symm.trans herror)
  · intro hindex
    have hid := c.toNat_rowId
    apply run_of_none
    apply getRowById_none hend hcount
    unfold InRange at hindex
    omega

end Content

/-- For every collection of rows that ends below `2 ^ 31` and every index: the error text is printed
for the indices outside the collection and the count of the row for those inside, if and only if the
index is inside or the reduced index is outside as well. -/
theorem run_content_iff (t : Target) (rows : List Row) (hend : rowsEnd t rows < 2 ^ 31)
    (hcount : rows.length ≤ 65535) (c : Count) :
    ((c.run t (Writer.content t rows) = c.errorText ↔
          c.m_rowIndex.toInt < 1 ∨ (rows.length : Int) < c.m_rowIndex.toInt) ∧
        ∀ k (hk : k < rows.length), c.m_rowIndex.toInt = k + 1 →
          c.run t (Writer.content t rows) = c.countText t (storedRow rows[k])) ↔
      (InRange rows c.m_rowIndex.toInt ∨ ¬ InRange rows (c.m_rowIndex.toInt % 65536)) := by
  have hinside : InRange rows c.m_rowIndex.toInt →
      c.m_rowIndex.toInt % 65536 = c.m_rowIndex.toInt := by
    rintro ⟨hone, hle⟩
    omega
  have houtside : c.m_rowIndex.toInt < 1 ∨ (rows.length : Int) < c.m_rowIndex.toInt ↔
      ¬ InRange rows c.m_rowIndex.toInt := by
    unfold InRange
    omega
  rw [run_content_eq_errorText_iff hend hcount, houtside, not_iff_not]
  constructor
  · rintro ⟨hreduced, -⟩
    by_cases hin : InRange rows c.m_rowIndex.toInt
    · exact .inl hin
    · exact .inr fun h => hin (hreduced.1 h)
  · intro hcond
    refine ⟨⟨?_, ?_⟩, ?_⟩
    · intro hreduced
      exact hcond.resolve_right (not_not.2 hreduced)
    · intro hin
      rw [hinside hin]
      exact hin
    · intro k hk hindex
      apply run_content hend hcount hk
      rw [hinside ⟨by omega, by omega⟩, hindex]

/-- The second row of three. -/
theorem run_content_iff_sampleRows :
    (Count.mk 2).run .win32 (Writer.content .win32 sampleRows) = ascii "Row[2] = 2" := by
  have hend : rowsEnd .win32 sampleRows < 2 ^ 31 := by decide
  have hrun := ((run_content_iff .win32 sampleRows hend (by decide) ⟨2⟩).2 (.inl (by decide))).2
    1 (by decide) (by decide)
  rw [hrun]
  decide

/-- The index 65537 is answered for the first row. -/
theorem run_65537_sampleRows :
    (3 : Int) < (Count.mk 65537).m_rowIndex.toInt ∧ sampleRows.length = 3 ∧
      (Count.mk 65537).run .win32 (Writer.content .win32 sampleRows) = ascii "Row[65537] = 7" ∧
      (Count.mk 65537).run .win32 (Writer.content .win32 sampleRows) ≠
        (Count.mk 65537).errorText := by
  decide

end Count

/-! ## The count of a row -/

theorem getCharsCount_readBack_ne (t : Target) (row : Row) :
    (readBack row).getCharsCount t ≠ row.getCharsCount t := by
  have hlength : (readBack row).m_value.length = row.m_value.length + 2 := by
    simp [readBack]
  rw [Row.getCharsCount, Row.getCharsCount, hlength]
  cases t with
  | win32 =>
    simp only [Target.wrap, Target.sizeofSizeT]
    omega
  | x64 =>
    simp only [Target.wrap, Target.sizeofSizeT]
    omega

/-- For every collection of clean rows that ends below `2 ^ 31` and each of its rows, the row that
is read back has another count than the one that was written. -/
theorem getCharsCount_ne (t : Target) (rows : List Row) (hclean : ∀ row ∈ rows, row.Clean)
    (hcount : rows.length ≤ 65535) (hend : rowsEnd t rows < 2 ^ 31) (k : ℕ)
    (hk : k < rows.length) :
    ∃ row, (Reader.getRowById t (Reader.ofContent (Writer.content t rows)) (k + 1).toUInt16).1 =
        some row ∧ row.getCharsCount t ≠ rows[k].getCharsCount t := by
  have hid : (k + 1).toUInt16.toNat = k + 1 := (toUInt16_eq_iff (by omega) _).1 rfl
  have hrow : rows[k].Clean := hclean _ (List.getElem_mem hk)
  refine ⟨readBack rows[k], ?_, getCharsCount_readBack_ne t rows[k]⟩
  rw [getRowById_stored hend hcount hk hid, storedRow_of_clean hrow]

theorem getCharsCount_ne_sampleRows :
    ∃ row, (Reader.getRowById .x64 (Reader.ofContent (Writer.content .x64 sampleRows))
        (0 + 1).toUInt16).1 = some row ∧
      row.getCharsCount .x64 ≠ sampleRows[0].getCharsCount .x64 :=
  getCharsCount_ne .x64 sampleRows clean_sampleRows (by decide) (by decide) 0 (by decide)

/-- A row of five characters is read back with seven. -/
theorem getCharsCount_seven :
    (∀ row ∈ sampleRows, row.Clean) ∧
      (Reader.getRowById .win32 (Reader.ofContent (Writer.content .win32 sampleRows)) 1).1.map
        (Row.getCharsCount .win32) = some 7 ∧
      sampleRows[0]?.map (Row.getCharsCount .win32) = some 5 :=
  ⟨clean_sampleRows, by decide, by decide⟩

end NitroCloud
