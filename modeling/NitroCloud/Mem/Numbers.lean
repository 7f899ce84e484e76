import NitroCloud.Mem.Layout

/-!
# The numbers of the rows

`Writer::Write` numbers the rows with a `uint16_t` that starts at one, and `GetRowById` takes the
first row with the number it is given.  The numbers of a collection are pairwise distinct up to
65536 rows, of which the last gets the number 0; the next row gets the number of the first one, and
cannot be looked up.
-/

namespace NitroCloud

open Bytes Stdio

theorem toUInt16_inj_of_lt {i j : ℕ} (hi : i < 65536) (hj : j < 65536)
    (h : (i + 1).toUInt16 = (j + 1).toUInt16) : i = j := by
  have hmod := congrArg UInt16.toNat h
  simp only [Nat.toUInt16, UInt16.toNat_ofNat'] at hmod
  omega

section Content

variable {t : Target} {rows : List Row} (hend : rowsEnd t rows < 2 ^ 31)

include hend

/-- Looking up the number of a row finds it, when no row in front of it has that number. -/
theorem getRowById_tableNumber (hclean : ∀ row ∈ rows, row.Clean) {k : ℕ} (hk : k < rows.length)
    (hfirst : ∀ j < k, tableNumber t (Writer.content t rows) k ≠
      tableNumber t (Writer.content t rows) j) :
    (Reader.getRowById t (Reader.ofContent (Writer.content t rows))
        (tableNumber t (Writer.content t rows) k)).1 = some (readBack rows[k]) := by
  have hfind : (List.range rows.length).find? (fun i =>
      tableNumber t (Writer.content t rows) k = tableNumber t (Writer.content t rows) i) =
        some k := by
    rw [List.find?_range_eq_some]
    simp only [decide_eq_true_eq, List.mem_range, Bool.not_eq_true', decide_eq_false_iff_not,
      true_and]
    exact ⟨hk, hfirst⟩
  rw [getRowById_content hend, hfind, Option.map_some, tableRow_content hend hclean hk]

/-- Up to 65536 rows have distinct numbers. -/
theorem tableNumber_inj (hcount : rows.length ≤ 65536) {i j : ℕ} (hi : i < rows.length)
    (hj : j < rows.length) (h : tableNumber t (Writer.content t rows) i =
      tableNumber t (Writer.content t rows) j) : i = j := by
  rw [tableNumber_content hend hi, tableNumber_content hend hj] at h
  exact toUInt16_inj_of_lt (by omega) (by omega) h

end Content

/-- For every collection of clean rows, in a file below `2 ^ 31` bytes: the numbers in the table are
pairwise distinct and the lookup of each returns its row, if and only if there are at most 65536
rows. -/
theorem addressable_iff (t : Target) (rows : List Row) (hclean : ∀ row ∈ rows, row.Clean)
    (hsize : (Writer.content t rows).length < 2 ^ 31) :
    ((∀ i j, i < rows.length → j < rows.length →
          tableNumber t (Writer.content t rows) i = tableNumber t (Writer.content t rows) j →
          i = j) ∧
        ∀ k (hk : k < rows.length),
          (Reader.getRowById t (Reader.ofContent (Writer.content t rows))
            (tableNumber t (Writer.content t rows) k)).1 = some (readBack rows[k])) ↔
      rows.length ≤ 65536 := by
  have hend := rowsEnd_lt hsize
  constructor
  · rintro ⟨hdistinct, -⟩
    by_contra hcount
    have hwraps : tableNumber t (Writer.content t rows) 0 =
        tableNumber t (Writer.content t rows) 65536 := by
      rw [tableNumber_content hend (by omega), tableNumber_content hend (by omega)]
      decide
    exact absurd (hdistinct 0 65536 (by omega) (by omega) hwraps) (by decide)
  · intro hcount
    refine ⟨fun i j hi hj => tableNumber_inj hend hcount hi hj, fun k hk => ?_⟩
    apply getRowById_tableNumber hend hclean hk
    intro j hj heq
    have hjk := tableNumber_inj hend hcount hk (hj.trans hk) heq
    omega

theorem addressable_iff_sampleRows :
    (Reader.getRowById .x64 (Reader.ofContent (Writer.content .x64 sampleRows))
        (tableNumber .x64 (Writer.content .x64 sampleRows) 2)).1 = some ⟨[0, 200, 10, 0]⟩ :=
  ((addressable_iff .x64 sampleRows clean_sampleRows (by rw [Writer.length_content]; decide)).2
    (by decide)).2 2 (by decide)

/-! ## More rows -/

/-- Empty rows, and one that is not empty behind them. -/
def emptyRowsAnd (n : ℕ) : List Row := List.replicate n ⟨[]⟩ ++ [⟨ascii "x"⟩]

theorem length_emptyRowsAnd (n : ℕ) : (emptyRowsAnd n).length = n + 1 := by
  simp [emptyRowsAnd]

theorem clean_emptyRowsAnd (n : ℕ) : ∀ row ∈ emptyRowsAnd n, row.Clean := by
  intro row hrow
  rcases List.mem_append.1 hrow with hrow | hrow
  · rw [List.eq_of_mem_replicate hrow]
    decide
  · rw [List.mem_singleton.1 hrow]
    decide

theorem length_content_emptyRowsAnd (t : Target) (n : ℕ) :
    (Writer.content t (emptyRowsAnd n)).length =
      t.sizeofSizeT + (n + 2) + t.sizeofSizeT + (n + 1) * entrySize t := by
  have hbytes : ((emptyRowsAnd n).flatMap rowBytes).length = n + 2 := by
    simp [emptyRowsAnd, List.length_flatMap, rowBytes, ascii]
  rw [Writer.length_content, hbytes, length_emptyRowsAnd]

theorem getElem?_emptyRowsAnd (n : ℕ) : (emptyRowsAnd n)[n]? = some ⟨ascii "x"⟩ := by
  simp [emptyRowsAnd]

theorem getElem?_emptyRowsAnd_zero {n : ℕ} (hn : 0 < n) : (emptyRowsAnd n)[0]? = some ⟨[]⟩ := by
  rw [emptyRowsAnd, List.getElem?_append_left (by simpa using hn)]
  simp [hn]

/-- One row more than there are numbers. -/
def manyRows : List Row := emptyRowsAnd 65536

/-- The row behind 65536 empty rows has the number of the first one, and its lookup returns that
one. -/
theorem getRowById_manyRows :
    (∀ row ∈ manyRows, row.Clean) ∧ (Writer.content .x64 manyRows).length < 2 ^ 31 ∧
      tableNumber .x64 (Writer.content .x64 manyRows) 65536 =
        tableNumber .x64 (Writer.content .x64 manyRows) 0 ∧
      manyRows[65536]? = some ⟨ascii "x"⟩ ∧
      (Reader.getRowById .x64 (Reader.ofContent (Writer.content .x64 manyRows))
        (tableNumber .x64 (Writer.content .x64 manyRows) 65536)).1 = some (readBack ⟨[]⟩) := by
  have hclean : ∀ row ∈ manyRows, row.Clean := clean_emptyRowsAnd 65536
  have hlength : manyRows.length = 65537 := length_emptyRowsAnd 65536
  have hsize : (Writer.content .x64 manyRows).length < 2 ^ 31 := by
    rw [manyRows, length_content_emptyRowsAnd]
    decide
  have hend := rowsEnd_lt hsize
  have hwraps : tableNumber .x64 (Writer.content .x64 manyRows) 65536 =
      tableNumber .x64 (Writer.content .x64 manyRows) 0 := by
    rw [tableNumber_content hend (by omega), tableNumber_content hend (by omega)]
    decide
  have hzero : 0 < manyRows.length := by omega
  have hfirst : manyRows[0] = ⟨[]⟩ := by
    rw [← Option.some.injEq, ← List.getElem?_eq_getElem]
    exact getElem?_emptyRowsAnd_zero (by decide)
  refine ⟨hclean, hsize, hwraps, getElem?_emptyRowsAnd 65536, ?_⟩
  rw [hwraps, getRowById_tableNumber hend hclean hzero (by simp), hfirst]

end NitroCloud
