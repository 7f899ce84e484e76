import NitroCloud.Mem.Table

/-!
# Damaged files

`GetRowById` checks neither what `fread` returns nor what `fseek` does.  Bytes that the file lacks
count as zeros, so an entry behind the end of the file has the number 0, and one that the end cuts
off has the bytes of its number that are there; and an offset that no `long` holds sends the lookup
to another place, to the offset without its high bits or, when these make it negative, to the bytes
behind the header.  It finds only numbers that the table really has when the entries that are cut
off, or that lie at such a place, have no others (`no_phantom_iff`).
-/

namespace NitroCloud

open Bytes Stdio

section Declared

variable (t : Target) (content : Bytes)

/-- The position of the `i`-th entry of the table that the header and the count declare. -/
def entryPosition (i : ℕ) : ℕ := tableOffset t content + t.sizeofSizeT + i * entrySize t

/-- The number at the place of the `i`-th declared entry. -/
def entryNumber (i : ℕ) : UInt16 :=
  (leValue ((content.drop (entryPosition t content i + t.sizeofSizeT)).take sizeofUInt16)).toUInt16

/-- A declared entry that lies entirely inside the file carries the number. -/
def Declares (id : UInt16) : Prop :=
  ∃ i < tableCount t content,
    entryPosition t content i + entrySize t ≤ content.length ∧ entryNumber t content i = id

instance (id : UInt16) : Decidable (Declares t content id) :=
  inferInstanceAs (Decidable (∃ i < _, _ ∧ _))

end Declared

section Lookup

variable (t : Target) (content : Bytes)

/-- The position where the lookup takes the count from: the offset in the header, as far as a `long`
holds it, or the one behind the header when `fseek` fails on a negative `long`. -/
def lookupPosition : ℕ :=
  if tableOffset t content % 2 ^ 32 < 2 ^ 31 then tableOffset t content % 2 ^ 32
  else t.sizeofSizeT

/-- The count that stands at that position. -/
def lookupCount : ℕ := leValue ((content.drop (lookupPosition t content)).take t.sizeofSizeT)

/-- The position of the `i`-th entry behind that count. -/
def lookupEntry (i : ℕ) : ℕ := lookupPosition t content + t.sizeofSizeT + i * entrySize t

/-- The number at the place of the `i`-th entry behind that count. -/
def lookupNumber (i : ℕ) : UInt16 :=
  (leValue ((content.drop (lookupEntry t content i + t.sizeofSizeT)).take sizeofUInt16)).toUInt16

end Lookup

/-- The loop returns a row exactly when it meets an entry with the number, whatever its offset. -/
theorem Reader.isSome_findRow_iff (t : Target) (rowId : UInt16) (n : ℕ) (f : File) :
    (Reader.findRow t rowId n f).1.isSome = true ↔ ∃ i < n, (entry t f.ahead i).2 = rowId := by
  induction n generalizing f with
  | zero => simp [Reader.findRow]
  | succ n ih =>
    let f' := (freadWord sizeofUInt16 (freadWord t.sizeofSizeT f).2).2
    have hahead : f'.ahead = f.ahead.drop (entrySize t) := by
      simp only [f', ahead_freadWord, List.drop_drop, entrySize]
    have hfirst : (entry t f.ahead 0).2 =
        (freadWord sizeofUInt16 (freadWord t.sizeofSizeT f).2).1.toUInt16 := by
      simp [entry]
    rw [Reader.findRow]
    simp only
    by_cases hid : rowId = (freadWord sizeofUInt16 (freadWord t.sizeofSizeT f).2).1.toUInt16
    · rw [if_pos hid]
      exact iff_of_true rfl ⟨0, n.succ_pos, by rw [hfirst, hid]⟩
    · rw [if_neg hid, ih f', hahead]
      simp only [entry_drop]
      constructor
      · rintro ⟨i, hi, hnumber⟩
        exact ⟨i + 1, by omega, hnumber⟩
      · rintro ⟨i, hi, hnumber⟩
        cases i with
        | zero => exact absurd (hnumber.symm.trans hfirst) hid
        | succ i => exact ⟨i, by omega, hnumber⟩

/-- What lies ahead of `GetRowById` when it reads the count. -/
theorem Reader.ahead_sought (t : Target) (content : Bytes) :
    (Reader.sought t (File.openRead content)).2.ahead =
      content.drop (lookupPosition t content) := by
  have hheader : (freadWord t.sizeofSizeT (File.openRead content)).1 = tableOffset t content := rfl
  simp only [Reader.sought, hheader, File.fseek, toLong, lookupPosition]
  by_cases hfits : tableOffset t content % 2 ^ 32 < 2 ^ 31
  · rw [if_pos hfits, if_pos hfits, if_pos (Int.natCast_nonneg _), Int.toNat_natCast]
    rfl
  · have hlt : tableOffset t content % 2 ^ 32 < 2 ^ 32 := Nat.mod_lt _ (by decide)
    rw [if_neg hfits, if_neg hfits, if_neg (by omega), ahead_freadWord]
    rfl

/-- `GetRowById` returns a row exactly when an entry at the place of the lookup has the number. -/
theorem Reader.isSome_getRowById_iff (t : Target) (content : Bytes) (id : UInt16) :
    (Reader.getRowById t (Reader.ofContent content) id).1.isSome = true ↔
      ∃ i < lookupCount t content, lookupNumber t content i = id := by
  let f := (Reader.sought t (File.openRead content)).2
  have hcount : (freadWord t.sizeofSizeT f).1 = lookupCount t content := by
    rw [freadWord_fst, Reader.ahead_sought, lookupCount]
  have hnumber (i : ℕ) : (entry t (freadWord t.sizeofSizeT f).2.ahead i).2 =
      lookupNumber t content i := by
    rw [ahead_freadWord, Reader.ahead_sought]
    simp only [entry, lookupNumber, lookupEntry, List.drop_drop]
  have hfind := Reader.isSome_findRow_iff t id (freadWord t.sizeofSizeT f).1
    (freadWord t.sizeofSizeT f).2
  simp only [hcount, hnumber] at hfind
  rw [← hfind, ← hcount]
  rfl

/-- The numbers that the lookup may meet without a declared entry inside the file behind them: those
that the end of the file cuts off, with zeros for what is missing, and all those of another place
than the one that the header declares, when no `long` holds its offset. -/
def StrayNumber (t : Target) (content : Bytes) (id : UInt16) : Prop :=
  ∃ i < lookupCount t content, lookupNumber t content i = id ∧
    (2 ^ 31 ≤ tableOffset t content ∨ content.length < lookupEntry t content i + entrySize t)

section Stray

variable {t : Target} {content : Bytes} {id : UInt16}

/-- An offset that a `long` holds is where the lookup goes. -/
theorem lookupPosition_of_lt (h : tableOffset t content < 2 ^ 31) :
    lookupPosition t content = tableOffset t content := by
  have hmod : tableOffset t content % 2 ^ 32 = tableOffset t content := Nat.mod_eq_of_lt (by omega)
  rw [lookupPosition, hmod, if_pos h]

/-- Each number met is that of a declared entry inside the file, or a stray one. -/
theorem declares_or_stray {i : ℕ} (hi : i < lookupCount t content)
    (hnumber : lookupNumber t content i = id) :
    Declares t content id ∨ StrayNumber t content id := by
  by_cases hfits : tableOffset t content < 2 ^ 31
  · have hplace : lookupPosition t content = tableOffset t content := lookupPosition_of_lt hfits
    by_cases hinside : lookupEntry t content i + entrySize t ≤ content.length
    · rw [lookupCount, hplace] at hi
      rw [lookupEntry, hplace] at hinside
      rw [lookupNumber, lookupEntry, hplace] at hnumber
      exact .inl ⟨i, hi, hinside, hnumber⟩
    · exact .inr ⟨i, hi, hnumber, .inr (by omega)⟩
  · exact .inr ⟨i, hi, hnumber, .inl (by omega)⟩

end Stray

/-- For every content of a file and every number: when `GetRowById` returns a row, a declared entry
inside the file carries the number, if and only if the number is not a stray one or such an entry
carries it as well. -/
theorem no_phantom_iff (t : Target) (content : Bytes) (id : UInt16) :
    (∀ row, (Reader.getRowById t (Reader.ofContent content) id).1 = some row →
        Declares t content id) ↔
      (StrayNumber t content id → Declares t content id) := by
  constructor
  · rintro h ⟨i, hi, hnumber, -⟩
    have hsome := (Reader.isSome_getRowById_iff t content id).2 ⟨i, hi, hnumber⟩
    obtain ⟨row, hrow⟩ := Option.isSome_iff_exists.1 hsome
    exact h row hrow
  · intro h row hrow
    obtain ⟨i, hi, hnumber⟩ :=
      (Reader.isSome_getRowById_iff t content id).1 (by rw [hrow]; rfl)
    rcases declares_or_stray hi hnumber with hdeclares | hstray
    · exact hdeclares
    · exact h hstray

/-- A file that ends where the only entry of its table should start. -/
def cutOffFile : Bytes := [4, 0, 0, 0, 1, 0, 0, 0]

/-- The missing entry is taken for one with the number 0. -/
theorem getRowById_cutOffFile :
    (Reader.getRowById .win32 (Reader.ofContent cutOffFile) 0).1 =
        some ⟨[4, 0, 0, 0, 1, 0, 0, 0, 0]⟩ ∧
      ¬ Declares .win32 cutOffFile 0 := by
  decide

end NitroCloud
