import NitroCloud.Foundations.Machine
import NitroCloud.Mem.Layout

/-!
# Several queries on one reader

Neither `GetRowById` nor `Read` seeks to the start of the file: each takes the word at the position
that the last call left for the header.  A call returns what it returns on a fresh `Reader` when
that word is the header (`queries_as_fresh`), as it is for the first call.
-/

namespace NitroCloud

open Bytes Stdio

namespace Reader

/-- A call on a `Reader`; `Read` adds to the collection that it is given. -/
inductive Query where
  | getRowById (rowId : UInt16)
  | read (collection : List Row)
deriving DecidableEq, Repr

/-- What a call returns. -/
inductive Answer where
  | row (result : Option Row)
  | rows (collection : List Row)
deriving DecidableEq, Repr

/-- A call, and the `Reader` after it. -/
def ask (t : Target) (reader : Reader) : Query → Answer × Reader
  | .getRowById rowId =>
    let (result, reader) := getRowById t reader rowId
    (.row result, reader)
  | .read collection =>
    let (collection, reader) := read t reader collection
    (.rows collection, reader)

/-- Calls one after another on one `Reader`. -/
def step (t : Target) (reader : Reader) (query : Query) : Option Reader :=
  some (ask t reader query).2

/-- The call returns what it returns on a fresh `Reader`. -/
def AsFresh (t : Target) (content : Bytes) (_ : List Query) (reader : Reader) (query : Query) :
    Prop :=
  (ask t reader query).1 = (ask t (ofContent content) query).1

/-- The word at the position of the stream is the header of the file, and `fseek` can take it unless
the stream is at the start. -/
def AtHeader (t : Target) (content : Bytes) (_ : List Query) (reader : Reader) (_ : Query) : Prop :=
  ∀ f, reader.m_file = some f → (freadWord t.sizeofSizeT f).1 = tableOffset t content ∧
    (f.pos = 0 ∨ 0 ≤ toLong (tableOffset t content))

/-- A call once it has read the header and called `fseek`. -/
def resume (t : Target) : ℕ × File → Query → Answer × Reader
  | (_, f), .getRowById rowId =>
    let (sizeRowsCollection, f) := freadWord t.sizeofSizeT f
    let (result, f) := findRow t rowId sizeRowsCollection f
    (.row result, ⟨some f⟩)
  | (offsetRefTable, f), .read collection =>
    let (bs, f) := f.fread t.sizeofSizeT
    let (collection, f) :=
      readRows t (leValue bs) (t.wrap (offsetRefTable + bs.length)) f collection
    (.rows collection, ⟨some f⟩)

/-- A call depends on the position only through the header that it finds there. -/
theorem ask_eq (t : Target) (f : File) (query : Query) :
    ask t ⟨some f⟩ query = resume t (sought t f) query := by
  cases query <;> rfl

theorem findRow_data (t : Target) (rowId : UInt16) (n : ℕ) (f : File) :
    (findRow t rowId n f).2.data = f.data := by
  induction n generalizing f with
  | zero => rfl
  | succ n ih =>
    simp only [findRow]
    split_ifs
    · simp
    · rw [ih]
      rfl

theorem readRows_data (t : Target) (n offsetRefTable : ℕ) (f : File) (collection : List Row) :
    (readRows t n offsetRefTable f collection).2.data = f.data := by
  induction n generalizing offsetRefTable f collection with
  | zero => rfl
  | succ n ih =>
    rw [readRows]
    simp only [ih]
    simp

/-- A call leaves the content of the file as it is. -/
theorem step_data {t : Target} {content : Bytes} {reader reader' : Reader} {query : Query}
    (h : reader.m_file.map File.data = some content) (hstep : step t reader query = some reader') :
    reader'.m_file.map File.data = some content := by
  obtain ⟨f, hf, rfl⟩ := Option.map_eq_some_iff.1 h
  obtain ⟨m_file⟩ := reader
  subst hf
  cases hstep
  cases query with
  | getRowById rowId => simp [ask, getRowById, findRow_data]
  | read collection => simp [ask, read, readRows_data]

theorem sought_eq {t : Target} {f : File}
    (h : (freadWord t.sizeofSizeT f).1 = tableOffset t f.data ∧
      (f.pos = 0 ∨ 0 ≤ toLong (tableOffset t f.data))) :
    sought t f = sought t (File.openRead f.data) := by
  obtain ⟨hheader, hzero | hlong⟩ := h
  · have hf : f = File.openRead f.data := by
      rw [File.openRead, ← hzero]
    rw [← hf]
  · have hfresh : (freadWord t.sizeofSizeT (File.openRead f.data)).1 = tableOffset t f.data := rfl
    simp only [sought, hheader, hfresh, File.fseek, if_pos hlong, freadWord_data]
    rfl

/-- In every sequence of calls on one `Reader`, each call returns what it returns on a fresh one,
when each finds the header of the file at the position of the stream. -/
theorem queries_as_fresh (t : Target) (content : Bytes) {queries : List Query}
    (h : Machine.Along (step t) (ofContent content) (AtHeader t content) queries) :
    Machine.Along (step t) (ofContent content) (AsFresh t content) queries := by
  refine h.imp (fun _ reader => reader.m_file.map File.data = some content) rfl
    (fun _ _ _ _ hdata _ hstep => step_data hdata hstep) ?_
  intro before reader query hdata hheader
  obtain ⟨f, hf, rfl⟩ := Option.map_eq_some_iff.1 hdata
  obtain ⟨m_file⟩ := reader
  subst hf
  simp only [AsFresh, ofContent, ask_eq, sought_eq (hheader f rfl)]

/-- Two rows, the second of which is the header of their file. -/
def headerRows : List Row := [⟨ascii "a"⟩, ⟨[11, 0, 0, 0]⟩]

/-- Behind the first row, the second call finds the header. -/
theorem queries_as_fresh_headerRows :
    (ask .win32 (ask .win32 (ofContent (Writer.content .win32 headerRows)) (.getRowById 1)).2
        (.getRowById 2)).1 =
      (ask .win32 (ofContent (Writer.content .win32 headerRows)) (.getRowById 2)).1 := by
  have hheader : Machine.Along (step .win32) (ofContent (Writer.content .win32 headerRows))
      (AtHeader .win32 (Writer.content .win32 headerRows)) [.getRowById 1, .getRowById 2] := by
    have hfirst : Machine.Along (step .win32) (ofContent (Writer.content .win32 headerRows))
        (AtHeader .win32 (Writer.content .win32 headerRows)) ([] ++ [.getRowById 1]) := by
      refine Machine.along_nil.concat ?_
      intro reader hreader f hf
      cases hreader
      cases hf
      decide
    refine hfirst.concat ?_
    intro reader hreader f hf
    cases hreader
    cases hf
    decide
  exact queries_as_fresh .win32 _ hheader [.getRowById 1] (.getRowById 2) [] _ rfl rfl

/-- A file with one row. -/
def oneRow : List Row := [⟨ascii "ab"⟩]

/-- After a number that is not found, the row of the file is not found either. -/
theorem getRowById_after_miss :
    (ask .win32 (ask .win32 (ofContent (Writer.content .win32 oneRow)) (.getRowById 5)).2
        (.getRowById 1)).1 = .row none ∧
      (ask .win32 (ofContent (Writer.content .win32 oneRow)) (.getRowById 1)).1 =
        .row (some ⟨ascii "ab" ++ [10, 0]⟩) ∧
      ¬ Machine.Along (step .win32) (ofContent (Writer.content .win32 oneRow))
        (AsFresh .win32 (Writer.content .win32 oneRow)) [.getRowById 5, .getRowById 1] := by
  refine ⟨by decide, by decide, ?_⟩
  intro h
  have hlast := h [.getRowById 5] (.getRowById 1) [] _ rfl rfl
  revert hlast
  unfold AsFresh
  decide

end Reader

end NitroCloud
