import NitroCloud.Foundations.Bytes

/-!
# Files of the C library

A `File` is the content of a file opened in binary mode together with the position of the stream.
`fread` stops at the end of the content, `fgetc` returns `EOF` there, `fwrite` overwrites in place
and extends the content, and `fseek` from the start of the file may go past its end but fails,
leaving the position, on a negative offset.  The offset is a `long`, which has 32 bits on the
targets considered here; `toLong` is the conversion of an unsigned integer to it.
-/

namespace Stdio

open Bytes

/-- An open file: its content and the position of the stream. -/
structure File where
  data : Bytes
  pos : ℕ
deriving DecidableEq, Repr

/-- `EOF`. -/
def EOF : Int := -1

/-- The conversion of an unsigned integer to the 32-bit `long` that `fseek` takes. -/
def toLong (n : ℕ) : Int :=
  if n % 2 ^ 32 < 2 ^ 31 then (n % 2 ^ 32 : ℕ) else (n % 2 ^ 32 : ℕ) - 2 ^ 32

theorem toLong_of_lt {n : ℕ} (h : n < 2 ^ 31) : toLong n = n := by
  rw [toLong, Nat.mod_eq_of_lt (by omega), if_pos h]

namespace File

/-- A file just opened for reading. -/
def openRead (data : Bytes) : File := ⟨data, 0⟩

/-- A file just created for writing. -/
def create : File := ⟨[], 0⟩

/-- `fread(p, 1, n, f)`: the bytes stored at `p`; their number is the return value. -/
def fread (f : File) (n : ℕ) : Bytes × File :=
  let got := (f.data.drop f.pos).take n
  (got, { f with pos := f.pos + got.length })

/-- `fgetc(f)`. -/
def fgetc (f : File) : Int × File :=
  match f.data[f.pos]? with
  | some b => (b.toNat, { f with pos := f.pos + 1 })
  | none => (EOF, f)

/-- `fwrite(p, 1, n, f)` of the bytes `bs`; the return value is their number.  A write past the end
of the content fills the gap with zeros. -/
def fwrite (f : File) (bs : Bytes) : ℕ × File :=
  (bs.length,
    { data := f.data.take f.pos ++ List.replicate (f.pos - f.data.length) 0 ++ bs ++
        f.data.drop (f.pos + bs.length)
      pos := f.pos + bs.length })

/-- `fseek(f, offset, SEEK_SET)`. -/
def fseek (f : File) (offset : Int) : File :=
  if 0 ≤ offset then { f with pos := offset.toNat } else f

/-- The bytes from the position to the end of the content. -/
def ahead (f : File) : Bytes := f.data.drop f.pos

variable (f : File)

theorem ahead_mk (data : Bytes) (pos : ℕ) : (⟨data, pos⟩ : File).ahead = data.drop pos := rfl

@[simp] theorem fread_fst (n : ℕ) : (f.fread n).1 = f.ahead.take n := rfl

@[simp] theorem fread_data (n : ℕ) : (f.fread n).2.data = f.data := rfl

/-- What lies ahead after `fread`, also after one that fell short, is what lay ahead without its
first bytes. -/
@[simp] theorem ahead_fread (n : ℕ) : (f.fread n).2.ahead = f.ahead.drop n := by
  simp only [fread, ahead]
  rw [← List.drop_drop, List.length_take]
  rcases Nat.le_total n (f.data.drop f.pos).length with h | h
  · rw [Nat.min_eq_left h]
  · rw [Nat.min_eq_right h, List.drop_length, List.drop_eq_nil_of_le h]

@[simp] theorem fgetc_data : f.fgetc.2.data = f.data := by
  unfold fgetc
  split <;> rfl

theorem fgetc_ahead {f : File} {b : UInt8} {rest : Bytes} (h : f.ahead = b :: rest) :
    f.fgetc = ((b.toNat : Int), ⟨f.data, f.pos + 1⟩) := by
  have hget : f.data[f.pos]? = some b := by
    rw [← Nat.add_zero f.pos, ← List.getElem?_drop, ← ahead, h, List.getElem?_cons_zero]
  simp only [fgetc, hget]

theorem ahead_succ {f : File} {b : UInt8} {rest : Bytes} (h : f.ahead = b :: rest) :
    (⟨f.data, f.pos + 1⟩ : File).ahead = rest := by
  rw [ahead_mk, ← List.drop_drop, ← ahead, h, List.drop_one, List.tail_cons]

@[simp] theorem fseek_data (offset : Int) : (f.fseek offset).data = f.data := by
  unfold fseek
  split_ifs <;> rfl

/-- Seeking to an offset below `2 ^ 31` succeeds. -/
theorem fseek_toLong {n : ℕ} (h : n < 2 ^ 31) : f.fseek (toLong n) = ⟨f.data, n⟩ := by
  rw [toLong_of_lt h, fseek, if_pos (Int.natCast_nonneg n), Int.toNat_natCast]

/-- Writing at the end of the content appends. -/
theorem fwrite_append (data bs : Bytes) :
    (⟨data, data.length⟩ : File).fwrite bs = (bs.length, ⟨data ++ bs, (data ++ bs).length⟩) := by
  simp [fwrite]

/-- Writing over the first bytes of the content leaves the rest. -/
theorem fwrite_patch (old rest bs : Bytes) (h : bs.length = old.length) :
    ((⟨old ++ rest, 0⟩ : File).fwrite bs).2.data = bs ++ rest := by
  simp [fwrite, h]

end File

end Stdio
