import NitroCloud.Mem.Layout

/-!
# Where `Row::Read` stops

`Row::Read` stops at a line feed and at the end of the file, and also at the byte `0xFF` within a
line: `fgetc` returns an `int`, of which the loop keeps a `char`, and as a `char` that byte is the
same as `EOF`.
-/

namespace NitroCloud

open Bytes Stdio

/-- The bytes through the first line feed, or all of them when there is none. -/
def throughLineEnd : Bytes → Bytes
  | [] => []
  | b :: bs => if b = ROW_END then [b] else b :: throughLineEnd bs

theorem throughLineEnd_cons_end (bs : Bytes) : throughLineEnd (ROW_END :: bs) = [ROW_END] :=
  if_pos rfl

theorem throughLineEnd_cons {b : UInt8} (h : b ≠ ROW_END) (bs : Bytes) :
    throughLineEnd (b :: bs) = b :: throughLineEnd bs :=
  if_neg h

/-- Without the byte `0xFF` the line that is read is the line in the file. -/
theorem line_eq_throughLineEnd {bs : Bytes} (h : (0xFF : UInt8) ∉ throughLineEnd bs) :
    line bs = throughLineEnd bs ∧ taken bs = (throughLineEnd bs).length := by
  induction bs with
  | nil => exact ⟨rfl, rfl⟩
  | cons b bs ih =>
    by_cases hend : b = ROW_END
    · subst hend
      rw [throughLineEnd_cons_end, line, taken, if_neg (by decide), if_pos rfl, if_pos (.inr rfl)]
      exact ⟨rfl, rfl⟩
    · rw [throughLineEnd_cons hend, List.mem_cons, not_or] at h
      obtain ⟨hne, hrest⟩ := h
      obtain ⟨hline, htaken⟩ := ih hrest
      rw [throughLineEnd_cons hend, line, taken, if_neg (Ne.symm hne), if_neg hend,
        if_neg (not_or.2 ⟨Ne.symm hne, hend⟩), hline, htaken, List.length_cons]
      exact ⟨rfl, rfl⟩

/-- A line that is read has no byte `0xFF`. -/
theorem eof_notMem_line (bs : Bytes) : (0xFF : UInt8) ∉ line bs := by
  induction bs with
  | nil => exact List.not_mem_nil
  | cons b bs ih =>
    rw [line]
    split_ifs with heof hend
    · exact List.not_mem_nil
    · rw [List.mem_singleton]
      exact Ne.symm heof
    · rw [List.mem_cons, not_or]
      exact ⟨Ne.symm heof, ih⟩

/-- For every file and position: `Row::Read` stores the bytes through the first line feed, or to the
end of the file, with a NUL behind them, and leaves the position just after them, if and only if the
byte `0xFF` is not among them. -/
theorem Row.read_exact_iff (f : File) :
    ((Row.read f).1.m_value = throughLineEnd f.ahead ++ [0] ∧
      (Row.read f).2.pos = f.pos + (throughLineEnd f.ahead).length) ↔
      (0xFF : UInt8) ∉ throughLineEnd f.ahead := by
  rw [Row.read_eq]
  constructor
  · rintro ⟨hvalue, -⟩
    have hline : line f.ahead = throughLineEnd f.ahead := List.append_cancel_right hvalue
    rw [← hline]
    exact eof_notMem_line f.ahead
  · intro h
    obtain ⟨hline, htaken⟩ := line_eq_throughLineEnd h
    rw [hline, htaken]
    exact ⟨rfl, rfl⟩

/-- A line with the byte `0xFF` in it is cut short. -/
theorem Row.read_eof_byte :
    ¬ ((Row.read ⟨[65, 0xFF, 66, 10], 0⟩).1.m_value =
          throughLineEnd (⟨[65, 0xFF, 66, 10], 0⟩ : File).ahead ++ [0] ∧
        (Row.read ⟨[65, 0xFF, 66, 10], 0⟩).2.pos =
          0 + (throughLineEnd (⟨[65, 0xFF, 66, 10], 0⟩ : File).ahead).length) := by
  decide

end NitroCloud
