import Mathlib.Data.List.TakeWhile
import Mathlib.Data.Nat.Digits.Lemmas
import Mathlib.Data.Nat.Digits.Div

/-!
# Bytes, machine words and C strings

Byte strings are lists of `UInt8`.  This file has the three encodings of them that C code relies
on: the little-endian object representation of an unsigned integer (`leBytes`, `leValue`), the
string that starts at the first byte of a `char` buffer (`cStr`), and the contents of a buffer
after bytes were stored at its start (`store`).
-/

/-- A byte string. -/
abbrev Bytes := List UInt8

namespace Bytes

/-- The bytes of an ASCII text. -/
def ascii (s : String) : Bytes := s.toList.map fun c => c.toNat.toUInt8

/-- A text has a byte for each character; a literal is the `String.ofList` of its characters. -/
theorem length_ascii (cs : List Char) : (ascii (String.ofList cs)).length = cs.length := by
  rw [ascii, List.length_map, String.toList_ofList]

/-! ## Little-endian words -/

/-- The value of the bytes of an unsigned integer, least significant byte first.  A word that is
zero before a short read has the value of the bytes that were read. -/
def leValue (bs : Bytes) : ℕ := Nat.ofDigits 256 (bs.map UInt8.toNat)

/-- The `w` bytes of an unsigned integer, least significant byte first. -/
def leBytes (w n : ℕ) : Bytes := (List.range w).map fun i => (n / 256 ^ i).toUInt8

@[simp] theorem leValue_nil : leValue [] = 0 := rfl

@[simp] theorem length_leBytes (w n : ℕ) : (leBytes w n).length = w := by
  simp [leBytes]

theorem leValue_leBytes (w n : ℕ) : leValue (leBytes w n) = n % 256 ^ w := by
  induction w with
  | zero => simp [leBytes, Nat.mod_one]
  | succ w ih =>
    have hlast : leBytes (w + 1) n = leBytes w n ++ [(n / 256 ^ w).toUInt8] := by
      simp [leBytes, List.range_succ]
    rw [hlast, leValue, List.map_append, Nat.ofDigits_append, ← leValue, ih, List.length_map,
      length_leBytes, Nat.mod_pow_succ]
    simp [Nat.toUInt8, UInt8.toNat_ofNat']

theorem leValue_leBytes_of_lt {w n : ℕ} (h : n < 256 ^ w) : leValue (leBytes w n) = n := by
  rw [leValue_leBytes, Nat.mod_eq_of_lt h]

/-- The bytes of a word are those that have its value. -/
theorem leBytes_leValue (bs : Bytes) : leBytes bs.length (leValue bs) = bs := by
  induction bs with
  | nil => rfl
  | cons b bs ih =>
    have hlt : b.toNat < 256 := b.toNat_lt
    have hvalue : leValue (b :: bs) = b.toNat + 256 * leValue bs := by
      rw [leValue, List.map_cons, Nat.ofDigits_cons, leValue]
    have hbytes (w n : ℕ) : leBytes (w + 1) n = n.toUInt8 :: leBytes w (n / 256) := by
      rw [leBytes, List.range_succ_eq_map, List.map_cons, List.map_map, pow_zero, Nat.div_one]
      congr 1
      refine List.map_congr_left fun i _ => ?_
      simp only [Function.comp_apply, Nat.succ_eq_add_one]
      rw [pow_succ', ← Nat.div_div_eq_div_mul]
    rw [List.length_cons, hbytes, hvalue]
    congr 1
    · rw [← UInt8.toNat_inj]
      simp [Nat.toUInt8]
    · rw [Nat.add_mul_div_left _ _ (by decide), Nat.div_eq_of_lt hlt, Nat.zero_add, ih]

/-! ## Buffers and C strings -/

/-- A buffer after the bytes `bs` were stored at its start. -/
def store (buf bs : Bytes) : Bytes := bs ++ buf.drop bs.length

/-- The C string at the start of a buffer: the bytes in front of the first NUL. -/
def cStr (buf : Bytes) : Bytes := buf.takeWhile (· ≠ 0)

theorem length_store {buf bs : Bytes} (h : bs.length ≤ buf.length) :
    (store buf bs).length = buf.length := by
  rw [store, List.length_append, List.length_drop]
  omega

/-- What is stored at the start leaves the bytes behind it. -/
theorem drop_store (buf : Bytes) {bs : Bytes} {n : ℕ} (h : bs.length ≤ n) :
    (store buf bs).drop n = buf.drop n := by
  rw [store, List.drop_append, List.drop_eq_nil_of_le h, List.nil_append, List.drop_drop,
    Nat.add_sub_cancel' h]

/-- A C string with its NUL inside the buffer is shorter than the buffer. -/
theorem length_cStr_lt {buf : Bytes} (h : (0 : UInt8) ∈ buf) : (cStr buf).length < buf.length := by
  have hstarts : cStr buf <+: buf := List.takeWhile_prefix _
  apply lt_of_le_of_ne hstarts.length_le
  intro hlength
  have hmem : (0 : UInt8) ∈ cStr buf := by
    rw [hstarts.eq_of_length hlength]
    exact h
  simpa using List.mem_takeWhile_imp hmem

/-- Bytes without a NUL stay in front of the C string that follows them. -/
theorem cStr_append {bs : Bytes} (h : (0 : UInt8) ∉ bs) (rest : Bytes) :
    cStr (bs ++ rest) = bs ++ cStr rest := by
  apply List.takeWhile_append_of_pos
  intro b hb
  have hb0 : b ≠ 0 := fun h0 => h (h0 ▸ hb)
  simpa using hb0

/-- Bytes without a NUL are their own C string. -/
theorem cStr_eq_self {bs : Bytes} (h : (0 : UInt8) ∉ bs) : cStr bs = bs := by
  simpa [cStr] using cStr_append h []

/-- The C string of a zeroed buffer is exactly the string stored in it. -/
theorem cStr_store_replicate {bs : Bytes} {n : ℕ} (h0 : (0 : UInt8) ∉ bs) :
    cStr (store (List.replicate n 0) bs) = bs := by
  rw [store, cStr_append h0, List.drop_replicate]
  cases n - bs.length <;> simp [cStr, List.replicate_succ]

end Bytes
