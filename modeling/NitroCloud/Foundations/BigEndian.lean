import NitroCloud.Foundations.Bytes
import Mathlib.Data.Nat.Bitwise

/-!
# Words in network order

The bytes of an unsigned integer with the most significant byte first, as protocols put them on the
wire, and the two facts about the top bit of a word that protocols mark their headers with.
-/

namespace Bytes

/-- The `w` bytes of an unsigned integer, most significant byte first. -/
def beBytes (w n : ℕ) : Bytes := (leBytes w n).reverse

/-- The value of the bytes of an unsigned integer, most significant byte first. -/
def beValue (bs : Bytes) : ℕ := leValue bs.reverse

@[simp] theorem length_beBytes (w n : ℕ) : (beBytes w n).length = w := by
  simp [beBytes]

theorem beValue_beBytes_of_lt {w n : ℕ} (h : n < 256 ^ w) : beValue (beBytes w n) = n := by
  rw [beValue, beBytes, List.reverse_reverse, leValue_leBytes_of_lt h]

theorem beBytes_beValue (bs : Bytes) : beBytes bs.length (beValue bs) = bs := by
  rw [beValue, beBytes, ← List.length_reverse, leBytes_leValue, List.reverse_reverse]

theorem beValue_lt (bs : Bytes) : beValue bs < 256 ^ bs.length := by
  rw [beValue, leValue, ← List.length_reverse, ← List.length_map UInt8.toNat]
  refine Nat.ofDigits_lt_base_pow_length (by decide) ?_
  intro n hn
  obtain ⟨b, -, rfl⟩ := List.mem_map.1 hn
  exact b.toNat_lt

/-! ## The top bit of a word -/

/-- Setting the top bit of a word. -/
theorem toNat_or_top (v : UInt32) : (v ||| 0x80000000).toNat = 2 ^ 31 + v.toNat % 2 ^ 31 := by
  have hv := v.toNat_lt
  have hmod : v.toNat % 2 ^ 31 < 2 ^ 31 := Nat.mod_lt _ (by decide)
  have hor := Nat.or_two_pow_eq_add_of_lt hmod
  rw [UInt32.toNat_or, Nat.add_comm, ← hor]
  show v.toNat ||| 2 ^ 31 = v.toNat % 2 ^ 31 ||| 2 ^ 31
  rcases Nat.lt_or_ge v.toNat (2 ^ 31) with hlt | hge
  · rw [Nat.mod_eq_of_lt hlt]
  · have hsplit : v.toNat = v.toNat % 2 ^ 31 ||| 2 ^ 31 := by
      rw [hor]
      omega
    conv_lhs => rw [hsplit]
    rw [Nat.or_assoc, Nat.or_self]

/-- Clearing the top bit of a word. -/
theorem toNat_and_low (v : UInt32) : (v &&& 0x7fffffff).toNat = v.toNat % 2 ^ 31 := by
  rw [UInt32.toNat_and]
  exact Nat.and_two_pow_sub_one_eq_mod v.toNat 31

theorem and_top_ne_zero_iff (v : UInt32) : v &&& 0x80000000 ≠ 0 ↔ 2 ^ 31 ≤ v.toNat := by
  have hv := v.toNat_lt
  rw [ne_eq, ← UInt32.toNat_inj, UInt32.toNat_and]
  show ¬ v.toNat &&& 2 ^ 31 = 0 ↔ 2 ^ 31 ≤ v.toNat
  rw [Nat.and_two_pow, Nat.testBit_eq_decide_div_mod_eq]
  simp only [mul_eq_zero, Bool.toNat_eq_zero, decide_eq_false_iff_not, Nat.pow_eq_zero]
  omega

end Bytes
