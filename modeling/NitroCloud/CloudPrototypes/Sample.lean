import Mathlib.Algebra.Group.Action.Defs
import Mathlib.Algebra.Order.BigOperators.Group.List
import NitroCloud.Command.Codec
import NitroCloud.Command.Rows

/-!
# The sample data

`PrepareSample` of `cloud_prototypes`: when there is no data file, it writes one of 3000 rows, each
cut out of a text at two places that `rand` draws.  The command generator draws a row index below
2999 and the table numbers the rows from one, so every command finds a row but the ones for index 0
(`answers_iff`).
-/

namespace NitroCloud

open Bytes Stdio

/-- The text of `stringIniter` in `define.h`, cut into lines. -/
def initerLines : List String :=
  ["Lorem ipsum dolor sit amet, consectetur adipiscing elit. Vivamus euismod semper ",
    "faucibus. Sed eget convallis nulla. Sed malesuada diam id erat vehicula, at ",
    "blandit metus volutpat. Sed blandit pulvinar tellus. Mauris libero leo, ",
    "porttitor non quam et, malesuada vestibulum felis. Aenean auctor laoreet ",
    "fringilla. Aenean consequat, magna sed lacinia laoreet, leo libero rhoncus ",
    "sapien, et ornare mauris neque ullamcorper ipsum. Maurisarcu lorem, mattis sed ",
    "volutpat vel, tristique vel ante. Ut sagittis libero sit amet felis tempus ",
    "aliquam. Donecefficitur condimentum urna id rutrum. Sed a posuere diam. Donec ",
    "gravida sodales condimentum."]

/-- `stringIniter`, with its terminator. -/
def stringIniter : Bytes := initerLines.flatMap ascii ++ [0]

/-- `_countof(stringIniter)`. -/
def countofStringIniter : ℕ := stringIniter.length

theorem countofStringIniter_eq : countofStringIniter = 637 := by
  have hlines : initerLines.map (fun line => (ascii line).length) =
      [80, 76, 72, 73, 75, 79, 75, 78, 28] := by
    iterate 9 refine congrArg₂ List.cons ((length_ascii _).trans rfl) ?_
    rfl
  rw [countofStringIniter, stringIniter, List.length_append, List.length_flatMap, hlines]
  rfl

/-- The row that the loop of `PrepareSample` makes of two values of `rand`. -/
def sampleRow (rand₁ rand₂ : ℕ) : Row :=
  let first := rand₁ % countofStringIniter
  let second := rand₂ % countofStringIniter
  let second :=
    if first = second then
      if second < countofStringIniter then second + 1 else second - 1
    else second
  ⟨(stringIniter.take (max first second)).drop (min first second)⟩

/-- The rows that `PrepareSample` generates. -/
def sampleCollection (rand : ℕ → ℕ) : List Row :=
  (List.range 3000).map fun rowIndex => sampleRow (rand (2 * rowIndex)) (rand (2 * rowIndex + 1))

/-- `PrepareSample`: the data file after it, given the one that was there. -/
def prepareSample (t : Target) (file : Option Bytes) (rand : ℕ → ℕ) : Bytes :=
  match file with
  | some content => content
  | none => Writer.content t (sampleCollection rand)

section Collection

variable (rand : ℕ → ℕ)

@[simp] theorem length_sampleCollection : (sampleCollection rand).length = 3000 := by
  simp [sampleCollection]

theorem length_sampleRow_le (rand₁ rand₂ : ℕ) :
    (sampleRow rand₁ rand₂).m_value.length ≤ 637 := by
  rw [← countofStringIniter_eq, sampleRow, List.length_drop]
  exact (Nat.sub_le _ _).trans (List.length_take_le' _ _)

/-- The generated rows are short. -/
theorem rowsEnd_sampleCollection (t : Target) : rowsEnd t (sampleCollection rand) < 2 ^ 31 := by
  have hrow : ∀ n ∈ (sampleCollection rand).map fun row => (rowBytes row).length,
      n ≤ 638 := by
    intro n hn
    simp only [sampleCollection, List.map_map, List.mem_map, Function.comp_apply,
      length_rowBytes] at hn
    obtain ⟨rowIndex, -, rfl⟩ := hn
    exact Nat.succ_le_succ (length_sampleRow_le _ _)
  have hsum := List.sum_le_card_nsmul _ _ hrow
  rw [List.length_map, length_sampleCollection, smul_eq_mul] at hsum
  have hword : t.sizeofSizeT ≤ 8 := by
    cases t <;> decide
  rw [rowsEnd, List.length_flatMap]
  omega

end Collection

/-- The answer to the message of the command is the count of a row of the data file. -/
def ReportsCount (t : Target) (file : Bytes) (command : Count) : Prop :=
  ∃ row, answer t file command.message = some (command.countText t row)

/-- Of the commands that the generator draws, those for index 0 are answered with the error text. -/
theorem reportsCount_iff (t : Target) (sampleRand : ℕ → ℕ) (r : ℕ) :
    ReportsCount t (prepareSample t none sampleRand) ⟨Int32.ofNat (r % 2999)⟩ ↔ r % 2999 ≠ 0 := by
  have hend := rowsEnd_sampleCollection sampleRand t
  have hcount : (sampleCollection sampleRand).length ≤ 65535 := by
    rw [length_sampleCollection]
    omega
  have hindex : (Int32.ofNat (r % 2999)).toInt = (r % 2999 : ℕ) := by
    exact Int32.toInt_ofNat_of_lt (by omega)
  simp only [ReportsCount, prepareSample, answer_self, Option.some.injEq]
  constructor
  · rintro ⟨row, hrow⟩ hzero
    apply Count.countText_ne_errorText t _ row
    rw [← hrow, Count.run_content_eq_errorText_iff hend hcount, hindex, hzero]
    rintro ⟨hone, -⟩
    omega
  · intro hne
    obtain ⟨k, hk⟩ := Nat.exists_eq_succ_of_ne_zero hne
    have hlt : k < (sampleCollection sampleRand).length := by
      rw [length_sampleCollection]
      omega
    exact ⟨_, Count.run_content hend hcount hlt (by rw [hindex]; omega)⟩

/-- For all values of `rand` in `PrepareSample` and in `NextCommand`: every command of the generator
is answered with a count, if and only if `NextCommand` draws no multiple of 2999. -/
theorem answers_iff (t : Target) (sampleRand rand : ℕ → ℕ) :
    (∀ command ∈ (CommandGenerator.ofRand rand).commands,
        ReportsCount t (prepareSample t none sampleRand) command) ↔
      ∀ k < 4000, rand k % 2999 ≠ 0 := by
  simp only [CommandGenerator.commands, CommandGenerator.ofRand, List.mem_reverse, List.mem_map,
    List.mem_range]
  constructor
  · intro h k hk
    exact (reportsCount_iff t sampleRand (rand k)).1 (h _ ⟨k, hk, rfl⟩)
  · rintro h command ⟨k, hk, rfl⟩
    exact (reportsCount_iff t sampleRand (rand k)).2 (h k hk)

/-- When `NextCommand` draws 0, the generator hands out a command that is answered with the error
text. -/
theorem answer_rand_zero :
    ⟨0⟩ ∈ (CommandGenerator.ofRand fun _ => 0).commands ∧
      answer .win32 (prepareSample .win32 none fun _ => 0) (Count.mk 0).message =
        some (ascii "Row[0] = <error>") ∧
      ¬ ReportsCount .win32 (prepareSample .win32 none fun _ => 0) ⟨0⟩ := by
  have hend := rowsEnd_sampleCollection (fun _ => 0) .win32
  have herror : (Count.mk 0).run .win32 (prepareSample .win32 none fun _ => 0) =
      (Count.mk 0).errorText :=
    (Count.run_content_eq_errorText_iff hend (by simp) ⟨0⟩).2 fun h => absurd h.1 (by decide)
  refine ⟨?_, ?_, ?_⟩
  · rw [CommandGenerator.commands, List.mem_reverse, List.mem_map]
    exact ⟨0, List.mem_range.2 (by decide), rfl⟩
  · rw [answer_self, herror]
    decide
  · exact fun h => (reportsCount_iff .win32 (fun _ => 0) 0).1 h rfl

end NitroCloud
