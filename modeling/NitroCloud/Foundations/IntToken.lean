import NitroCloud.Foundations.IStream
import Mathlib.Data.List.TakeWhile

/-!
# Integer tokens

`StartsWithInt text v rest` says in words what `std::istream >> int` looks for: white space, a sign
or none, and all the digits that follow, of which there is at least one.  A good stream that starts
so yields the value when it fits an `int`, and stops in front of the rest; every other extraction
sets `failbit`.
-/

namespace Stream

open Bytes IStream

/-- The value of a sign and digits. -/
def intValue (sign ds : Bytes) : ℤ :=
  if sign = [45] then -(digitsValue ds : ℤ) else digitsValue ds

/-- The text starts, after white space, with an integer token of the given value, in front of
`rest`. -/
def StartsWithInt (text : Bytes) (v : ℤ) (rest : Bytes) : Prop :=
  ∃ ws sign ds, text = ws ++ (sign ++ (ds ++ rest)) ∧ (∀ b ∈ ws, isSpace b = true) ∧
    (sign = [] ∨ sign = [43] ∨ sign = [45]) ∧ ds ≠ [] ∧ (∀ b ∈ ds, isDigit b = true) ∧
    (∀ b ∈ rest.head?, isDigit b = false) ∧ v = intValue sign ds

/-! ## The token as the stream scans it -/

/-- The sign that a stream finds behind the white space. -/
def scanSign (text : Bytes) : Bytes := ((text.dropWhile isSpace).take 1).takeWhile isSign

/-- What lies behind the sign. -/
def scanTail (text : Bytes) : Bytes := (text.dropWhile isSpace).drop (scanSign text).length

theorem scanSign_append_scanTail (text : Bytes) :
    scanSign text ++ scanTail text = text.dropWhile isSpace := by
  have hprefix : scanSign text <+: text.dropWhile isSpace :=
    (List.takeWhile_prefix _).trans (List.take_prefix _ _)
  exact (List.prefix_iff_eq_append.1 hprefix)

theorem scanSign_eq (text : Bytes) :
    scanSign text = [] ∨ scanSign text = [43] ∨ scanSign text = [45] := by
  unfold scanSign
  rcases text.dropWhile isSpace with _ | ⟨b, field⟩
  · exact .inl rfl
  · by_cases hb : isSign b = true
    · simp only [isSign, Bool.or_eq_true, beq_iff_eq] at hb
      rcases hb with rfl | rfl
      · exact .inr (.inl rfl)
      · exact .inr (.inr rfl)
    · simp [hb]

theorem head?_dropWhile {α : Type*} (p : α → Bool) (as : List α) :
    ∀ b ∈ (as.dropWhile p).head?, p b = false := by
  intro b hb
  have h := List.head?_dropWhile_not p as
  rw [Option.mem_def.1 hb] at h
  simpa using h

theorem append_scan (text : Bytes) :
    text.takeWhile isSpace ++ (scanSign text ++ ((scanTail text).takeWhile isDigit ++
      (scanTail text).dropWhile isDigit)) = text := by
  rw [List.takeWhile_append_dropWhile, scanSign_append_scanTail, List.takeWhile_append_dropWhile]

/-- The length of the white space, the sign and the digits. -/
def scanLength (text : Bytes) : ℕ :=
  (text.takeWhile isSpace).length + (scanSign text).length +
    ((scanTail text).takeWhile isDigit).length

theorem drop_scanLength (text : Bytes) :
    text.drop (scanLength text) = (scanTail text).dropWhile isDigit := by
  have htext : (text.takeWhile isSpace ++ scanSign text ++ (scanTail text).takeWhile isDigit) ++
      (scanTail text).dropWhile isDigit = text := by
    simpa only [List.append_assoc] using append_scan text
  calc text.drop (scanLength text) = ((text.takeWhile isSpace ++ scanSign text ++
        (scanTail text).takeWhile isDigit) ++
          (scanTail text).dropWhile isDigit).drop (scanLength text) := by rw [htext]
    _ = (scanTail text).dropWhile isDigit :=
        List.drop_left' (by rw [List.length_append, List.length_append, scanLength])

/-- The token, when there is one, is what the stream scans. -/
theorem startsWithInt_iff {text : Bytes} {v : ℤ} {rest : Bytes} :
    StartsWithInt text v rest ↔
      (scanTail text).takeWhile isDigit ≠ [] ∧
        v = intValue (scanSign text) ((scanTail text).takeWhile isDigit) ∧
        rest = (scanTail text).dropWhile isDigit := by
  constructor
  · rintro ⟨ws, sign, ds, rfl, hws, hsign, hne, hds, hrest, rfl⟩
    obtain ⟨d, ds, rfl⟩ := List.exists_cons_of_ne_nil hne
    have hd : isDigit d = true := hds d (by simp)
    have hfield : ∀ b ∈ (sign ++ (d :: ds ++ rest)).head?, isSpace b = false := by
      rcases hsign with rfl | rfl | rfl
      · simpa using not_isSpace_of_isDigit hd
      · simp [isSpace]
      · simp [isSpace]
    have hdrop := dropWhile_append_of_stop hws hfield
    have hscan : scanSign (ws ++ (sign ++ (d :: ds ++ rest))) = sign := by
      rw [scanSign, hdrop]
      rcases hsign with rfl | rfl | rfl
      · simp [not_isSign_of_isDigit hd]
      · simp [isSign]
      · simp [isSign]
    have htail : scanTail (ws ++ (sign ++ (d :: ds ++ rest))) = d :: ds ++ rest := by
      rw [scanTail, hscan, hdrop, List.drop_left]
    rw [hscan, htail, takeWhile_append_of_stop hds hrest, dropWhile_append_of_stop hds hrest]
    exact ⟨List.cons_ne_nil d ds, rfl, rfl⟩
  · rintro ⟨hne, rfl, rfl⟩
    refine ⟨text.takeWhile isSpace, scanSign text, _, ?_, fun b => List.mem_takeWhile_imp,
      scanSign_eq text, hne, fun b => List.mem_takeWhile_imp, head?_dropWhile isDigit _, rfl⟩
    exact (append_scan text).symm

/-- A text starts with at most one token. -/
theorem StartsWithInt.unique {text : Bytes} {v v' : ℤ} {rest rest' : Bytes}
    (h : StartsWithInt text v rest) (h' : StartsWithInt text v' rest') : v = v' ∧ rest = rest' := by
  obtain ⟨-, rfl, rfl⟩ := startsWithInt_iff.1 h
  obtain ⟨-, rfl, rfl⟩ := startsWithInt_iff.1 h'
  exact ⟨rfl, rfl⟩

theorem StartsWithInt.ne_nil {text : Bytes} {v : ℤ} {rest : Bytes}
    (h : StartsWithInt text v rest) : text ≠ [] := by
  rintro rfl
  exact (startsWithInt_iff.1 h).1 rfl

/-! ## Extraction -/

theorem numGet_eq (sign ds : Bytes) :
    numGet sign ds =
      if ds = [] then (0, false)
      else if intValue sign ds < Int32.minValue.toInt then (Int32.minValue, false)
      else if Int32.maxValue.toInt < intValue sign ds then (Int32.maxValue, false)
      else (Int32.ofInt (intValue sign ds), true) := rfl

/-- Digits whose value fits are read. -/
theorem numGet_of_eq {sign ds : Bytes} (hne : ds ≠ []) {r : Int32}
    (h : r.toInt = intValue sign ds) : numGet sign ds = (r, true) := by
  have h₁ : Int32.minValue.toInt ≤ r.toInt := r.minValue_le_toInt
  have h₂ : r.toInt ≤ Int32.maxValue.toInt := r.toInt_le
  rw [numGet_eq, ← h, if_neg hne, if_neg (by omega), if_neg (by omega), Int32.ofInt_toInt]

/-- Digits whose value does not fit give a limit, which is not zero. -/
theorem numGet_of_ne {sign ds : Bytes} (hne : ds ≠ [])
    (h : ∀ r : Int32, r.toInt ≠ intValue sign ds) :
    (numGet sign ds).1 ≠ 0 ∧ (numGet sign ds).2 = false := by
  rw [numGet_eq, if_neg hne]
  split_ifs with hmin hmax
  · exact ⟨by decide, rfl⟩
  · exact ⟨by decide, rfl⟩
  · have hval : Int32.minValue.toInt = -2 ^ 31 ∧ Int32.maxValue.toInt = 2 ^ 31 - 1 := by decide
    exact absurd (Int32.toInt_ofInt_of_le (by omega) (by omega)) (h (Int32.ofInt _))

namespace IStream

section Extract

variable {s : IStream} (x : Int32)

/-- What an extraction does on a good stream that does not end after the white space. -/
theorem extractInt_scan (hgood : s.good = true)
    (hfield : (s.data.drop s.pos).dropWhile isSpace ≠ []) :
    s.extractInt x =
      let ahead := s.data.drop s.pos
      let ds := (scanTail ahead).takeWhile isDigit
      ((numGet (scanSign ahead) ds).1, { s with
        pos := s.pos + scanLength ahead
        eof := decide ((scanTail ahead).dropWhile isDigit = [])
        fail := !(numGet (scanSign ahead) ds).2 }) := by
  simp only [extractInt, hgood, if_neg hfield, Bool.not_true, Bool.false_eq_true, if_false,
    Nat.add_assoc, scanLength]
  rfl

theorem field_ne_nil {text : Bytes} (h : (scanTail text).takeWhile isDigit ≠ []) :
    text.dropWhile isSpace ≠ [] := by
  intro hfield
  rw [scanTail, hfield, List.drop_nil] at h
  exact h rfl

/-- A good stream that starts with a token whose value fits yields it, and stops in front of the
rest. -/
theorem extractInt_token {r : Int32} {rest : Bytes} (hgood : s.good = true)
    (h : StartsWithInt (s.data.drop s.pos) r.toInt rest) :
    ∃ pos, s.data.drop pos = rest ∧
      s.extractInt x = (r, { s with pos := pos, eof := decide (rest = []) }) := by
  obtain ⟨hne, hvalue, rfl⟩ := startsWithInt_iff.1 h
  have hfail : s.fail = false := (good_iff.1 hgood).2
  refine ⟨s.pos + scanLength (s.data.drop s.pos), ?_, ?_⟩
  · rw [← List.drop_drop, drop_scanLength]
  · rw [extractInt_scan x hgood (field_ne_nil hne)]
    simp only [numGet_of_eq hne hvalue, Bool.not_true, hfail]

/-- A good stream that starts with a token whose value does not fit yields a limit and fails. -/
theorem extractInt_overflow {v : ℤ} {rest : Bytes} (hgood : s.good = true)
    (h : StartsWithInt (s.data.drop s.pos) v rest) (hv : ∀ r : Int32, r.toInt ≠ v) :
    (s.extractInt x).1 ≠ 0 := by
  obtain ⟨hne, rfl, rfl⟩ := startsWithInt_iff.1 h
  rw [extractInt_scan x hgood (field_ne_nil hne)]
  exact (numGet_of_ne hne hv).1

/-- A good stream that starts with no token fails, and yields the value from before or zero. -/
theorem extractInt_noToken (hgood : s.good = true)
    (h : ∀ v rest, ¬ StartsWithInt (s.data.drop s.pos) v rest) :
    ((s.extractInt x).1 = x ∨ (s.extractInt x).1 = 0) ∧ (s.extractInt x).2.fail = true := by
  by_cases hfield : (s.data.drop s.pos).dropWhile isSpace = []
  · have hextract : s.extractInt x =
        (x, { s with pos := s.data.length, eof := true, fail := true }) := by
      simp [extractInt, hgood, hfield]
    rw [hextract]
    exact ⟨.inl rfl, rfl⟩
  · have hds : (scanTail (s.data.drop s.pos)).takeWhile isDigit = [] := by
      by_contra hne
      exact h _ _ (startsWithInt_iff.2 ⟨hne, rfl, rfl⟩)
    have hnum : numGet (scanSign (s.data.drop s.pos)) [] = (0, false) := by
      rw [numGet_eq, if_pos rfl]
    rw [extractInt_scan x hgood hfield]
    simp [hds, hnum]

/-- A stream that is not good leaves the variable as it was. -/
theorem extractInt_of_not_good (hgood : s.good = false) :
    s.extractInt x = (x, { s with fail := true }) := by
  simp only [extractInt, hgood, Bool.not_false, if_true]

end Extract

end IStream

end Stream
