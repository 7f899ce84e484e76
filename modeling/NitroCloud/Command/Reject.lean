import NitroCloud.Foundations.IntToken
import NitroCloud.Command.Command

/-!
# What the decoder takes for a command

`FromStream` does not ask whether its extractions succeeded.  A text that starts with no integer
leaves the tag at `0`, which is `CountCommand`, and the row index at `-1`; and a tag `0` without a
row index behind it gives a command with a default or clamped row index.  `FromStream` returns
exactly the commands that texts spell out when neither happens.  A tag of another type, on the other
hand, is rejected without a trace: the look at it reads past the white space, the sign and the
digits, possibly to the end of the stream, and `seekg` puts back both the position and `eofbit`.
-/

namespace NitroCloud

open Bytes Stream

/-- The text spells out a `Count` command: an integer `0` and the row index. -/
def CountText (text : Bytes) (rowIndex : Int32) : Prop :=
  ∃ rest rest', StartsWithInt text 0 rest ∧ StartsWithInt rest rowIndex.toInt rest'

variable {text rest : Bytes} {s : IStream}

/-- The look at a tag that fits an `int` leaves a good stream as it was. -/
theorem readNextCommandType_token {type : Int32} (hgood : s.good = true)
    (h : StartsWithInt (s.data.drop s.pos) type.toInt rest) :
    readNextCommandType s = (type, s) := by
  -- a token lies ahead, so the position is one that `seekg` accepts
  have hpos : s.pos ≤ s.data.length := by
    by_contra hend
    apply h.ne_nil
    exact List.drop_eq_nil_of_le (by omega)
  obtain ⟨pos, -, hextract⟩ := IStream.extractInt_token 0 hgood h
  exact readNextCommandType_eq hgood hpos hextract

/-- For every content and position of a stream: in front of an integer other than zero that fits an
`int`, also one at the very end, `FromStream` returns null and leaves the stream as it was, with its
content, its position and its flags. -/
theorem fromStream_unknown_type (data : Bytes) (pos : ℕ) (type : Int32) (rest : Bytes)
    (h : StartsWithInt (data.drop pos) type.toInt rest) (htype : type ≠ 0) :
    fromStream { data := data, pos := pos } = (none, { data := data, pos := pos }) := by
  have hpeek : readNextCommandType { data := data, pos := pos } =
      (type, { data := data, pos := pos }) := readNextCommandType_token rfl h
  rw [fromStream, hpeek]
  exact if_neg htype

/-- A signed tag behind white space, at the end of the stream. -/
theorem fromStream_plus_twelve :
    fromStream { data := ascii "0 7 +12", pos := 3 } =
      (none, { data := ascii "0 7 +12", pos := 3 }) :=
  fromStream_unknown_type (ascii "0 7 +12") 3 12 []
    ⟨[32], [43], [49, 50], by decide, by simp [isSpace], .inr (.inl rfl), by decide,
      by simp [isDigit], by simp, by decide⟩
    (by decide)

/-- A stream that failed decodes to a command with the default row index. -/
theorem deserialize_of_fail (hfail : s.fail = true) : (deserialize s).1 = some ⟨-1⟩ := by
  have hgood : ∀ s : IStream, s.fail = true → s.good = false := by
    intro s hs
    simp [IStream.good, hs]
  have htell : s.tellg = (-1, { s with fail := true }) := by
    rw [IStream.tellg, if_neg (by simp [hgood s hfail])]
  simp only [deserialize, htell]
  rw [IStream.extractInt_of_not_good 0 (hgood _ rfl)]
  simp only [CountCommand, ne_eq, not_true_eq_false, if_false]
  rw [IStream.extractInt_of_not_good (-1) (hgood _ rfl)]

/-- A text that starts with no integer is taken for a command. -/
theorem fromStream_noToken (h : ∀ v rest, ¬ StartsWithInt text v rest) :
    (fromStream { data := text }).1 = some ⟨-1⟩ := by
  obtain ⟨hvalue, hfail⟩ := IStream.extractInt_noToken (s := { data := text }) 0 rfl h
  have htype : (readNextCommandType { data := text }).1 = CountCommand := by
    show (IStream.extractInt { data := text } 0).1 = 0
    exact hvalue.elim id id
  have hstream : (readNextCommandType { data := text }).2.fail = true := by
    show ((IStream.extractInt { data := text } 0).2.seekg 0).fail = true
    rw [IStream.seekg, if_pos hfail]
    exact hfail
  rw [fromStream]
  simp only [htype, if_true]
  exact deserialize_of_fail hstream

/-- A text that starts with an integer other than zero is rejected. -/
theorem fromStream_of_ne_zero {v : ℤ} (h : StartsWithInt text v rest) (hv : v ≠ 0) :
    (fromStream { data := text }).1 = none := by
  have htype : (readNextCommandType { data := text }).1 ≠ CountCommand := by
    show (IStream.extractInt { data := text } 0).1 ≠ 0
    by_cases hfits : ∃ r : Int32, r.toInt = v
    · obtain ⟨r, rfl⟩ := hfits
      obtain ⟨pos, -, hextract⟩ := IStream.extractInt_token (s := { data := text }) 0 rfl h
      rw [hextract]
      rintro rfl
      exact hv rfl
    · exact IStream.extractInt_overflow (s := { data := text }) 0 rfl h (not_exists.1 hfits)
  rw [fromStream]
  simp only [htype, if_false]

/-- A text that starts with zero is taken for a command, with the row index that an extraction
behind the zero leaves. -/
theorem fromStream_of_zero (h : StartsWithInt text 0 rest) :
    ∃ s : IStream, s.data.drop s.pos = rest ∧ s.eof = decide (rest = []) ∧ s.fail = false ∧
      (fromStream { data := text }).1 = some ⟨(s.extractInt (-1)).1⟩ := by
  obtain ⟨pos, hpos, hextract⟩ :=
    IStream.extractInt_token (s := { data := text }) (r := 0) 0 rfl h
  have htype : readNextCommandType { data := text } = (CountCommand, { data := text }) :=
    readNextCommandType_token rfl h
  refine ⟨{ data := text, pos := pos, eof := decide (rest = []) }, hpos, rfl, rfl, ?_⟩
  have htell : IStream.tellg { data := text } = (0, { data := text }) := rfl
  rw [fromStream]
  simp only [htype, if_true, deserialize, htell, hextract, CountCommand, ne_eq, not_true_eq_false,
    if_false]

/-- A text that spells out a command is decoded to it. -/
theorem fromStream_of_countText {rowIndex : Int32} (h : CountText text rowIndex) :
    (fromStream { data := text }).1 = some ⟨rowIndex⟩ := by
  obtain ⟨rest, rest', hzero, hrow⟩ := h
  obtain ⟨s, hahead, heof, hfail, hcommand⟩ := fromStream_of_zero hzero
  have hgood : s.good = true := by
    rw [IStream.good_iff, heof]
    exact ⟨by simp [hrow.ne_nil], hfail⟩
  obtain ⟨pos, -, hextract⟩ := IStream.extractInt_token (-1) hgood (hahead.symm ▸ hrow)
  rw [hcommand, hextract]

/-- For every text: `FromStream` returns a command exactly when the text spells it out, and null for
every other text, if and only if the text starts with an integer, and goes on with one that fits an
`int` in case the first is zero. -/
theorem fromStream_exact_iff (text : Bytes) :
    (∀ rowIndex, (fromStream { data := text }).1 = some ⟨rowIndex⟩ ↔ CountText text rowIndex) ↔
      ∃ v rest, StartsWithInt text v rest ∧
        (v = 0 → ∃ (rowIndex : Int32) (rest' : Bytes),
          StartsWithInt rest rowIndex.toInt rest') := by
  constructor
  · intro h
    by_cases htoken : ∃ v rest, StartsWithInt text v rest
    · obtain ⟨v, rest, hv⟩ := htoken
      refine ⟨v, rest, hv, ?_⟩
      rintro rfl
      obtain ⟨s, -, -, -, hcommand⟩ := fromStream_of_zero hv
      obtain ⟨rest₁, rest', hzero, hrow⟩ := (h _).1 hcommand
      obtain ⟨-, rfl⟩ := hzero.unique hv
      exact ⟨_, rest', hrow⟩
    · have hnone : ∀ v rest, ¬ StartsWithInt text v rest :=
        fun v rest hv => htoken ⟨v, rest, hv⟩
      obtain ⟨rest, -, hzero, -⟩ := (h _).1 (fromStream_noToken hnone)
      exact absurd hzero (hnone 0 rest)
  · rintro ⟨v, rest, hv, hrow⟩ rowIndex
    refine ⟨fun hcommand => ?_, fromStream_of_countText⟩
    by_cases hzero : v = 0
    · subst hzero
      obtain ⟨rowIndex', rest', hrow⟩ := hrow rfl
      have hcount : CountText text rowIndex' := ⟨rest, rest', hv, hrow⟩
      rw [fromStream_of_countText hcount, Option.some.injEq, Count.mk.injEq] at hcommand
      exact hcommand ▸ hcount
    · rw [fromStream_of_ne_zero hv hzero] at hcommand
      cases hcommand

/-- Text in front of a command, and a row index that no `int` holds, give other commands. -/
example : (fromStream { data := ascii "row 0 7" }).1 = some ⟨-1⟩ := by decide

example : (fromStream { data := ascii "0 4294967296" }).1 = some ⟨2147483647⟩ := by decide

/-- The empty text is taken for a command. -/
theorem fromStream_empty :
    (fromStream { data := [] }).1 = some ⟨-1⟩ ∧ ¬ ∃ rowIndex, CountText [] rowIndex := by
  refine ⟨by decide, ?_⟩
  rintro ⟨rowIndex, rest, rest', hzero, -⟩
  exact hzero.ne_nil rfl

end NitroCloud
