import NitroCloud.Foundations.Bytes

/-!
# Formatted integers of C++ streams

`putNat` and `putInt` are the texts that `std::ostream <<` writes for unsigned and signed integers
in base ten.  An `IStream` is the reading side of a `std::stringstream`: its characters, the get
position and the two state flags.  `extractInt` is `std::istream >> int`: it skips white space,
accumulates an optional sign and digits, sets `eofbit` when it looked at the end of the characters,
and sets `failbit` when there were no digits or the value does not fit.  `tellg` and `seekg` follow
the C++11 rules: `seekg` clears `eofbit` first and does nothing on a failed stream.

The result used by codecs is `extractInt_ahead`: a printed integer that lies ahead, after white
space and in front of a character that is no digit, is read back exactly.
-/

namespace Stream

open Bytes

/-! ## Printed integers -/

/-- `isspace` of the C locale. -/
def isSpace (b : UInt8) : Bool := (9 ≤ b && b ≤ 13) || b == 32

/-- A decimal digit. -/
def isDigit (b : UInt8) : Bool := 48 ≤ b && b ≤ 57

/-- A sign. -/
def isSign (b : UInt8) : Bool := b == 43 || b == 45

/-- The value of a string of decimal digits. -/
def digitsValue (ds : Bytes) : ℕ := ds.foldl (fun v b => 10 * v + (b.toNat - 48)) 0

/-- `std::ostream <<` of an unsigned integer. -/
def putNat (n : ℕ) : Bytes := (Nat.toDigits 10 n).map fun c => c.toNat.toUInt8

/-- `std::ostream <<` of a signed integer. -/
def putInt (v : Int) : Bytes := if v < 0 then 45 :: putNat v.natAbs else putNat v.natAbs

theorem toNat_lt_of_mem_toDigits {n : ℕ} {c : Char} (hc : c ∈ Nat.toDigits 10 n) :
    48 ≤ c.toNat ∧ c.toNat ≤ 57 := by
  have h := Char.isDigit_iff_toNat.1 (Nat.isDigit_of_mem_toDigits (by decide) (by decide) hc)
  simpa using h

theorem isDigit_of_mem_putNat {n : ℕ} {b : UInt8} (hb : b ∈ putNat n) : isDigit b = true := by
  obtain ⟨c, hc, rfl⟩ := List.mem_map.1 hb
  obtain ⟨h₁, h₂⟩ := toNat_lt_of_mem_toDigits hc
  simp only [isDigit, UInt8.le_iff_toNat_le, Nat.toUInt8, UInt8.toNat_ofNat', Bool.and_eq_true,
    decide_eq_true_eq]
  rw [Nat.mod_eq_of_lt (by omega)]
  exact ⟨h₁, h₂⟩

theorem putNat_ne_nil (n : ℕ) : putNat n ≠ [] := by
  simp [putNat, Nat.toDigits_ne_nil]

/-- The digits printed for a number have its value. -/
theorem digitsValue_putNat (n : ℕ) : digitsValue (putNat n) = n := by
  have hfold : ∀ (cs : List Char) (v : ℕ), (∀ c ∈ cs, c.toNat ≤ 57) →
      (cs.map fun c => c.toNat.toUInt8).foldl (fun v b => 10 * v + (b.toNat - 48)) v =
        Nat.ofDigitChars 10 cs v := by
    intro cs
    induction cs with
    | nil => intro v _; simp
    | cons c cs ih =>
      intro v h
      have hc : (c.toNat.toUInt8).toNat = c.toNat := by
        rw [Nat.toUInt8, UInt8.toNat_ofNat', Nat.mod_eq_of_lt]
        have := h c (by simp)
        omega
      rw [List.map_cons, List.foldl_cons, ih _ fun c hc => h c (by simp [hc]), hc,
        Nat.ofDigitChars_cons]
      rfl
  rw [digitsValue, putNat, hfold _ _ fun c hc => (toNat_lt_of_mem_toDigits hc).2,
    Nat.ofDigitChars_ten_toDigits]

theorem length_putNat_le {n k : ℕ} (hk : 0 < k) (h : n < 10 ^ k) : (putNat n).length ≤ k := by
  rw [putNat, List.length_map]
  exact (Nat.length_toDigits_le_iff (by decide) hk).2 h

/-- A printed integer is digits, with a sign in front when it is negative. -/
theorem mem_putInt {v : Int} {b : UInt8} (hb : b ∈ putInt v) : isDigit b = true ∨ b = 45 := by
  unfold putInt at hb
  split_ifs at hb
  · rcases List.mem_cons.1 hb with rfl | hb
    · exact .inr rfl
    · exact .inl (isDigit_of_mem_putNat hb)
  · exact .inl (isDigit_of_mem_putNat hb)

theorem putInt_ne_nil (v : Int) : putInt v ≠ [] := by
  unfold putInt
  split_ifs
  · exact List.cons_ne_nil _ _
  · exact putNat_ne_nil _

theorem length_putInt_le (v : Int32) : (putInt v.toInt).length ≤ 11 := by
  have h₁ := v.le_toInt
  have h₂ := v.toInt_lt
  have h : (putNat v.toInt.natAbs).length ≤ 10 := length_putNat_le (by decide) (by omega)
  unfold putInt
  split_ifs
  · rw [List.length_cons]
    omega
  · omega

/-! ## Streams -/

/-- The reading side of a string stream. -/
structure IStream where
  data : Bytes
  pos : ℕ := 0
  eof : Bool := false
  fail : Bool := false
deriving DecidableEq, Repr

namespace IStream

/-- `good()`. -/
def good (s : IStream) : Bool := !s.eof && !s.fail

theorem good_iff {s : IStream} : s.good = true ↔ s.eof = false ∧ s.fail = false := by
  simp [good]

/-- `tellg()`: the position, or `-1` on a stream that is not good; the sentry of the call sets
`failbit` there. -/
def tellg (s : IStream) : Int × IStream :=
  if s.good then (s.pos, s) else (-1, { s with fail := true })

/-- `seekg(off, std::ios_base::beg)`. -/
def seekg (s : IStream) (off : Int) : IStream :=
  if s.fail then { s with eof := false }
  else if 0 ≤ off ∧ off ≤ s.data.length then { s with eof := false, pos := off.toNat }
  else { s with eof := false, fail := true }

/-- The value that `num_get` makes of a sign and digits, and whether it succeeded: no digits give
`0`, a value that does not fit gives the nearest limit. -/
def numGet (sign ds : Bytes) : Int32 × Bool :=
  let v : Int := if sign = [45] then -(digitsValue ds : Int) else digitsValue ds
  if ds = [] then (0, false)
  else if v < Int32.minValue.toInt then (Int32.minValue, false)
  else if Int32.maxValue.toInt < v then (Int32.maxValue, false)
  else (Int32.ofInt v, true)

/-- `s >> x` for an `int x` whose value before the call is `x`. -/
def extractInt (s : IStream) (x : Int32) : Int32 × IStream :=
  -- the sentry refuses a stream that is not good, and one that ends after the white space
  if !s.good then (x, { s with fail := true })
  else
    let ahead := s.data.drop s.pos
    let spaces := ahead.takeWhile isSpace
    let field := ahead.dropWhile isSpace
    if field = [] then (x, { s with pos := s.data.length, eof := true, fail := true })
    else
      let sign := (field.take 1).takeWhile isSign
      let ds := (field.drop sign.length).takeWhile isDigit
      let rest := (field.drop sign.length).dropWhile isDigit
      let (v, ok) := numGet sign ds
      (v, { s with
        pos := s.pos + spaces.length + sign.length + ds.length
        eof := decide (rest = [])
        fail := !ok })

/-- A printed `int` is the sign and the digits that `num_get` turns back into it. -/
theorem putInt_eq (v : Int32) :
    ∃ sign ds, putInt v.toInt = sign ++ ds ∧ (∀ b ∈ ds, isDigit b = true) ∧ ds ≠ [] ∧
      (sign = [45] ∨ sign = []) ∧ numGet sign ds = (v, true) := by
  have h₁ : Int32.minValue.toInt ≤ v.toInt := v.minValue_le_toInt
  have h₂ : v.toInt ≤ Int32.maxValue.toInt := v.toInt_le
  have hget (sign : Bytes)
      (hv : (if sign = [45] then -(v.toInt.natAbs : Int) else v.toInt.natAbs) = v.toInt) :
      numGet sign (putNat v.toInt.natAbs) = (v, true) := by
    simp only [numGet, digitsValue_putNat, hv]
    rw [if_neg (putNat_ne_nil _), if_neg (by omega), if_neg (by omega), Int32.ofInt_toInt]
  by_cases hneg : v.toInt < 0
  · refine ⟨[45], putNat v.toInt.natAbs, ?_, fun b => isDigit_of_mem_putNat, putNat_ne_nil _,
      .inl rfl, hget _ ?_⟩
    · simp [putInt, hneg]
    · rw [if_pos rfl]
      omega
  · refine ⟨[], putNat v.toInt.natAbs, ?_, fun b => isDigit_of_mem_putNat, putNat_ne_nil _,
      .inr rfl, hget _ ?_⟩
    · simp [putInt, hneg]
    · rw [if_neg (by simp)]
      omega

theorem not_isSpace_of_isDigit {b : UInt8} (h : isDigit b = true) : isSpace b = false := by
  simp only [isDigit, isSpace, UInt8.le_iff_toNat_le, Bool.and_eq_true, decide_eq_true_eq] at h ⊢
  have h13 : (13 : UInt8).toNat = 13 := rfl
  have h48 : (48 : UInt8).toNat = 48 := rfl
  have h32 : b ≠ 32 := by
    rintro rfl
    exact absurd h.1 (by decide)
  simp only [Bool.or_eq_false_iff, Bool.and_eq_false_iff, decide_eq_false_iff_not,
    beq_eq_false_iff_ne]
  exact ⟨.inr (by omega), h32⟩

theorem not_isSign_of_isDigit {b : UInt8} (h : isDigit b = true) : isSign b = false := by
  by_contra hs
  simp only [isSign, Bool.not_eq_false, Bool.or_eq_true, beq_iff_eq] at hs
  rcases hs with rfl | rfl <;> exact absurd h (by decide)

theorem takeWhile_append_of_stop {α : Type*} {p : α → Bool} {as bs : List α}
    (has : ∀ b ∈ as, p b = true) (hbs : ∀ b ∈ bs.head?, p b = false) :
    (as ++ bs).takeWhile p = as := by
  rw [List.takeWhile_append_of_pos has]
  cases bs with
  | nil => simp
  | cons b bs => simp [hbs b (by simp)]

theorem dropWhile_append_of_stop {α : Type*} {p : α → Bool} {as bs : List α}
    (has : ∀ b ∈ as, p b = true) (hbs : ∀ b ∈ bs.head?, p b = false) :
    (as ++ bs).dropWhile p = bs := by
  rw [List.dropWhile_append_of_pos has]
  cases bs with
  | nil => rfl
  | cons b bs => simp [hbs b (by simp)]

/-- The first separator ends what is in front of it. -/
theorem append_cons_inj {α : Type*} [DecidableEq α] {sep : α} {as bs as' bs' : List α}
    (has : sep ∉ as) (hbs : sep ∉ bs) (h : as ++ sep :: as' = bs ++ sep :: bs') :
    as = bs ∧ as' = bs' := by
  have hne {cs : List α} (hcs : sep ∉ cs) : ∀ c ∈ cs, (c != sep) = true := by
    intro c hc
    rw [bne_iff_ne]
    rintro rfl
    exact hcs hc
  have htake := congrArg (List.takeWhile (· != sep)) h
  rw [takeWhile_append_of_stop (hne has) (by simp),
    takeWhile_append_of_stop (hne hbs) (by simp)] at htake
  subst htake
  have hcons := List.append_cancel_left h
  exact ⟨rfl, (List.cons.inj hcons).2⟩

/-- A printed `int` ahead of the position, after white space and in front of something that is no
digit, is extracted exactly; the position moves just past its last digit. -/
theorem extractInt_ahead {s : IStream} {ws rest : Bytes} (v x : Int32) (hgood : s.good = true)
    (h : s.data.drop s.pos = ws ++ (putInt v.toInt ++ rest)) (hws : ∀ b ∈ ws, isSpace b = true)
    (hrest : ∀ b ∈ rest.head?, isDigit b = false) :
    s.extractInt x = (v, { s with
      pos := s.pos + ws.length + (putInt v.toInt).length, eof := decide (rest = []) }) := by
  obtain ⟨sign, ds, hput, hds, hne, hsign, hnum⟩ := putInt_eq v
  obtain ⟨d, ds', rfl⟩ := List.exists_cons_of_ne_nil hne
  have hd : isDigit d = true := hds d (by simp)
  have hfield : ∀ b ∈ (putInt v.toInt ++ rest).head?, isSpace b = false := by
    rw [hput]
    rcases hsign with rfl | rfl
    · simp [isSpace]
    · simpa using not_isSpace_of_isDigit hd
  have htake := takeWhile_append_of_stop hws hfield
  have hdrop := dropWhile_append_of_stop hws hfield
  have hsg : ((putInt v.toInt ++ rest).take 1).takeWhile isSign = sign := by
    rw [hput]
    rcases hsign with rfl | rfl
    · simp [isSign]
    · simp [not_isSign_of_isDigit hd]
  have hfd : (putInt v.toInt ++ rest).drop sign.length = (d :: ds') ++ rest := by
    rw [hput, List.append_assoc, List.drop_left]
  have hne' : putInt v.toInt ++ rest ≠ [] := by simp [putInt_ne_nil]
  have hlen : (putInt v.toInt).length = sign.length + (d :: ds').length := by
    rw [hput, List.length_append]
  have hfail : s.fail = false := (good_iff.1 hgood).2
  simp only [extractInt, hgood, h, htake, hdrop, hsg, hfd, hnum, if_neg hne',
    takeWhile_append_of_stop hds hrest, dropWhile_append_of_stop hds hrest, Bool.not_true,
    Bool.false_eq_true, if_false, hlen, hfail, Nat.add_assoc]

theorem putInt_injective {v v' : Int32} (h : putInt v.toInt = putInt v'.toInt) : v = v' := by
  have hread (v : Int32) : (extractInt { data := putInt v.toInt } 0).1 = v := by
    have hahead : (putInt v.toInt).drop 0 = [] ++ (putInt v.toInt ++ []) := by simp
    rw [extractInt_ahead v 0 rfl hahead (by simp) (by simp)]
  rw [← hread v, h, hread v']

end IStream

end Stream
