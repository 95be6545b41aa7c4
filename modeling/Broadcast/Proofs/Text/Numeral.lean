import Broadcast.Text.Numeral
import Mathlib.Data.List.TakeWhile

/-!
# Reading written numerals

The decimal digits of a number denote it, also behind zeros, and they start with zero only for
zero itself. A reader that takes digits off the front of a text gets a written numeral back if the
text does not go on with a digit, as with a run of any class of characters.
-/

namespace Broadcast.Text

section Runs

variable {isIn : Char → Bool} {run rest : List Char}

theorem takeWhile_run (all : ∀ c ∈ run, isIn c = true) (stops : ∀ c ∈ rest.head?, isIn c = false) :
    (run ++ rest).takeWhile isIn = run := by
  have none_left : rest.takeWhile isIn = [] := by
    cases rest with
    | nil => rfl
    | cons c rest => exact List.takeWhile_cons_of_neg (by simp [stops c rfl])
  rw [List.takeWhile_append_of_pos all, none_left, List.append_nil]

theorem dropWhile_of_stops (stops : ∀ c ∈ rest.head?, isIn c = false) :
    rest.dropWhile isIn = rest := by
  cases rest with
  | nil => rfl
  | cons c rest => exact List.dropWhile_cons_of_neg (by simp [stops c rfl])

theorem dropWhile_run (all : ∀ c ∈ run, isIn c = true) (stops : ∀ c ∈ rest.head?, isIn c = false) :
    (run ++ rest).dropWhile isIn = rest := by
  rw [List.dropWhile_append_of_pos all, dropWhile_of_stops stops]

end Runs

/-- All characters of a run are digits. -/
def Digits (s : List Char) : Prop := ∀ c ∈ s, c.isDigit = true

/-- A text does not start with a digit. -/
def StopsDigits (s : List Char) : Prop := ∀ c ∈ s.head?, c.isDigit = false

theorem digits_toDigits (n : Nat) : Digits (Nat.toDigits 10 n) :=
  fun _ => Nat.isDigit_of_mem_toDigits (by decide) (by decide)

theorem takeWhile_digits {s rest : List Char} (digits : Digits s) (stops : StopsDigits rest) :
    (s ++ rest).takeWhile Char.isDigit = s :=
  takeWhile_run digits stops

theorem dropWhile_digits {s rest : List Char} (digits : Digits s) (stops : StopsDigits rest) :
    (s ++ rest).dropWhile Char.isDigit = rest :=
  dropWhile_run digits stops

theorem ofDigits_eq_ofDigitChars (s : List Char) : ofDigits s = Nat.ofDigitChars 10 s 0 := by
  simp only [ofDigits, digitValue, Nat.ofDigitChars_eq_foldl, Nat.mul_comm 10]

theorem ofDigits_toDigits (n : Nat) : ofDigits (Nat.toDigits 10 n) = n := by
  rw [ofDigits_eq_ofDigitChars, Nat.ofDigitChars_ten_toDigits]

theorem toDigits_eq_cons (n : Nat) :
    ∃ d s, Nat.toDigits 10 n = d :: s ∧ d.isDigit = true ∧ (0 < n → d ≠ '0') := by
  induction n using Nat.strong_induction_on with
  | h n ih =>
      rw [Nat.toDigits_eq_if (by decide)]
      split
      · next small =>
        exact ⟨_, [], rfl, by rw [Nat.isDigit_digitChar, decide_eq_true small],
          fun positive zero => positive.ne' (Nat.digitChar_eq_zero.1 zero)⟩
      · obtain ⟨d, s, front, digit, nonzero⟩ := ih (n / 10) (by omega)
        exact ⟨d, s ++ _, by rw [front, List.cons_append], digit,
          fun _ => nonzero (by omega)⟩

/-! ## Written integers -/

/-- The characters of an integer: its digits, behind a sign if it is negative. -/
theorem toList_toString (z : Int) :
    (toString z).toList = Nat.toDigits 10 z.natAbs ∧ 0 ≤ z ∨
      (toString z).toList = '-' :: Nat.toDigits 10 z.natAbs ∧ z < 0 := by
  cases z with
  | ofNat n =>
      have written : toString (Int.ofNat n) = String.ofList (Nat.toDigits 10 n) :=
        Nat.repr_eq_ofList_toDigits
      exact .inl ⟨by rw [written, String.toList_ofList]; rfl, Int.natCast_nonneg n⟩
  | negSucc n =>
      have written : toString (Int.negSucc n) = "-" ++ String.ofList (Nat.toDigits 10 (n + 1)) :=
        congrArg ("-" ++ ·) Nat.repr_eq_ofList_toDigits
      exact .inr ⟨by simp [written], Int.negSucc_lt_zero n⟩

/-- The first character of a number. -/
def StartsNumber (c : Char) : Prop :=
  c.isDigit = true ∨ c = '-'

theorem toString_eq_cons (z : Int) :
    ∃ c s, (toString z).toList = c :: s ∧ StartsNumber c := by
  obtain ⟨d, s, front, digit, -⟩ := toDigits_eq_cons z.natAbs
  rcases toList_toString z with ⟨written, -⟩ | ⟨written, -⟩
  · exact ⟨d, s, written.trans front, .inl digit⟩
  · exact ⟨'-', _, written, .inr rfl⟩

/-! ## Numerals with a sign -/

/-- A text is a numeral of a number: a run of digits that denotes it. -/
structure Numeral (s : List Char) (n : Nat) : Prop where
  nonempty : s ≠ []
  digits : Digits s
  value : ofDigits s = n

/-- A text is a numeral of a number, with at most one plus sign in front. -/
def UnsignedNumeral (s : List Char) (n : Nat) : Prop :=
  Numeral s n ∨ ∃ digits, s = '+' :: digits ∧ Numeral digits n

/-- A text is a numeral of an integer, with at most one sign in front. -/
def SignedNumeral (s : List Char) (z : Int) : Prop :=
  (∃ n : Nat, UnsignedNumeral s n ∧ z = n) ∨
    ∃ digits, ∃ n : Nat, s = '-' :: digits ∧ Numeral digits n ∧ z = -n

theorem Numeral.isDigit_head {c : Char} {s : List Char} {n : Nat} (numeral : Numeral (c :: s) n) :
    c.isDigit = true :=
  numeral.digits c List.mem_cons_self

theorem natural?_eq_some_iff {s : List Char} {n : Nat} : natural? s = some n ↔ Numeral s n := by
  rw [natural?]
  constructor
  · intro read
    split_ifs at read with run
    exact ⟨run.1, List.all_eq_true.mp run.2, Option.some.inj read⟩
  · rintro ⟨nonempty, digits, rfl⟩
    exact if_pos ⟨nonempty, List.all_eq_true.mpr digits⟩

/-- Numbers are read from the numerals with at most one plus sign. -/
theorem unsigned?_eq_some_iff {s : List Char} {n : Nat} :
    unsigned? s = some n ↔ UnsignedNumeral s n := by
  unfold unsigned?
  split
  next digits =>
    rw [natural?_eq_some_iff]
    constructor
    · exact fun numeral => .inr ⟨digits, rfl, numeral⟩
    · rintro (numeral | ⟨_, same, numeral⟩)
      · exact absurd numeral.isDigit_head (by decide)
      · rwa [(List.cons.inj same).2]
  next unsigned =>
    rw [natural?_eq_some_iff]
    exact ⟨.inl, fun numeral => numeral.resolve_right fun ⟨_, plus, _⟩ => unsigned _ plus⟩

theorem toList_padded (width n : Nat) :
    (padded width n).toList =
      List.replicate (width - (Nat.toDigits 10 n).length) '0' ++ Nat.toDigits 10 n := by
  simp only [padded, String.toList_append, String.toList_ofList, ← String.length_toList,
    Nat.toString_eq_ofList_toDigits]

theorem digits_padded (width n : Nat) : Digits (padded width n).toList := by
  intro c mem
  rw [toList_padded, List.mem_append] at mem
  rcases mem with zero | digit
  · rw [List.eq_of_mem_replicate zero]
    rfl
  · exact digits_toDigits n c digit

theorem ofDigits_padded (width n : Nat) : ofDigits (padded width n).toList = n := by
  rw [ofDigits_eq_ofDigitChars, toList_padded, Nat.ofDigitChars_append,
    Nat.ofDigitChars_replicate_zero, Nat.mul_zero, Nat.ofDigitChars_ten_toDigits]

theorem length_padded {width n : Nat} (positive : 0 < width) (small : n < 10 ^ width) :
    (padded width n).toList.length = width := by
  have fits : (Nat.toDigits 10 n).length ≤ width :=
    (Nat.length_toDigits_le_iff (by decide) positive).2 small
  rw [toList_padded, List.length_append, List.length_replicate]
  omega

theorem padded_ne_nil (width n : Nat) : (padded width n).toList ≠ [] := by
  simp [toList_padded, Nat.toDigits_ne_nil]

end Broadcast.Text
