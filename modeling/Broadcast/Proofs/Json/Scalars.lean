import Broadcast.Json.Reader
import Broadcast.Json.Writer
import Broadcast.Proofs.Text.Numeral

/-!
# Texts and integers in JSON

What the writer makes of a text reads as this text, whatever stands behind the closing quotation
mark. What it makes of an integer reads as this integer if the text does not go on as a number.
-/

namespace Broadcast.Json

open Text

/-! ## Texts -/

theorem hexValue?_hexDigit : ∀ n < 16, hexValue? (hexDigit n) = some n := by
  decide

theorem hex4?_hexDigit {n : Nat} (small : n < 256) :
    hex4? '0' '0' (hexDigit (n / 16)) (hexDigit (n % 16)) = some n := by
  have zero : hexValue? '0' = some 0 := rfl
  have whole : ((0 * 16 + 0) * 16 + n / 16) * 16 + n % 16 = n := by omega
  simp only [hex4?, zero, hexValue?_hexDigit _ (by omega : n / 16 < 16),
    hexValue?_hexDigit _ (by omega : n % 16 < 16), Option.bind_eq_bind, Option.bind_some, whole]

/-- The piece that a written character reads as: its number if the writer spells it out. -/
def pieceOf (c : Char) : Piece :=
  if c.toNat < 32 ∧ c ∉ ['\n', '\r', '\t', '\x08', '\x0c'] then .unit c.toNat else .char c

theorem pieces?_escaped (c : Char) (s : List Char) :
    pieces? (escaped c ++ s) = (pieces? s).map fun (pieces, s) => (pieceOf c :: pieces, s) := by
  have goOn (p : Piece) : (do let (pieces, s) ← pieces? s; some (p :: pieces, s)) =
      (pieces? s).map fun (pieces, s) => (p :: pieces, s) := by
    cases pieces? s <;> rfl
  by_cases short : c ∈ ['"', '\\', '\n', '\r', '\t', '\x08', '\x0c']
  · simp only [List.mem_cons, List.not_mem_nil, or_false] at short
    rcases short with rfl | rfl | rfl | rfl | rfl | rfl | rfl <;> exact goOn (.char _)
  · simp only [List.mem_cons, List.not_mem_nil, or_false, not_or] at short
    obtain ⟨quote, slash, line, carriage, tab, back, form⟩ := short
    by_cases small : c.toNat < 32
    · have spelled : pieceOf c = .unit c.toNat :=
        if_pos ⟨small, by simp [line, carriage, tab, back, form]⟩
      have digits := hex4?_hexDigit (by omega : c.toNat < 256)
      rw [spelled, ← goOn]
      simp [escaped, quote, slash, line, carriage, tab, back, form, small, pieces?, digits]
    · have kept : pieceOf c = .char c := if_neg fun spelled => small spelled.1
      rw [kept, ← goOn]
      simp [escaped, quote, slash, line, carriage, tab, back, form, small, pieces?]

theorem joined?_unit {n : Nat} (small : n < 32) (pieces : List Piece) :
    joined? (.unit n :: pieces) = (joined? pieces).map (Char.ofNat n :: ·) := by
  have high : isHighSurrogate n = false := by
    rw [isHighSurrogate, Bool.and_eq_false_iff, decide_eq_false_iff_not]
    exact .inl (by omega)
  have low : isLowSurrogate n = false := by
    rw [isLowSurrogate, Bool.and_eq_false_iff, decide_eq_false_iff_not]
    exact .inl (by omega)
  rw [joined?.eq_def]
  simp [high, low]

theorem joined?_pieceOf (c : Char) (pieces : List Piece) :
    joined? (pieceOf c :: pieces) = (joined? pieces).map (c :: ·) := by
  rw [pieceOf]
  split
  · next spelled => rw [joined?_unit spelled.1, Char.ofNat_toNat]
  · rfl

/-- A written text reads as its own pieces. -/
theorem pieces?_flatMap_escaped (s rest : List Char) :
    pieces? (s.flatMap escaped ++ '"' :: rest) = some (s.map pieceOf, rest) := by
  induction s with
  | nil => rfl
  | cons c s ih =>
      rw [List.flatMap_cons, List.append_assoc, pieces?_escaped, ih]
      rfl

theorem joined?_map_pieceOf (s : List Char) : joined? (s.map pieceOf) = some s := by
  induction s with
  | nil => rfl
  | cons c s ih =>
      rw [List.map_cons, joined?_pieceOf, ih]
      rfl

/-! ## Integers -/

/-- A text does not go on as a number. -/
def EndsNumber (s : List Char) : Prop :=
  ∀ c ∈ s.head?, c.isDigit = false ∧ c ∉ ['.', 'e', 'E']

theorem EndsNumber.stops {s : List Char} (ends : EndsNumber s) : StopsDigits s :=
  fun c head => (ends c head).1

theorem endsNumber_cons {c : Char} (s : List Char)
    (ends : c.isDigit = false ∧ c ∉ ['.', 'e', 'E']) : EndsNumber (c :: s) := by
  rintro _ ⟨⟩
  exact ends

theorem digits?_of_stops {s rest : List Char} (some_digit : s ≠ []) (digits : Digits s)
    (stops : StopsDigits rest) : digits? (s ++ rest) = some (s, rest) := by
  rw [digits?, takeWhile_digits digits stops, dropWhile_digits digits stops, if_neg some_digit]

theorem whole?_toDigits (n : Nat) {rest : List Char} (stops : StopsDigits rest) :
    whole? (Nat.toDigits 10 n ++ rest) = some (Nat.toDigits 10 n, rest) := by
  by_cases zero : n = 0
  · subst zero
    cases rest with
    | nil => rfl
    | cons c rest => simp [whole?, stops c rfl]
  · obtain ⟨d, s, written, -, nonzero⟩ := toDigits_eq_cons n
    rw [whole?]
    · exact digits?_of_stops Nat.toDigits_ne_nil (digits_toDigits n) stops
    · rintro s' same
      rw [written] at same
      exact nonzero (Nat.pos_of_ne_zero zero) (List.cons.inj same).1

theorem fraction?_of_ends {s : List Char} (ends : EndsNumber s) : fraction? s = some ([], s) := by
  unfold fraction?
  split
  · exact absurd (ends _ rfl).2 (by simp)
  · rfl

theorem exponent?_of_ends {s : List Char} (ends : EndsNumber s) : exponent? s = some ([], s) := by
  have letter (c : Char) (head : c ∈ s.head?) : ¬(c = 'e' ∨ c = 'E') := by
    have other := (ends c head).2
    simp_all
  unfold exponent?
  split
  · rw [if_neg (letter _ rfl)]
  · rw [if_neg (letter _ rfl)]
  · rfl

theorem number?_toDigits (n : Nat) {rest : List Char} (ends : EndsNumber rest) :
    number? (Nat.toDigits 10 n ++ rest) = some (.int n, rest) := by
  rw [number?]
  · simp [whole?_toDigits n ends.stops, fraction?_of_ends ends, exponent?_of_ends ends,
      ofDigits_toDigits]
  · rintro s same
    obtain ⟨d, t, written, digit, -⟩ := toDigits_eq_cons n
    rw [written] at same
    rw [(List.cons.inj same).1] at digit
    exact absurd digit (by decide)

theorem number?_minus_toDigits {n : Nat} (positive : 0 < n) {rest : List Char}
    (ends : EndsNumber rest) :
    number? ('-' :: Nat.toDigits 10 n ++ rest) = some (.int (-n), rest) := by
  rw [List.cons_append, number?]
  simp [whole?_toDigits n ends.stops, fraction?_of_ends ends, exponent?_of_ends ends,
      ofDigits_toDigits, positive.ne']

theorem number?_toString (z : Int) {rest : List Char} (ends : EndsNumber rest) :
    number? ((toString z).toList ++ rest) = some (.int z, rest) := by
  rcases toList_toString z with ⟨written, positive⟩ | ⟨written, negative⟩
  · rw [written, number?_toDigits _ ends, Int.natAbs_of_nonneg positive]
  · rw [written, number?_minus_toDigits (by omega) ends, Int.ofNat_natAbs_of_nonpos (by omega),
      Int.neg_neg]

end Broadcast.Json
