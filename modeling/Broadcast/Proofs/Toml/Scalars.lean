import Broadcast.Proofs.Json.Scalars
import Broadcast.Toml.Value

/-!
# Texts and integers in TOML

A text that is written between quotation marks reads as this text, and an integer that is written
up to the end of a line reads as this integer, or as nothing if it has no word of 64 bits. No
integer is taken for a date, a time or a number with a fraction.
-/

namespace Broadcast.Toml

open Text

/-! ## Texts -/

/-- A character inside a written text. -/
def escaped (c : Char) : List Char :=
  if c = '"' then ['\\', '"']
  else if c = '\\' then ['\\', '\\']
  else if isPlain c then [c]
  else ['\\', 'u', '0', '0', Json.hexDigit (c.toNat / 16), Json.hexDigit (c.toNat % 16)]

/-- A text between quotation marks. -/
def quoted (s : String) : List Char :=
  '"' :: s.toList.flatMap escaped ++ ['"']

theorem hexValue?_hexDigit : ∀ n < 16, hexValue? (Json.hexDigit n) = some n := by
  decide

theorem charOfHex?_hexDigit {n : Nat} (small : n < 128) :
    charOfHex? ['0', '0', Json.hexDigit (n / 16), Json.hexDigit (n % 16)] =
      some (Char.ofNat n) := by
  have zero : hexValue? '0' = some 0 := rfl
  have whole : n / 16 * 16 + n % 16 = n := Nat.div_add_mod' n 16
  have valid : n.isValidChar := .inl (by omega)
  simp [charOfHex?, zero, hexValue?_hexDigit _ (by omega : n / 16 < 16),
    hexValue?_hexDigit _ (by omega : n % 16 < 16), whole, valid]

theorem basic?_escaped (c : Char) (s : List Char) :
    basic? (escaped c ++ s) = push c (basic? s) := by
  by_cases quote : c = '"'
  · subst quote
    rfl
  by_cases slash : c = '\\'
  · subst slash
    rfl
  cases plain : isPlain c with
  | true => simp [escaped, quote, slash, plain, basic?]
  | false =>
      have small : c.toNat < 128 := by
        simp only [isPlain, Bool.or_eq_false_iff, Bool.and_eq_false_iff,
          decide_eq_false_iff_not] at plain
        omega
      simp [escaped, quote, slash, plain, basic?, charOfHex?_hexDigit small]

theorem basic?_flatMap_escaped (s rest : List Char) :
    basic? (s.flatMap escaped ++ '"' :: rest) = some (s, rest) := by
  induction s with
  | nil => rfl
  | cons c s ih =>
      rw [List.flatMap_cons, List.append_assoc, basic?_escaped, ih]
      rfl

theorem escaped_eq_cons (c : Char) : ∃ d s, escaped c = d :: s ∧ d ≠ '"' := by
  unfold escaped
  split_ifs with quote slash plain
  · exact ⟨_, _, rfl, by decide⟩
  · exact ⟨_, _, rfl, by decide⟩
  · exact ⟨_, _, rfl, quote⟩
  · exact ⟨_, _, rfl, by decide⟩

/-- A written text is not one of those that run over several lines: if it is empty, the line has
to end behind it. -/
theorem text?_quoted (s : String) (rest : List Char) :
    text? (quoted s ++ '\n' :: rest) = some (s.toList, '\n' :: rest) := by
  have line : text? (quoted s ++ '\n' :: rest) = lineText? (quoted s ++ '\n' :: rest) := by
    unfold text?
    split
    next s' same =>
      cases written : s.toList with
      | nil => simp [quoted, written] at same
      | cons c t =>
          obtain ⟨d, u, front, other⟩ := escaped_eq_cons c
          simp [quoted, written, front, other] at same
    next s' same => simp [quoted] at same
    next => rfl
  rw [line, quoted, List.cons_append, List.cons_append, List.append_assoc]
  exact basic?_flatMap_escaped _ _

/-! ## Integers -/

/-- An integer up to the end of its line. -/
def integerLine (z : Int) (rest : List Char) : List Char :=
  (toString z).toList ++ '\n' :: rest

theorem integerLine_of_nonneg {z : Int} (nonneg : 0 ≤ z) (rest : List Char) :
    integerLine z rest = Nat.toDigits 10 z.natAbs ++ '\n' :: rest := by
  rcases toList_toString z with ⟨written, -⟩ | ⟨-, negative⟩
  · rw [integerLine, written]
  · omega

theorem integerLine_of_neg {z : Int} (negative : z < 0) (rest : List Char) :
    integerLine z rest = '-' :: (Nat.toDigits 10 z.natAbs ++ '\n' :: rest) := by
  rcases toList_toString z with ⟨-, nonneg⟩ | ⟨written, -⟩
  · omega
  · rw [integerLine, written, List.cons_append]

theorem digitRun?_digits {s : List Char} (some_digit : s ≠ []) (digits : Digits s)
    (rest : List Char) : digitRun? Char.isDigit (s ++ '\n' :: rest) = some (s, '\n' :: rest) := by
  induction s with
  | nil => contradiction
  | cons c s ih =>
      have first := digits c List.mem_cons_self
      cases s with
      | nil => simp [digitRun?, first]
      | cons d s =>
          have second := digits d (.tail c List.mem_cons_self)
          have other : d ≠ '_' := by
            rintro rfl
            exact absurd second (by decide)
          have more := ih (List.cons_ne_nil d s) fun e member => digits e (.tail c member)
          rw [List.cons_append] at more
          simp [digitRun?, first, second, more, push]

theorem decimal?_toDigits (n : Nat) (rest : List Char) :
    decimal? (Nat.toDigits 10 n ++ '\n' :: rest) =
      some (Nat.toDigits 10 n, '\n' :: rest) := by
  by_cases zero : n = 0
  · subst zero
    rfl
  · obtain ⟨d, s, written, -, nonzero⟩ := toDigits_eq_cons n
    have run := digitRun?_digits Nat.toDigits_ne_nil (digits_toDigits n) rest
    rw [written] at run ⊢
    rw [List.cons_append, decimal?, ← List.cons_append, run]
    rintro s' same
    exact nonzero (Nat.pos_of_ne_zero zero) (List.cons.inj same).1

theorem sign_integerLine (z : Int) (rest : List Char) :
    sign (integerLine z rest) =
      (if z < 0 then some '-' else none, Nat.toDigits 10 z.natAbs ++ '\n' :: rest) := by
  by_cases negative : z < 0
  · rw [integerLine_of_neg negative, if_pos negative]
    rfl
  · obtain ⟨d, s, written, digit, -⟩ := toDigits_eq_cons z.natAbs
    rw [integerLine_of_nonneg (by omega), if_neg negative, written, List.cons_append]
    unfold sign
    split
    next plus => exact absurd ((List.cons.inj plus).1 ▸ digit) (by decide)
    next minus => exact absurd ((List.cons.inj minus).1 ▸ digit) (by decide)
    next => rfl

theorem decimalFloat?_integerLine (z : Int) (rest : List Char) :
    decimalFloat? (integerLine z rest) = none := by
  have fraction : fraction? ('\n' :: rest) = none := rfl
  have exponent : exponent? ('\n' :: rest) = none := rfl
  simp [decimalFloat?, sign_integerLine, decimal?_toDigits, fraction, exponent]

theorem specialFloat?_integerLine (z : Int) (rest : List Char) :
    specialFloat? (integerLine z rest) = none := by
  obtain ⟨d, s, written, digit, -⟩ := toDigits_eq_cons z.natAbs
  simp only [specialFloat?, sign_integerLine, written, List.cons_append]
  split
  next i => exact absurd ((List.cons.inj i).1 ▸ digit) (by decide)
  next n => exact absurd ((List.cons.inj n).1 ▸ digit) (by decide)
  next => rfl

theorem getElem?_integerLine {z : Int} {rest : List Char} {i : Nat} (positive : 0 < i)
    (before : ∀ j < i, ∃ d, (integerLine z rest)[j]? = some d ∧ d.isDigit = true) :
    ∃ c, (integerLine z rest)[i]? = some c ∧ (c.isDigit = true ∨ c = '\n') := by
  by_cases negative : z < 0
  · obtain ⟨d, front, digit⟩ := before 0 positive
    rw [integerLine_of_neg negative, List.getElem?_cons_zero] at front
    rw [← Option.some.inj front] at digit
    exact absurd digit (by decide)
  · rw [integerLine_of_nonneg (by omega)] at before ⊢
    rcases Nat.lt_trichotomy i (Nat.toDigits 10 z.natAbs).length with inside | same | beyond
    · refine ⟨_, ?_, .inl (digits_toDigits z.natAbs _ (List.getElem_mem inside))⟩
      rw [List.getElem?_append_left inside, List.getElem?_eq_getElem inside]
    · refine ⟨'\n', ?_, .inr rfl⟩
      rw [List.getElem?_append_right same.ge, same, Nat.sub_self, List.getElem?_cons_zero]
    · obtain ⟨d, stop, digit⟩ := before _ beyond
      rw [List.getElem?_append_right (Nat.le_refl _), Nat.sub_self, List.getElem?_cons_zero] at stop
      rw [← Option.some.inj stop] at digit
      exact absurd digit (by decide)

theorem getElem?_integerLine_ne {z : Int} {rest : List Char} {i : Nat} (positive : 0 < i)
    (before : ∀ j < i, ∃ d, (integerLine z rest)[j]? = some d ∧ d.isDigit = true) {mark : Char}
    (foreign : mark.isDigit = false ∧ mark ≠ '\n') : (integerLine z rest)[i]? ≠ some mark := by
  obtain ⟨c, there, digit | line⟩ := getElem?_integerLine positive before
  · rintro same
    rw [Option.some.inj (there.symm.trans same), foreign.1] at digit
    cases digit
  · rintro same
    exact foreign.2 ((Option.some.inj (there.symm.trans same)).symm.trans line)

theorem behind?_eq_some {c : Char} {s rest : List Char} (found : behind? c s = some rest) :
    s = c :: rest := by
  cases s with
  | nil => cases found
  | cons d s =>
      rw [behind?] at found
      split_ifs at found with same
      rw [same, Option.some.inj found]

theorem day?_eq_some {s rest : List Char} (found : day? s = some rest) :
    (∀ j < 4, ∃ d, s[j]? = some d ∧ d.isDigit = true) ∧ s[4]? = some '-' := by
  unfold day? at found
  simp only at found
  split_ifs at found with wrong
  · cases found
  · simp only [Option.bind_eq_bind, Option.bind_eq_some_iff] at found
    obtain ⟨month, ⟨t, dash, -⟩, -⟩ := found
    obtain ⟨four, digits⟩ := not_or.mp wrong
    replace digits := List.all_eq_true.mp (not_not.mp digits)
    constructor
    · intro j small
      have inYear : j < (s.take 4).length := by omega
      refine ⟨(s.take 4)[j], ?_, digits _ (List.getElem_mem inYear)⟩
      rw [← List.getElem?_take_of_lt small, List.getElem?_eq_getElem inYear]
    · have fifth : (s.drop 4)[0]? = some '-' := by rw [behind?_eq_some dash]; rfl
      simpa using fifth

theorem time?_eq_some {s rest : List Char} (found : time? s = some rest) :
    (∀ j < 2, ∃ d, s[j]? = some d ∧ d.isDigit = true) ∧ s[2]? = some ':' := by
  simp only [time?, Option.bind_eq_bind, Option.bind_eq_some_iff] at found
  obtain ⟨hour, first, minute, ⟨t, colon, -⟩, -⟩ := found
  unfold twoDigits? at first
  split at first
  next a b u =>
    simp only at first
    split_ifs at first with digits
    obtain rfl := Option.some.inj first
    obtain rfl := behind?_eq_some colon
    refine ⟨fun j small => ?_, rfl⟩
    obtain rfl | rfl : j = 0 ∨ j = 1 := by omega
    · exact ⟨a, rfl, digits.1⟩
    · exact ⟨b, rfl, digits.2.1⟩
  next => cases first

theorem date?_integerLine (z : Int) (rest : List Char) : date? (integerLine z rest) = none := by
  have day : day? (integerLine z rest) = none := by
    rw [Option.eq_none_iff_forall_ne_some]
    intro t found
    obtain ⟨digits, dash⟩ := day?_eq_some found
    exact getElem?_integerLine_ne (by decide) digits (by decide) dash
  have time : time? (integerLine z rest) = none := by
    rw [Option.eq_none_iff_forall_ne_some]
    intro t found
    obtain ⟨digits, colon⟩ := time?_eq_some found
    exact getElem?_integerLine_ne (by decide) digits (by decide) colon
  simp [date?, day, time]

theorem integerLine_ne_zero_cons {z : Int} {rest s : List Char} {c : Char} (letter : c ≠ '\n') :
    integerLine z rest ≠ '0' :: c :: s := by
  intro same
  by_cases negative : z < 0
  · rw [integerLine_of_neg negative] at same
    exact absurd (List.cons.inj same).1 (by decide)
  · rw [integerLine_of_nonneg (by omega)] at same
    by_cases zero : z.natAbs = 0
    · rw [zero] at same
      exact letter (List.cons.inj (List.cons.inj same).2).1.symm
    · obtain ⟨d, s, written, -, nonzero⟩ := toDigits_eq_cons z.natAbs
      rw [written] at same
      exact nonzero (Nat.pos_of_ne_zero zero) (List.cons.inj same).1

theorem integer?_integerLine (z : Int) (rest : List Char) :
    integer? (integerLine z rest) = (int64? z).map (·, '\n' :: rest) := by
  rw [integer?]
  · have magnitude : (if (if z < 0 then some '-' else none) = some '-' then -(z.natAbs : Int)
        else z.natAbs) = z := by
      by_cases negative : z < 0
      · rw [if_pos negative, if_pos rfl]
        omega
      · rw [if_neg negative, if_neg nofun]
        omega
    simp only [sign_integerLine, decimal?_toDigits, ofDigits_toDigits, Option.bind_eq_bind,
      Option.bind_some, magnitude, Option.map_eq_bind]
    rfl
  all_goals exact fun s same => integerLine_ne_zero_cons (by decide) same

/-- An integer is read from its line if it has a word, and else nothing is. -/
theorem number?_integerLine (z : Int) (rest : List Char) :
    number? (integerLine z rest) = (int64? z).map (·, '\n' :: rest) := by
  simp only [number?, date?_integerLine, decimalFloat?_integerLine, specialFloat?_integerLine,
    integer?_integerLine]
  rfl

/-! ## Values -/

theorem value?_quoted (fuel depth : Nat) (s : String) (rest : List Char) :
    value? (fuel + 1) depth (quoted s ++ '\n' :: rest) = some (.text s, '\n' :: rest) := by
  have read := text?_quoted s rest
  rw [quoted, List.cons_append] at read ⊢
  rw [List.cons_append] at read ⊢
  simp only [value?, read, Option.map_some, String.ofList_toList]

theorem value?_integerLine (fuel depth : Nat) (z : Int) (rest : List Char) :
    value? (fuel + 1) depth (integerLine z rest) = (int64? z).map (·, '\n' :: rest) := by
  obtain ⟨c, s, written, starts⟩ := toString_eq_cons z
  have number := number?_integerLine z rest
  rw [integerLine, written, List.cons_append] at number ⊢
  have other : c ∉ ['"', '\'', '[', '\x7b', 't', 'f'] := by
    intro member
    simp only [List.mem_cons, List.not_mem_nil, or_false] at member
    rcases member with rfl | rfl | rfl | rfl | rfl | rfl <;>
      exact absurd starts (by simp [StartsNumber])
  simp only [List.mem_cons, List.not_mem_nil, or_false, not_or] at other
  simp [value?, other, number]

end Broadcast.Toml
