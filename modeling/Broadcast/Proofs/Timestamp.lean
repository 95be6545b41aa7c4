import Broadcast.Proofs.Text.Numeral
import Broadcast.Timestamp
import Mathlib.Tactic.SplitIfs

/-!
# Written moments are read back

Every part of a written moment has a fixed number of digits and stands in front of a character
that is no digit, so that a reader gets the parts back one by one.
-/

namespace Broadcast.Timestamp

open Text

/-! ## Parts -/

theorem isBlank_of_isDigit {c : Char} (digit : c.isDigit = true) : isBlank c = false := by
  obtain ⟨low, high⟩ : 48 ≤ c.toNat ∧ c.toNat ≤ 57 := Char.isDigit_iff_toNat.mp digit
  refine eq_false_of_ne_true fun blank => ?_
  simp only [isBlank, Bool.or_eq_true, Bool.and_eq_true, decide_eq_true_eq, beq_iff_eq] at blank
  omega

theorem skipBlanks_cons {c : Char} (visible : isBlank c = false) (s : List Char) :
    skipBlanks (c :: s) = c :: s :=
  List.dropWhile_cons_of_neg (by simp [visible])

theorem padded_eq_cons (width n : Nat) :
    ∃ d s, (padded width n).toList = d :: s ∧ d.isDigit = true := by
  obtain ⟨d, s, written⟩ := List.exists_cons_of_ne_nil (padded_ne_nil width n)
  exact ⟨d, s, written, digits_padded width n d (by simp [written])⟩

theorem skipBlanks_padded (width n : Nat) (rest : List Char) :
    skipBlanks ((padded width n).toList ++ rest) = (padded width n).toList ++ rest := by
  obtain ⟨d, s, written, digit⟩ := padded_eq_cons width n
  rw [written, List.cons_append, skipBlanks_cons (isBlank_of_isDigit digit)]

theorem number?_padded {width n : Nat} (positive : 0 < width) (small : n < 10 ^ width)
    (rest : List Char) : number? width ((padded width n).toList ++ rest) = some (n, rest) := by
  have front : ((padded width n).toList ++ rest).take width = (padded width n).toList :=
    List.take_left' (length_padded positive small)
  have digits := List.takeWhile_eq_self_iff.mpr (digits_padded width n)
  simp only [number?, skipBlanks_padded, front, digits, if_neg (padded_ne_nil width n),
    ofDigits_padded, List.drop_left]

theorem separator?_cons {c : Char} (visible : isBlank c = false) (s : List Char) :
    separator? c (c :: s) = some s := by
  rw [separator?, skipBlanks_cons visible, behind?, if_pos rfl]

theorem fraction?_padded {width n : Nat} (positive : 0 < width) (fits : width ≤ 9)
    (small : n < 10 ^ width) (s : List Char) :
    fraction? ('.' :: (padded width n).toList ++ 'Z' :: s) =
      some (n * 10 ^ (9 - width), 'Z' :: s) := by
  have stops : StopsDigits ('Z' :: s) := by simp [StopsDigits]
  have length := length_padded positive small
  have kept : (padded width n).toList.take 9 = (padded width n).toList :=
    List.take_of_length_le (by omega)
  rw [List.cons_append, fraction?]
  simp only [takeWhile_digits (digits_padded width n) stops,
    dropWhile_digits (digits_padded width n) stops, kept, if_neg (padded_ne_nil width n),
    ofDigits_padded, length]

/-- The written fraction of a second is read back. -/
theorem fraction?_renderFraction {nano : Nat} (small : nano < 1000000000) (s : List Char) :
    fraction? ((renderFraction nano).toList ++ 'Z' :: s) = some (nano, 'Z' :: s) := by
  have dotted (t : String) : ("." ++ t).toList = '.' :: t.toList := by simp
  unfold renderFraction
  split
  · next whole =>
    subst whole
    rfl
  split
  · next thousandths =>
    rw [dotted, fraction?_padded (by decide) (by decide) (by omega)]
    congr 2
    omega
  split
  · next millionths =>
    rw [dotted, fraction?_padded (by decide) (by decide) (by omega)]
    congr 2
    omega
  · rw [dotted, fraction?_padded (by decide) (by decide) (by omega)]
    simp

theorem year?_renderYear {year : Int} (nonneg : 0 ≤ year) (small : year ≤ 9999) (s : List Char) :
    year? ((renderYear year).toList ++ s) = some (year, s) := by
  obtain ⟨d, t, written, digit⟩ := padded_eq_cons 4 year.toNat
  have unsigned {sign : Char} {rest : List Char} (other : sign.isDigit = false) :
      (padded 4 year.toNat).toList ++ s ≠ sign :: rest := by
    intro same
    rw [written] at same
    rw [(List.cons.inj same).1, other] at digit
    exact Bool.false_ne_true digit
  rw [renderYear, if_pos ⟨nonneg, small⟩, year?, skipBlanks_padded]
  split
  · next minus => exact absurd minus (unsigned rfl)
  · next plus => exact absurd plus (unsigned rfl)
  · rw [number?_padded (by decide) (by omega), Option.map_some]
    simp only [Int.toNat_of_nonneg nonneg]

/-! ## Whole moments -/

theorem ranges_of_isValid {t : Timestamp} (valid : t.isValid = true) :
    t.month < 100 ∧ t.day < 100 ∧ t.hour < 24 ∧ t.minute < 60 ∧ t.second < 100 ∧
      t.nano < 1000000000 := by
  have days : daysIn t.year t.month ≤ 31 := by
    unfold daysIn
    split_ifs <;> omega
  simp only [isValid, Bool.and_eq_true, decide_eq_true_eq] at valid
  omega

theorem ofLocal_zero {t : Timestamp} (valid : t.isValid = true) : t.ofLocal 0 = t := by
  obtain ⟨-, -, hour, minute, -⟩ := ranges_of_isValid valid
  have shown : ((t.hour * 60 + t.minute - 0 : Int) % 1440).toNat = t.hour * 60 + t.minute := by
    omega
  have hours : (t.hour * 60 + t.minute) / 60 = t.hour := by omega
  have minutes : (t.hour * 60 + t.minute) % 60 = t.minute := by omega
  simp only [ofLocal, shown, hours, minutes]
  rw [if_neg (by omega), if_neg (by omega)]

/-- A moment of a year with four digits is read back from its written form. -/
theorem parse?_render {t : Timestamp} (valid : t.isValid = true) (nonneg : 0 ≤ t.year)
    (small : t.year ≤ 9999) : parse? t.render = some t := by
  obtain ⟨month, day, hour, minute, second, nano⟩ := ranges_of_isValid valid
  have written : t.render.toList = (renderYear t.year).toList ++
      '-' :: ((padded 2 t.month).toList ++ '-' :: ((padded 2 t.day).toList ++
        'T' :: ((padded 2 t.hour).toList ++ ':' :: ((padded 2 t.minute).toList ++
          ':' :: ((padded 2 t.second).toList ++ ((renderFraction t.nano).toList ++ ['Z'])))))) := by
    simp [render]
  have two {n : Nat} (fits : n < 100) (s : List Char) :
      number? 2 ((padded 2 n).toList ++ s) = some (n, s) := number?_padded (by decide) fits s
  have universal : offset? (skipBlanks ['Z']) = some (0, []) := rfl
  rw [parse?, written]
  -- The parts come off the text one by one; nested binds are too much for a single `simp`.
  refine Option.bind_eq_some_iff.mpr ⟨_, year?_renderYear nonneg small _, ?_⟩
  refine Option.bind_eq_some_iff.mpr ⟨_, separator?_cons rfl _, ?_⟩
  refine Option.bind_eq_some_iff.mpr ⟨_, two month _, ?_⟩
  refine Option.bind_eq_some_iff.mpr ⟨_, separator?_cons rfl _, ?_⟩
  refine Option.bind_eq_some_iff.mpr ⟨_, two day _, ?_⟩
  refine Option.bind_eq_some_iff.mpr ⟨_, rfl, ?_⟩
  refine Option.bind_eq_some_iff.mpr ⟨_, two (by omega) _, ?_⟩
  refine Option.bind_eq_some_iff.mpr ⟨_, separator?_cons rfl _, ?_⟩
  refine Option.bind_eq_some_iff.mpr ⟨_, two (by omega) _, ?_⟩
  refine Option.bind_eq_some_iff.mpr ⟨_, separator?_cons rfl _, ?_⟩
  refine Option.bind_eq_some_iff.mpr ⟨_, two second _, ?_⟩
  refine Option.bind_eq_some_iff.mpr ⟨_, fraction?_renderFraction nano _, ?_⟩
  refine Option.bind_eq_some_iff.mpr ⟨_, universal, ?_⟩
  have whole : ¬(¬t.isValid = true ∨ skipBlanks [] ≠ []) := by simp [valid, skipBlanks]
  change (if ¬t.isValid = true ∨ skipBlanks [] ≠ [] then none else
    if (t.ofLocal 0).isValid = true then some (t.ofLocal 0) else none) = some t
  rw [if_neg whole, ofLocal_zero valid, if_pos valid]

end Broadcast.Timestamp
