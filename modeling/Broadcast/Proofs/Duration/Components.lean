import Broadcast.Duration.Reading
import Broadcast.Proofs.Text.Numeral
import Mathlib.Data.List.TakeWhile

/-!
# The components of a length of time

A text denotes a length of time if it is a bare zero or consists of components, each a number and a
unit; and then only a sum out of range keeps it from doing so. No character of a number can stand in
a unit, so the components are found from the left, one a turn.
-/

namespace Broadcast.Duration

open Text

/-! ## Components -/

/-- A number has digits and dots, at least one of the former and at most one of the latter. -/
structure IsNumber (s : List Char) : Prop where
  chars : ∀ c ∈ s, c.isDigit = true ∨ c = '.'
  dots : s.count '.' ≤ 1
  digit : ∃ c ∈ s, c.isDigit = true

/-- The digits of a number. -/
def digits (s : List Char) : List Char :=
  s.filter (· ≠ '.')

/-- How many digits of a number stand behind its dot. -/
def places (s : List Char) : Nat :=
  (s.dropWhile (· ≠ '.')).length - 1

/-- The units with their nanoseconds. -/
def units : List (String × Nat) :=
  [("ns", 1), ("us", 1000), ("µs", 1000), ("ms", 1000000), ("s", 1000000000),
   ("m", 60 * 1000000000), ("h", 3600 * 1000000000)]

/-- A number with a unit behind it. -/
structure Component where
  number : List Char
  unit : String × Nat
  isNumber : IsNumber number
  isUnit : unit ∈ units

/-- The text of a component. -/
def Component.text (c : Component) : List Char :=
  c.number ++ c.unit.1.toList

/-- The nanoseconds of a component: those of its unit as often as its number says. -/
def Component.amount (c : Component) : Binary64 :=
  (Binary64.ofRatio (ofDigits (digits c.number)) (10 ^ places c.number)).scale c.unit.2

/-- The nanoseconds of components, summed up from the left. -/
def sumOnto (total : Binary64) (cs : List Component) : Binary64 :=
  cs.foldl (fun total c => total.add c.amount) total

/-! ## Numbers and units -/

theorem isNumberChar_iff {c : Char} : isNumberChar c = true ↔ c.isDigit = true ∨ c = '.' := by
  simp [isNumberChar]

theorem forall_ne_of_not_mem {s : List Char} (whole : '.' ∉ s) :
    ∀ c ∈ s, decide (c ≠ '.') = true :=
  fun _ member => decide_eq_true (ne_of_mem_of_not_mem member whole)

theorem number?_of_whole {s : List Char} (whole : '.' ∉ s) :
    number? s = if s ≠ [] ∧ s.all Char.isDigit then some (.ofRatio (ofDigits s) 1) else none := by
  have plain := forall_ne_of_not_mem whole
  have front : s.takeWhile (· ≠ '.') = s := List.takeWhile_eq_self_iff.mpr plain
  have behind : s.dropWhile (· ≠ '.') = [] := List.dropWhile_eq_nil_iff.mpr plain
  simp only [number?, front, behind, List.tail_nil, List.append_nil, List.length_nil, Nat.pow_zero]

theorem number?_of_dot {whole fraction : List Char} (first : '.' ∉ whole) :
    number? (whole ++ '.' :: fraction) =
      if whole ++ fraction ≠ [] ∧ (whole ++ fraction).all Char.isDigit then
        some (.ofRatio (ofDigits (whole ++ fraction)) (10 ^ fraction.length))
      else none := by
  have plain := forall_ne_of_not_mem first
  have front : (whole ++ '.' :: fraction).takeWhile (· ≠ '.') = whole :=
    takeWhile_run plain (by simp)
  have behind : (whole ++ '.' :: fraction).dropWhile (· ≠ '.') = '.' :: fraction :=
    dropWhile_run plain (by simp)
  simp only [number?, front, behind, List.tail_cons]

theorem isNumber_of_whole {s : List Char} (whole : '.' ∉ s) :
    IsNumber s ↔ s ≠ [] ∧ s.all Char.isDigit := by
  constructor
  · rintro ⟨chars, -, c, member, -⟩
    exact ⟨List.ne_nil_of_mem member, List.all_eq_true.mpr fun d there =>
      (chars d there).resolve_right (ne_of_mem_of_not_mem there whole)⟩
  · rintro ⟨nonempty, digits⟩
    obtain ⟨c, member⟩ := List.exists_mem_of_ne_nil s nonempty
    have all := List.all_eq_true.mp digits
    exact ⟨fun d there => .inl (all d there), by simp [List.count_eq_zero_of_not_mem whole],
      c, member, all c member⟩

theorem isNumber_of_dot {whole fraction : List Char} :
    IsNumber (whole ++ '.' :: fraction) ↔
      whole ++ fraction ≠ [] ∧ (whole ++ fraction).all Char.isDigit := by
  have parts (c : Char) : c ∈ whole ++ '.' :: fraction ↔ c = '.' ∨ c ∈ whole ++ fraction := by
    simp only [List.mem_append, List.mem_cons]
    exact or_left_comm
  have count : (whole ++ '.' :: fraction).count '.' = (whole ++ fraction).count '.' + 1 := by
    simp only [List.count_append, List.count_cons_self, Nat.add_assoc]
  constructor
  · rintro ⟨chars, dots, c, member, digit⟩
    have no_dot : '.' ∉ whole ++ fraction := List.count_eq_zero.mp (by omega)
    refine ⟨?_, List.all_eq_true.mpr fun d there => ?_⟩
    · rcases (parts c).mp member with rfl | member
      · exact absurd digit (by decide)
      · exact List.ne_nil_of_mem member
    · exact (chars d ((parts d).mpr (.inr there))).resolve_right
        (ne_of_mem_of_not_mem there no_dot)
  · rintro ⟨nonempty, digits⟩
    obtain ⟨c, member⟩ := List.exists_mem_of_ne_nil _ nonempty
    have all := List.all_eq_true.mp digits
    have no_dot : '.' ∉ whole ++ fraction := fun there => absurd (all _ there) (by decide)
    refine ⟨fun d there => ?_, ?_, c, (parts c).mpr (.inr member), all c member⟩
    · exact ((parts d).mp there).symm.imp (all d) id
    · rw [count, List.count_eq_zero_of_not_mem no_dot]

theorem digits_of_whole {s : List Char} (whole : '.' ∉ s) : digits s = s :=
  List.filter_eq_self.mpr (forall_ne_of_not_mem whole)

theorem places_of_whole {s : List Char} (whole : '.' ∉ s) : places s = 0 := by
  rw [places, List.dropWhile_eq_nil_iff.mpr (forall_ne_of_not_mem whole)]
  rfl

theorem digits_of_dot {whole fraction : List Char} (first : '.' ∉ whole) (last : '.' ∉ fraction) :
    digits (whole ++ '.' :: fraction) = whole ++ fraction := by
  rw [digits, List.filter_append, List.filter_cons_of_neg (by simp),
    List.filter_eq_self.mpr (forall_ne_of_not_mem first),
    List.filter_eq_self.mpr (forall_ne_of_not_mem last)]

theorem places_of_dot {whole fraction : List Char} (first : '.' ∉ whole) :
    places (whole ++ '.' :: fraction) = fraction.length := by
  rw [places, dropWhile_run (forall_ne_of_not_mem first) (by simp)]
  rfl

theorem number?_eq_some_iff {s : List Char} {value : Binary64} :
    number? s = some value ↔
      IsNumber s ∧ value = .ofRatio (ofDigits (digits s)) (10 ^ places s) := by
  by_cases dot : '.' ∈ s
  · obtain ⟨whole, fraction, rfl, first⟩ := List.eq_append_cons_of_mem dot
    rw [number?_of_dot first, Option.ite_none_right_eq_some, ← isNumber_of_dot,
      places_of_dot first, Option.some.injEq, @eq_comm _ _ value]
    refine and_congr_right fun number => ?_
    have all := List.all_eq_true.mp (isNumber_of_dot.mp number).2
    have last : '.' ∉ fraction := fun there =>
      absurd (all _ (List.mem_append_right whole there)) (by decide)
    rw [digits_of_dot first last]
  · rw [number?_of_whole dot, Option.ite_none_right_eq_some, ← isNumber_of_whole dot,
      digits_of_whole dot, places_of_whole dot, Nat.pow_zero, Option.some.injEq,
      @eq_comm _ _ value]

theorem unit?_eq_some_iff {s : List Char} {scale : Nat} :
    unit? s = some scale ↔ (String.ofList s, scale) ∈ units := by
  unfold unit?
  generalize String.ofList s = unit
  split <;> simp_all [units, eq_comm]

theorem isUnit_text : ∀ unit ∈ units,
    unit.1.toList ≠ [] ∧ ∀ c ∈ unit.1.toList, isNumberChar c = false := by
  have letters : ∀ unit ∈ units,
      unit.1.toList ≠ [] ∧ (unit.1.toList.all fun c => !isNumberChar c) = true := by
    decide
  intro unit member
  obtain ⟨nonempty, all⟩ := letters unit member
  exact ⟨nonempty, fun c inside => (Bool.not_eq_true' _).mp (List.all_eq_true.mp all c inside)⟩

/-! ## Turns -/

/-- What the first component of a text amounts to, and the text behind it. -/
def turn? (s : List Char) : Option (Binary64 × List Char) :=
  let behind := s.dropWhile isNumberChar
  match number? (s.takeWhile isNumberChar), unit? (behind.takeWhile (!isNumberChar ·)) with
  | some value, some scale => some (value.scale scale, behind.dropWhile (!isNumberChar ·))
  | _, _ => none

/-- A text that is not empty is summed up in turns. -/
theorem sum?_eq_turn? (total : Binary64) {s : List Char} (nonempty : s ≠ []) :
    sum? total s = (turn? s).bind fun (amount, rest) => sum? (total.add amount) rest := by
  obtain ⟨c, s, rfl⟩ := List.exists_cons_of_ne_nil nonempty
  rw [sum?]
  by_cases number : isNumberChar c
  · simp only [turn?, number, if_true, List.takeWhile_cons_of_pos, List.dropWhile_cons_of_pos]
    cases number? (c :: s.takeWhile isNumberChar) with
    | none => rfl
    | some value =>
        cases unit? ((s.dropWhile isNumberChar).takeWhile (!isNumberChar ·)) <;> rfl
  · have nothing : turn? (c :: s) = none := by
      rw [turn?, List.takeWhile_cons_of_neg number]
      rfl
    rw [if_neg number, nothing]
    rfl

theorem turn?_eq_some {s rest : List Char} {amount : Binary64}
    (turn : turn? s = some (amount, rest)) :
    ∃ c : Component, s = c.text ++ rest ∧ amount = c.amount ∧
      ∀ d ∈ rest.head?, isNumberChar d = true := by
  unfold turn? at turn
  dsimp only at turn
  split at turn
  next value scale number unit =>
    obtain ⟨isNumber, read⟩ := number?_eq_some_iff.mp number
    have isUnit := unit?_eq_some_iff.mp unit
    obtain ⟨scaled, behind⟩ := Prod.mk.inj (Option.some.inj turn)
    refine ⟨⟨_, (_, scale), isNumber, isUnit⟩, ?_, ?_, fun d head => ?_⟩
    · rw [Component.text, String.toList_ofList, List.append_assoc, ← behind,
        List.takeWhile_append_dropWhile, List.takeWhile_append_dropWhile]
    · rw [← scaled, read, Component.amount]
    · have stops := List.head?_dropWhile_not (!isNumberChar ·) (s.dropWhile isNumberChar)
      rw [behind, Option.mem_def.mp head] at stops
      simpa using stops
  next => cases turn

theorem Component.runs_text (c : Component) {rest : List Char}
    (next : ∀ d ∈ rest.head?, isNumberChar d = true) :
    (c.text ++ rest).takeWhile isNumberChar = c.number ∧
    (c.text ++ rest).dropWhile isNumberChar = c.unit.1.toList ++ rest ∧
    (c.unit.1.toList ++ rest).takeWhile (!isNumberChar ·) = c.unit.1.toList ∧
    (c.unit.1.toList ++ rest).dropWhile (!isNumberChar ·) = rest := by
  obtain ⟨written, plain⟩ := isUnit_text _ c.isUnit
  have chars : ∀ d ∈ c.number, isNumberChar d = true :=
    fun d member => isNumberChar_iff.mpr (c.isNumber.chars d member)
  have others : ∀ d ∈ c.unit.1.toList, (!isNumberChar d) = true :=
    fun d member => by rw [plain d member, Bool.not_false]
  have apart : ∀ d ∈ (c.unit.1.toList ++ rest).head?, isNumberChar d = false := by
    obtain ⟨u, us, front⟩ := List.exists_cons_of_ne_nil written
    rw [front] at plain ⊢
    rintro d ⟨⟩
    exact plain u List.mem_cons_self
  have stops : ∀ d ∈ rest.head?, (!isNumberChar d) = false :=
    fun d head => by rw [next d head, Bool.not_true]
  rw [text, List.append_assoc]
  exact ⟨takeWhile_run chars apart, dropWhile_run chars apart, takeWhile_run others stops,
    dropWhile_run others stops⟩

/-- A turn takes a component off the front of a text up to the next number. -/
theorem Component.turn?_text (c : Component) {rest : List Char}
    (next : ∀ d ∈ rest.head?, isNumberChar d = true) :
    turn? (c.text ++ rest) = some (c.amount, rest) := by
  obtain ⟨front, behind, unit_run, rest_run⟩ := c.runs_text next
  have number : number? c.number = some (.ofRatio (ofDigits (digits c.number))
      (10 ^ places c.number)) := number?_eq_some_iff.mpr ⟨c.isNumber, rfl⟩
  have unit : unit? c.unit.1.toList = some c.unit.2 :=
    unit?_eq_some_iff.mpr (by rw [String.ofList_toList]; exact c.isUnit)
  simp only [turn?, front, behind, unit_run, rest_run, number, unit, amount]

theorem Component.two_le_length (c : Component) : 2 ≤ c.text.length := by
  obtain ⟨d, member, -⟩ := c.isNumber.digit
  have number := List.length_pos_of_mem member
  have unit := List.length_pos_iff.mpr (isUnit_text _ c.isUnit).1
  rw [text, List.length_append]
  omega

theorem Component.head_text (c : Component) (rest : List Char) :
    ∀ d ∈ (c.text ++ rest).head?, isNumberChar d = true := by
  obtain ⟨d, member, -⟩ := c.isNumber.digit
  obtain ⟨e, es, front⟩ := List.exists_cons_of_ne_nil (List.ne_nil_of_mem member)
  rw [text, front]
  rintro _ ⟨⟩
  exact isNumberChar_iff.mpr (c.isNumber.chars e (front ▸ List.mem_cons_self))

/-- The text of components, one behind the other. -/
def spelled (cs : List Component) : List Char :=
  cs.flatMap Component.text

theorem spelled_cons (c : Component) (cs : List Component) :
    spelled (c :: cs) = c.text ++ spelled cs :=
  List.flatMap_cons

theorem head_spelled (cs : List Component) : ∀ d ∈ (spelled cs).head?, isNumberChar d = true := by
  cases cs with
  | nil => nofun
  | cons c cs =>
      rw [spelled_cons]
      exact c.head_text _

/-- The text of components sums up to their sum. -/
theorem sum?_spelled (total : Binary64) (cs : List Component) :
    sum? total (spelled cs) = some (sumOnto total cs) := by
  induction cs generalizing total with
  | nil => exact sum?.eq_1 total
  | cons c cs ih =>
      have nonempty : c.text ++ spelled cs ≠ [] := by
        apply List.ne_nil_of_length_pos
        have := c.two_le_length
        rw [List.length_append]
        omega
      rw [spelled_cons, sum?_eq_turn? total nonempty, c.turn?_text (head_spelled cs)]
      exact ih (total.add c.amount)

/-- Only texts of components are summed up. -/
theorem spelled_of_sum? {total sum : Binary64} {s : List Char} (summed : sum? total s = some sum) :
    ∃ cs, s = spelled cs := by
  induction length : s.length using Nat.strong_induction_on generalizing s total with
  | h n ih =>
      subst length
      by_cases empty : s = []
      · exact ⟨[], empty⟩
      · rw [sum?_eq_turn? total empty] at summed
        obtain ⟨⟨amount, rest⟩, turn, behind⟩ := Option.bind_eq_some_iff.mp summed
        obtain ⟨c, rfl, -, -⟩ := turn?_eq_some turn
        have shorter : rest.length < (c.text ++ rest).length := by
          have := c.two_le_length
          rw [List.length_append]
          omega
        obtain ⟨cs, rfl⟩ := ih _ shorter behind rfl
        exact ⟨c :: cs, (spelled_cons c cs).symm⟩

theorem two_mul_turns_le {texts : Nat → List Char} (n : Nat)
    (turns : ∀ i < n, ∃ amount, turn? (texts i) = some (amount, texts (i + 1))) :
    2 * n + (texts n).length ≤ (texts 0).length := by
  induction n with
  | zero => omega
  | succ n ih =>
      have earlier := ih fun i less => turns i (Nat.lt_succ_of_lt less)
      obtain ⟨amount, turn⟩ := turns n (Nat.lt_succ_self n)
      obtain ⟨c, split, -, -⟩ := turn?_eq_some turn
      have := c.two_le_length
      rw [split, List.length_append] at earlier
      omega

/-! ## The range -/

/-- A sum is out of range if it is infinite or more than `2 ^ 64` nanoseconds. -/
def OutOfRange (sum : Binary64) : Prop :=
  sum = .infinite ∨ ∃ units, sum = .finite units ∧ 2 ^ 64 * Binary64.unitsPerOne < units

theorem ofSum?_eq_none_iff {sum : Binary64} : ofSum? sum = none ↔ OutOfRange sum := by
  cases sum with
  | finite units =>
      simp only [ofSum?, OutOfRange, reduceCtorEq, false_or, Binary64.finite.injEq,
        exists_eq_left']
      split <;> simp_all
  | infinite => exact iff_of_true rfl (.inl rfl)

theorem ofSum?_of_range {sum : Binary64} (inside : ¬OutOfRange sum) :
    ∃ units, sum = .finite units ∧
      ofSum? sum = some ⟨min (Binary64.roundHalfUp units Binary64.unitsPerOne) (2 ^ 64 - 1)⟩ := by
  cases sum with
  | finite units =>
      have small : units ≤ 2 ^ 64 * Binary64.unitsPerOne :=
        Nat.le_of_not_lt fun large => inside (.inr ⟨units, rfl, large⟩)
      exact ⟨units, rfl, if_pos small⟩
  | infinite => exact absurd (.inl rfl) inside

/-! ## Lengths of time -/

theorem parse?_of_trim {text : String} {s : List Char} (trimmed : trim text.toList = s)
    (other : s ≠ ['0']) (nonempty : s ≠ []) : parse? text = (sum? (.finite 0) s).bind ofSum? := by
  unfold parse?
  rw [trimmed]
  split
  · exact absurd rfl nonempty
  · exact absurd rfl other
  · rfl

theorem spelled_ne {c : Component} {cs : List Component} :
    spelled (c :: cs) ≠ ['0'] ∧ spelled (c :: cs) ≠ [] := by
  have two : 2 ≤ (spelled (c :: cs)).length := by
    have := c.two_le_length
    rw [spelled_cons, List.length_append]
    omega
  constructor <;> intro same <;> simp [same] at two

/-- A text that is neither a bare zero nor made of components denotes nothing. -/
theorem parse?_eq_none {text : String} (other : trim text.toList ≠ ['0'])
    (foreign : ∀ cs ≠ [], trim text.toList ≠ spelled cs) : parse? text = none := by
  by_cases nonempty : trim text.toList = []
  · unfold parse?
    rw [nonempty]
  · rw [parse?_of_trim rfl other nonempty]
    cases summed : sum? (.finite 0) (trim text.toList) with
    | none => rfl
    | some sum =>
        obtain ⟨cs, same⟩ := spelled_of_sum? summed
        refine absurd same (foreign cs ?_)
        rintro rfl
        exact nonempty same

theorem parse?_of_spelled {text : String} {cs : List Component} (some_component : cs ≠ [])
    (same : trim text.toList = spelled cs) : parse? text = ofSum? (sumOnto (.finite 0) cs) := by
  obtain ⟨c, cs, rfl⟩ := List.exists_cons_of_ne_nil some_component
  rw [parse?_of_trim same spelled_ne.1 spelled_ne.2, sum?_spelled, Option.bind_some]

/-- A text without the blanks around it denotes no time if it is a bare zero, and nothing if it is
neither that nor made of components. Made of components, it denotes nothing only if their sum is out
of range, and else fewer than `2 ^ 64` nanoseconds, to which the sum is rounded. It is summed up in
turns, each of which takes a run of characters of numbers and a run of other characters off its
front; so there are at most half as many turns as it has characters. -/
theorem components_are_summed (text : String) :
    (trim text.toList = ['0'] → parse? text = some zero) ∧
    (trim text.toList ≠ ['0'] → (∀ cs ≠ [], trim text.toList ≠ spelled cs) →
      parse? text = none) ∧
    (∀ cs ≠ [], trim text.toList = spelled cs →
      (parse? text = none ↔ OutOfRange (sumOnto (.finite 0) cs)) ∧
      (¬OutOfRange (sumOnto (.finite 0) cs) → ∃ length, parse? text = some length ∧
        length.nanos ≤ 2 ^ 64 - 1 ∧ ∃ units, sumOnto (.finite 0) cs = .finite units ∧
          length.nanos =
            min (Binary64.roundHalfUp units Binary64.unitsPerOne) (2 ^ 64 - 1))) ∧
    (∀ total, ∀ s ≠ [], sum? total s =
      (turn? s).bind fun (amount, rest) => sum? (total.add amount) rest) ∧
    (∀ s amount rest, turn? s = some (amount, rest) →
      ∃ number unit, s = number ++ unit ++ rest ∧ number ≠ [] ∧ unit ≠ [] ∧
        (∀ c ∈ number, isNumberChar c = true) ∧ ∀ c ∈ unit, isNumberChar c = false) ∧
    ∀ texts : Nat → List Char, texts 0 = trim text.toList → ∀ n,
      (∀ i < n, ∃ amount, turn? (texts i) = some (amount, texts (i + 1))) →
        2 * n ≤ (trim text.toList).length := by
  refine ⟨fun bare => ?_, parse?_eq_none, fun cs some_component same => ⟨?_, fun inside => ?_⟩,
    fun total s nonempty => sum?_eq_turn? total nonempty, fun s amount rest turn => ?_,
    fun texts start n turns => ?_⟩
  · unfold parse?
    rw [bare]
    rfl
  · rw [parse?_of_spelled some_component same, ofSum?_eq_none_iff]
  · obtain ⟨units, finite, read⟩ := ofSum?_of_range inside
    exact ⟨_, (parse?_of_spelled some_component same).trans read, Nat.min_le_right _ _,
      units, finite, rfl⟩
  · obtain ⟨c, rfl, -, -⟩ := turn?_eq_some turn
    obtain ⟨written, plain⟩ := isUnit_text _ c.isUnit
    obtain ⟨d, member, -⟩ := c.isNumber.digit
    exact ⟨c.number, c.unit.1.toList, rfl, List.ne_nil_of_mem member, written,
      fun d there => isNumberChar_iff.mpr (c.isNumber.chars d there), plain⟩
  · have := two_mul_turns_le n turns
    rw [← start]
    omega

/-- The first length of time that a word of 64 bits cannot hold, in nanoseconds. -/
def firstTooLong : Component where
  number := "18446744073709551616".toList
  unit := ("ns", 1)
  isNumber :=
    { chars := fun c member => .inl (List.all_eq_true.mp
        (by decide : "18446744073709551616".toList.all Char.isDigit = true) c member)
      dots := by decide
      digit := ⟨'1', by decide, by decide⟩ }
  isUnit := by decide

/-- It is just in range, and cut down by the last nanosecond. -/
theorem components_are_summed_up_to_range :
    trim "\t18446744073709551616ns ".toList = spelled [firstTooLong] ∧
      parse? "\t18446744073709551616ns " = some ⟨2 ^ 64 - 1⟩ := by
  have same : trim "\t18446744073709551616ns ".toList = spelled [firstTooLong] := rfl
  have sum : sumOnto (.finite 0) [firstTooLong] =
      .finite (2 ^ 64 * Binary64.unitsPerOne) := by
    decide +kernel
  have inside : ¬OutOfRange (sumOnto (.finite 0) [firstTooLong]) := by
    rw [← ofSum?_eq_none_iff]
    decide +kernel
  have cut : min (Binary64.roundHalfUp (2 ^ 64 * Binary64.unitsPerOne) Binary64.unitsPerOne)
      (2 ^ 64 - 1) = 2 ^ 64 - 1 := by
    decide +kernel
  obtain ⟨⟨nanos⟩, read, -, units, finite, value⟩ :=
    ((components_are_summed _).2.2.1 _ (List.cons_ne_nil _ _) same).2 inside
  have exactly : units = 2 ^ 64 * Binary64.unitsPerOne :=
    Binary64.finite.inj (finite.symm.trans sum)
  rw [exactly, cut] at value
  exact ⟨same, read.trans (congrArg (fun n => some (mk n)) value)⟩

end Broadcast.Duration
