import Broadcast.Proofs.Duration.Components
import Mathlib.Algebra.Order.Field.Rat
import Mathlib.Data.List.Nodup
import Mathlib.Tactic.NormNum
import Mathlib.Tactic.Ring

/-!
# The exact amounts of components

A text is made of components in one way at most, so it says one amount of time, which is a rational
number of nanoseconds. The last place of its last number tells how exact it can be.
-/

namespace Broadcast.Duration

open Text

/-! ## Amounts -/

/-- The number of a component. -/
def Component.value (c : Component) : ℚ :=
  ofDigits (digits c.number) / 10 ^ places c.number

/-- The nanoseconds that a component says. -/
def Component.nanos (c : Component) : ℚ :=
  c.value * c.unit.2

/-- The nanoseconds of one in the last place of a component's number. -/
def Component.place (c : Component) : ℚ :=
  c.unit.2 / 10 ^ places c.number

/-- The nanoseconds that components say together. -/
def total (cs : List Component) : ℚ :=
  (cs.map Component.nanos).sum

@[simp] theorem total_nil : total [] = 0 := rfl

@[simp] theorem total_cons (c : Component) (cs : List Component) :
    total (c :: cs) = c.nanos + total cs := by
  rw [total, List.map_cons, List.sum_cons]
  rfl

/-- A text is made of these components, of which there is at least one. -/
structure ConsistsOf (text : String) (cs : List Component) : Prop where
  nonempty : cs ≠ []
  same : text.toList = spelled cs

/-! ## One reading -/

theorem Component.eq_of_number_of_unit {c d : Component} (number : c.number = d.number)
    (unit : c.unit.1 = d.unit.1) : c = d := by
  have distinct : (units.map Prod.fst).Nodup := by decide
  have same : c.unit = d.unit := List.inj_on_of_nodup_map distinct c.isUnit d.isUnit unit
  obtain ⟨number, unit, isNumber, isUnit⟩ := c
  obtain ⟨number', unit', isNumber', isUnit'⟩ := d
  subst number same
  rfl

theorem Component.text_append_inj {c d : Component} {s t : List Char}
    (next : ∀ e ∈ s.head?, isNumberChar e = true) (next' : ∀ e ∈ t.head?, isNumberChar e = true)
    (same : c.text ++ s = d.text ++ t) : c = d ∧ s = t := by
  obtain ⟨front, behind, unit_run, rest_run⟩ := c.runs_text next
  obtain ⟨front', behind', unit_run', rest_run'⟩ := d.runs_text next'
  have number : c.number = d.number := by rw [← front, same, front']
  have left_over : c.unit.1.toList ++ s = d.unit.1.toList ++ t := by rw [← behind, same, behind']
  have unit : c.unit.1.toList = d.unit.1.toList := by rw [← unit_run, left_over, unit_run']
  have rest : s = t := by rw [← rest_run, left_over, rest_run']
  exact ⟨eq_of_number_of_unit number (String.toList_inj.mp unit), rest⟩

theorem spelled_injective {cs ds : List Component} (same : spelled cs = spelled ds) : cs = ds := by
  induction cs generalizing ds with
  | nil =>
      cases ds with
      | nil => rfl
      | cons d ds => exact absurd same.symm spelled_ne.2
  | cons c cs ih =>
      cases ds with
      | nil => exact absurd same spelled_ne.2
      | cons d ds =>
          rw [spelled_cons, spelled_cons] at same
          obtain ⟨first, rest⟩ :=
            Component.text_append_inj (head_spelled cs) (head_spelled ds) same
          rw [first, ih rest]

/-- A text is made of components in one way only. -/
theorem ConsistsOf.unique {text : String} {cs ds : List Component} (made : ConsistsOf text cs)
    (made' : ConsistsOf text ds) : cs = ds :=
  spelled_injective (made.same.symm.trans made'.same)

/-! ## Written components -/

theorem not_mem_toDigits (n : Nat) : '.' ∉ Nat.toDigits 10 n :=
  fun member => absurd (digits_toDigits n _ member) (by decide)

theorem all_toDigits (n : Nat) : (Nat.toDigits 10 n).all Char.isDigit = true :=
  List.all_eq_true.mpr (digits_toDigits n)

/-- A whole number of a unit. -/
def Component.whole (n : Nat) (unit : String × Nat) (isUnit : unit ∈ units) : Component where
  number := Nat.toDigits 10 n
  unit := unit
  isNumber := (isNumber_of_whole (not_mem_toDigits n)).mpr ⟨Nat.toDigits_ne_nil, all_toDigits n⟩
  isUnit := isUnit

theorem seconds_mem_units : ("s", 1000000000) ∈ units := by decide

/-- Seconds with one decimal. -/
def Component.tenths (n : Nat) : Component where
  number := Nat.toDigits 10 (n / 10) ++ '.' :: Nat.toDigits 10 (n % 10)
  unit := ("s", 1000000000)
  isNumber := isNumber_of_dot.mpr ⟨List.append_ne_nil_of_left_ne_nil Nat.toDigits_ne_nil _, by
    rw [List.all_append, all_toDigits, all_toDigits, Bool.and_self]⟩
  isUnit := seconds_mem_units

namespace Component

variable {n : Nat} {unit : String × Nat} {isUnit : unit ∈ units}

theorem text_whole :
    (whole n unit isUnit).text = (toString n).toList ++ unit.1.toList := by
  rw [Nat.toString_eq_ofList_toDigits, String.toList_ofList]
  rfl

theorem text_tenths :
    (tenths n).text =
      (toString (n / 10)).toList ++ '.' :: ((toString (n % 10)).toList ++ "s".toList) := by
  rw [Nat.toString_eq_ofList_toDigits, Nat.toString_eq_ofList_toDigits, String.toList_ofList,
    String.toList_ofList]
  exact List.append_assoc _ ('.' :: Nat.toDigits 10 (n % 10)) _

@[simp] theorem unit_whole : (whole n unit isUnit).unit = unit := rfl

@[simp] theorem unit_tenths : (tenths n).unit = ("s", 1000000000) := rfl

@[simp] theorem value_whole : (whole n unit isUnit).value = n := by
  rw [value, whole, digits_of_whole (not_mem_toDigits n), places_of_whole (not_mem_toDigits n),
    ofDigits_toDigits, pow_zero, div_one]

theorem places_tenths : places (tenths n).number = 1 := by
  have digit : n % 10 < 10 := Nat.mod_lt n (by decide)
  rw [tenths, places_of_dot (not_mem_toDigits _), Nat.toDigits_of_lt_base digit,
    List.length_singleton]

/-- The digits around the dot are those of the number of tenths. -/
theorem ofDigits_tenths : ofDigits (digits (tenths n).number) = n := by
  have digit : n % 10 < 10 := Nat.mod_lt n (by decide)
  have last : ofDigits [Nat.digitChar (n % 10)] = n % 10 := by
    rw [← Nat.toDigits_of_lt_base digit, ofDigits_toDigits]
  have split : ofDigits (Nat.toDigits 10 (n / 10) ++ [Nat.digitChar (n % 10)]) =
      ofDigits (Nat.toDigits 10 (n / 10)) * 10 + ofDigits [Nat.digitChar (n % 10)] := by
    simp only [ofDigits, List.foldl_append, List.foldl_cons, List.foldl_nil, Nat.zero_mul,
      Nat.zero_add]
  rw [tenths, digits_of_dot (not_mem_toDigits _) (not_mem_toDigits _),
    Nat.toDigits_of_lt_base digit, split, last, ofDigits_toDigits, Nat.div_add_mod']

@[simp] theorem value_tenths : (tenths n).value = n / 10 := by
  rw [value, ofDigits_tenths, places_tenths, pow_one]

@[simp] theorem place_whole : (whole n unit isUnit).place = unit.2 := by
  rw [place, whole, places_of_whole (not_mem_toDigits n), pow_zero, div_one]

@[simp] theorem place_tenths : (tenths n).place = 100000000 := by
  rw [place, places_tenths, unit_tenths]
  norm_num

end Component

end Broadcast.Duration
