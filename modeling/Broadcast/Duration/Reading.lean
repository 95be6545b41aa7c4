import Broadcast.Binary64
import Broadcast.Duration
import Broadcast.Text.Blank
import Broadcast.Text.Numeral

/-!
# Reading a length of time

A length of time is written as components, each a decimal number and a unit, such as `1m30s`.
The components are summed from left to right in floating point nanoseconds, and the sum is rounded
to a whole number once, at the end.
-/

namespace Broadcast.Duration

/-- The character may stand in the number of a component. -/
def isNumberChar (c : Char) : Bool :=
  c.isDigit || c == '.'

/-- The number written by digits with at most one dot and at least one digit. -/
def number? (s : List Char) : Option Binary64 :=
  let whole := s.takeWhile (· ≠ '.')
  let fraction := (s.dropWhile (· ≠ '.')).tail
  if (whole ++ fraction) ≠ [] ∧ (whole ++ fraction).all Char.isDigit then
    some (.ofRatio (Text.ofDigits (whole ++ fraction)) (10 ^ fraction.length))
  else
    none

/-- The nanoseconds of a unit. -/
def unit? (s : List Char) : Option Nat :=
  match String.ofList s with
  | "ns" => some 1
  | "us" | "µs" => some 1000
  | "ms" => some 1000000
  | "s" => some 1000000000
  | "m" => some 60000000000
  | "h" => some 3600000000000
  | _ => none

/-- The components of a text summed up onto the nanoseconds read so far. -/
def sum? (total : Binary64) (s : List Char) : Option Binary64 :=
  match s with
  | [] => some total
  | c :: s =>
    if isNumberChar c then
      let afterNumber := s.dropWhile isNumberChar
      match number? (c :: s.takeWhile isNumberChar),
          unit? (afterNumber.takeWhile (!isNumberChar ·)) with
      | some value, some scale =>
        sum? (total.add (value.scale scale)) (afterNumber.dropWhile (!isNumberChar ·))
      | _, _ => none
    else
      none
termination_by s.length
decreasing_by
  have h₁ := (List.dropWhile_sublist (l := s) isNumberChar).length_le
  have h₂ := (List.dropWhile_sublist (l := s.dropWhile isNumberChar) (!isNumberChar ·)).length_le
  simp only [List.length_cons]
  omega

/-- A sum of nanoseconds as a length of time, if it is not beyond the range of 64-bit words. -/
def ofSum? : Binary64 → Option Duration
  | .finite units =>
    if units ≤ 2 ^ 64 * Binary64.unitsPerOne then
      some ⟨min (Binary64.roundHalfUp units Binary64.unitsPerOne) (2 ^ 64 - 1)⟩
    else
      none
  | .infinite => none

/-- The length of time that a text denotes; a bare `0` needs no unit. -/
def parse? (text : String) : Option Duration :=
  match Text.trim text.toList with
  | [] => none
  | ['0'] => some zero
  | s => (sum? (.finite 0) s).bind ofSum?

end Broadcast.Duration
