/-!
# Decimal numerals

Runs of ASCII digits as numbers, with the signs that a reader may allow in front, and numbers as
digits again.
-/

namespace Broadcast.Text

/-- The value of an ASCII digit. -/
def digitValue (c : Char) : Nat :=
  c.toNat - '0'.toNat

/-- The number that the digits of a run denote, read from the left. -/
def ofDigits (s : List Char) : Nat :=
  s.foldl (fun n c => n * 10 + digitValue c) 0

/-- The number denoted by a non-empty run of ASCII digits. -/
def natural? (s : List Char) : Option Nat :=
  if s ≠ [] ∧ s.all Char.isDigit then some (ofDigits s) else none

/-- A natural number with at most one plus sign in front. -/
def unsigned? : List Char → Option Nat
  | '+' :: s => natural? s
  | s => natural? s

/-- An integer with at most one sign in front. -/
def signed? : List Char → Option Int
  | '-' :: s => (natural? s).map fun n => -(n : Int)
  | s => (unsigned? s).map fun n => (n : Int)

/-- The decimal digits of a number, filled up with zeros on the left to a width. -/
def padded (width n : Nat) : String :=
  let digits := toString n
  String.ofList (List.replicate (width - digits.length) '0') ++ digits

/-- The fraction digits of `n / 10 ^ width`, with the zeros at the end cut off. -/
def fractionDigits (width n : Nat) : String :=
  String.ofList (((padded width n).toList.reverse.dropWhile (· == '0')).reverse)

end Broadcast.Text
