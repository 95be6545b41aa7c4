/-!
# Binary floating point numbers of 64 bits, from zero up

Every finite number of the format is a whole multiple of its least positive number `2 ^ -1074`, so
a number is kept as that multiple. An operation rounds the exact result once, to the nearest number
of the format and to the even neighbour where two are equally near.
-/

-- Powers of numbers are those of the core library, also where a module imports algebra.
attribute [instance (high), default_instance (high + 1)] instPowNat

namespace Broadcast

/-- A number of the format that is not negative: a multiple of `2 ^ -1074`, or infinity. -/
inductive Binary64
  | finite (units : Nat)
  | infinite
deriving DecidableEq, Repr

namespace Binary64

/-- The number of units in one. -/
def unitsPerOne : Nat := 2 ^ 1074

/-- The least number of units that is too large for the format. -/
def unitsLimit : Nat := 2 ^ (1024 + 1074)

/-- The whole number nearest to a quotient, the even one if two are equally near. -/
def roundHalfEven (num den : Nat) : Nat :=
  let q := num / den
  let twice := 2 * (num % den)
  if twice < den ∨ (twice = den ∧ q % 2 = 0) then q else q + 1

/-- The whole number nearest to a quotient, the larger one if two are equally near. -/
def roundHalfUp (num den : Nat) : Nat :=
  (2 * num + den) / (2 * den)

/-- The grid of the format at a number of units: 53 binary digits are kept. -/
def spacing (units : Nat) : Nat :=
  2 ^ (Nat.log2 units + 1 - 53)

/-- The number of the format nearest to `num / den` units. -/
def ofUnits (num den : Nat) : Binary64 :=
  let step := spacing (num / den)
  let units := roundHalfEven num (den * step) * step
  if units < unitsLimit then finite units else infinite

/-- The number of the format nearest to a quotient. -/
def ofRatio (num den : Nat) : Binary64 :=
  ofUnits (num * unitsPerOne) den

/-- The number of the format nearest to a natural number. -/
def ofNat (n : Nat) : Binary64 :=
  ofRatio n 1

/-- The rounded sum. -/
def add : Binary64 → Binary64 → Binary64
  | finite a, finite b => ofUnits (a + b) 1
  | _, _ => infinite

/-- The rounded product of a number and a positive natural number that the format holds exactly. -/
def scale (k : Nat) : Binary64 → Binary64
  | finite a => ofUnits (a * k) 1
  | infinite => infinite

end Binary64

end Broadcast
