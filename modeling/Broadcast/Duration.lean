import Broadcast.Text.Numeral

/-!
# Lengths of time

A length of time is a whole number of nanoseconds. Its exact text uses the largest of four units
in which the length is at least one, with as many decimals as it needs.
-/

namespace Broadcast

/-- A length of time in nanoseconds. -/
structure Duration where
  nanos : Nat
deriving DecidableEq, Repr, Inhabited

namespace Duration

/-- No time at all. -/
def zero : Duration := ⟨0⟩

/-- A number of milliseconds. -/
def ofMillis (n : Nat) : Duration := ⟨n * 1000000⟩

/-- A number of seconds. -/
def ofSecs (n : Nat) : Duration := ⟨n * 1000000000⟩

/-- The whole microseconds. -/
def micros (d : Duration) : Nat := d.nanos / 1000

/-- The whole milliseconds. -/
def millis (d : Duration) : Nat := d.nanos / 1000000

/-- The whole seconds. -/
def secs (d : Duration) : Nat := d.nanos / 1000000000

/-- The nanoseconds after the last whole second. -/
def subsecNanos (d : Duration) : Nat := d.nanos % 1000000000

/-- A number of nanoseconds in a unit of `10 ^ digits` nanoseconds, without needless decimals. -/
def inUnit (nanos digits : Nat) (unit : String) : String :=
  let fraction := Text.fractionDigits digits (nanos % 10 ^ digits)
  toString (nanos / 10 ^ digits) ++ (if fraction = "" then "" else "." ++ fraction) ++ unit

/-- The exact text of a length of time, such as `1.5ms` or `3600s`. -/
def exact (d : Duration) : String :=
  if d.nanos ≥ 1000000000 then inUnit d.nanos 9 "s"
  else if d.nanos ≥ 1000000 then inUnit d.nanos 6 "ms"
  else if d.nanos ≥ 1000 then inUnit d.nanos 3 "µs"
  else inUnit d.nanos 0 "ns"

end Duration

end Broadcast
