import Broadcast.Data

/-!
# Numbers that fit a machine word

Counts are words of 64 bits, retry counts words of 32 bits, identifiers signed words of 64 bits.
A number outside the range of its word has no word, and neither has such an integer of a document.
-/

namespace Broadcast

namespace Word

/-- The unsigned 64-bit word of a number that is small enough. -/
def unsigned64? (z : Int) : Option UInt64 :=
  if 0 ≤ z ∧ z < 2 ^ 64 then some (UInt64.ofNat z.toNat) else none

/-- The unsigned 32-bit word of a number that is small enough. -/
def unsigned32? (z : Int) : Option UInt32 :=
  if 0 ≤ z ∧ z < 2 ^ 32 then some (UInt32.ofNat z.toNat) else none

/-- The signed 64-bit word of a number in its range. -/
def signed64? (z : Int) : Option Int64 :=
  if -(2 ^ 63) ≤ z ∧ z < 2 ^ 63 then some (Int64.ofInt z) else none

/-- The sum of two signed words, held at the end of the range that it would leave. -/
def saturatingAdd (a b : Int64) : Int64 :=
  Int64.ofInt (max (-(2 ^ 63)) (min (2 ^ 63 - 1) (a.toInt + b.toInt)))

end Word

namespace Data

/-- The unsigned 64-bit word that a value is. -/
def unsigned64? (d : Data) : Option UInt64 :=
  d.int?.bind Word.unsigned64?

/-- The unsigned 32-bit word that a value is. -/
def unsigned32? (d : Data) : Option UInt32 :=
  d.int?.bind Word.unsigned32?

/-- The signed 64-bit word that a value is. -/
def signed64? (d : Data) : Option Int64 :=
  d.int?.bind Word.signed64?

/-- The value of an unsigned 64-bit word. -/
def ofUnsigned64 (w : UInt64) : Data :=
  int w.toNat

/-- The value of an unsigned 32-bit word. -/
def ofUnsigned32 (w : UInt32) : Data :=
  int w.toNat

/-- The value of a signed 64-bit word. -/
def ofSigned64 (w : Int64) : Data :=
  int w.toInt

end Data

end Broadcast
