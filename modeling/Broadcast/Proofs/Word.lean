import Broadcast.Word
import Mathlib.Tactic.SplitIfs

/-!
# The words of numbers

A number has a word exactly if it is the number of one, and this is the word.
-/

namespace Broadcast.Word

theorem unsigned64?_eq_some_iff {z : Int} {w : UInt64} :
    unsigned64? z = some w ↔ (w.toNat : Int) = z := by
  unfold unsigned64?
  constructor
  · intro fits
    split_ifs at fits with range
    obtain rfl := Option.some.inj fits
    rw [UInt64.toNat_ofNat_of_lt' (by omega : z.toNat < 2 ^ 64)]
    omega
  · rintro rfl
    have := w.toNat_lt
    rw [if_pos (by omega), Int.toNat_natCast, UInt64.ofNat_toNat]

theorem unsigned32?_eq_some_iff {z : Int} {w : UInt32} :
    unsigned32? z = some w ↔ (w.toNat : Int) = z := by
  unfold unsigned32?
  constructor
  · intro fits
    split_ifs at fits with range
    obtain rfl := Option.some.inj fits
    rw [UInt32.toNat_ofNat_of_lt' (by omega : z.toNat < 2 ^ 32)]
    omega
  · rintro rfl
    have := w.toNat_lt
    rw [if_pos (by omega), Int.toNat_natCast, UInt32.ofNat_toNat]

theorem signed64?_eq_some_iff {z : Int} {w : Int64} :
    signed64? z = some w ↔ w.toInt = z := by
  unfold signed64?
  constructor
  · intro fits
    split_ifs at fits with range
    obtain rfl := Option.some.inj fits
    exact Int64.toInt_ofInt_of_le range.1 range.2
  · rintro rfl
    rw [if_pos ⟨w.le_toInt, w.toInt_lt⟩, Int64.ofInt_toInt]

theorem exists_unsigned64_iff {z : Int} :
    (∃ w : UInt64, (w.toNat : Int) = z) ↔ 0 ≤ z ∧ z < 2 ^ 64 := by
  simp only [← unsigned64?_eq_some_iff, ← Option.isSome_iff_exists, unsigned64?, Option.isSome_ite]

theorem exists_unsigned32_iff {z : Int} :
    (∃ w : UInt32, (w.toNat : Int) = z) ↔ 0 ≤ z ∧ z < 2 ^ 32 := by
  simp only [← unsigned32?_eq_some_iff, ← Option.isSome_iff_exists, unsigned32?, Option.isSome_ite]

theorem exists_signed64_iff {z : Int} :
    (∃ w : Int64, w.toInt = z) ↔ -(2 ^ 63) ≤ z ∧ z < 2 ^ 63 := by
  simp only [← signed64?_eq_some_iff, ← Option.isSome_iff_exists, signed64?, Option.isSome_ite]

end Broadcast.Word
