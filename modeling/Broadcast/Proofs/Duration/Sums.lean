import Broadcast.Proofs.Binary64
import Broadcast.Proofs.Duration.Amounts

/-!
# Rounded sums of components

A component is rounded twice, once as a number and once as nanoseconds, and each addition rounds
once more. So the sum of `n` components is off their exact total by at most `n + 2` factors within
`2 ^ -53` of one, and by a slack for numbers near zero of `2 ^ -1032` nanoseconds for each
component. What is out of range is told by the exact total but for that.
-/

namespace Broadcast.Duration

open Binary64 (roundoff roundoff_pos roundoff_lt_one unitsPerOne unitsPerOne_pos Between)

/-- What numbers near zero can cost for each component, in nanoseconds. -/
def slack : ℚ := 2 ^ 42 / unitsPerOne

private theorem one_pos : (0 : ℚ) < unitsPerOne :=
  Nat.cast_pos.mpr unitsPerOne_pos

theorem slack_nonneg : 0 ≤ slack :=
  div_nonneg (by norm_num) one_pos.le

private theorem unit_le (c : Component) : 0 < c.unit.2 ∧ (c.unit.2 : ℚ) ≤ slack * unitsPerOne := by
  have all : ∀ unit ∈ units, 0 < unit.2 ∧ unit.2 ≤ 2 ^ 42 := by decide
  obtain ⟨positive, le⟩ := all _ c.isUnit
  rw [slack, div_mul_cancel₀ _ one_pos.ne']
  exact ⟨positive, by exact_mod_cast le⟩

theorem Component.nanos_nonneg (c : Component) : 0 ≤ c.nanos := by
  unfold nanos value
  positivity

/-- A number is `t` but for some roundings and a slack. -/
def Rounded (x : Binary64) (t s : ℚ) (roundings : Nat) : Prop :=
  Between x ((t * (1 - roundoff) ^ roundings - s) * unitsPerOne)
    ((t + s) * (1 + roundoff) ^ roundings * unitsPerOne)

section Costs

variable {t s n room one unit u : ℚ} (pos : 0 < u) (less : u < 1)

include pos less

private theorem cost_of_amount (nonneg : 0 ≤ unit) (le : unit ≤ room * one) :
    (n * unit * (1 - u) ^ 2 - room) * one ≤ (n * one * (1 - u) - 1 / 2) * unit * (1 - u) ∧
      (n * one * (1 + u) + 1 / 2) * unit * (1 + u) ≤ (n * unit + room) * (1 + u) ^ 2 * one := by
  constructor
  · have cost : unit * (1 - u) ≤ unit := mul_le_of_le_one_right nonneg (by linarith)
    linarith
  · have cost : unit * (1 + u) ≤ unit * (1 + u) ^ 2 :=
      mul_le_mul_of_nonneg_left (le_self_pow₀ (by linarith) (by decide)) nonneg
    have lost : unit * (1 + u) ^ 2 ≤ room * one * (1 + u) ^ 2 :=
      mul_le_mul_of_nonneg_right le (by positivity)
    have half : 0 ≤ unit * (1 + u) := mul_nonneg nonneg (by linarith)
    linarith

/-- What an addition costs, given what the sum and the new component have cost already. -/
private theorem cost_of_sum {j : Nat} (two : 2 ≤ j) (s_nonneg : 0 ≤ s) (n_nonneg : 0 ≤ n)
    (room_nonneg : 0 ≤ room) :
    (t + n) * (1 - u) ^ (j + 1) - (s + room) ≤
        (t * (1 - u) ^ j - s + (n * (1 - u) ^ 2 - room)) * (1 - u) ∧
      ((t + s) * (1 + u) ^ j + (n + room) * (1 + u) ^ 2) * (1 + u) ≤
        (t + n + (s + room)) * (1 + u) ^ (j + 1) := by
  constructor
  -- The new component has cost two factors so far; as many as the sum has cost bound it, too.
  · have fewer : n * (1 - u) ^ j ≤ n * (1 - u) ^ 2 :=
      mul_le_mul_of_nonneg_left (pow_le_pow_of_le_one (by linarith) (by linarith) two) n_nonneg
    have rounded := mul_le_mul_of_nonneg_right fewer (by linarith : 0 ≤ 1 - u)
    have cost : (s + room) * (1 - u) ≤ s + room :=
      mul_le_of_le_one_right (by linarith) (by linarith)
    calc (t + n) * (1 - u) ^ (j + 1) - (s + room)
      _ = (t * (1 - u) ^ j + n * (1 - u) ^ j) * (1 - u) - (s + room) := by ring
      _ ≤ (t * (1 - u) ^ j + n * (1 - u) ^ 2) * (1 - u) - (s + room) * (1 - u) := by linarith
      _ = (t * (1 - u) ^ j - s + (n * (1 - u) ^ 2 - room)) * (1 - u) := by ring
  · have more : (n + room) * (1 + u) ^ 2 ≤ (n + room) * (1 + u) ^ j :=
      mul_le_mul_of_nonneg_left (pow_le_pow_right₀ (by linarith) two) (by linarith)
    calc ((t + s) * (1 + u) ^ j + (n + room) * (1 + u) ^ 2) * (1 + u)
      _ ≤ ((t + s) * (1 + u) ^ j + (n + room) * (1 + u) ^ j) * (1 + u) :=
        mul_le_mul_of_nonneg_right (by linarith) (by linarith)
      _ = (t + n + (s + room)) * (1 + u) ^ (j + 1) := by ring

end Costs

/-- The nanoseconds of a component are rounded twice. -/
theorem Component.rounded_amount (c : Component) : Rounded c.amount c.nanos slack 2 := by
  obtain ⟨positive, le⟩ := unit_le c
  obtain ⟨below, above⟩ := cost_of_amount (n := c.value) roundoff_pos roundoff_lt_one
    (Nat.cast_nonneg _) le
  have number := Between.ofUnits (Text.ofDigits (digits c.number) * unitsPerOne)
    (Nat.pow_pos (by decide) : 0 < 10 ^ places c.number)
  have exactly : ((Text.ofDigits (digits c.number) * unitsPerOne : Nat) : ℚ) /
      (10 ^ places c.number : Nat) = c.value * unitsPerOne := by
    rw [value, Nat.cast_mul, Nat.cast_pow]
    exact (div_mul_eq_mul_div ..).symm
  rw [exactly] at number
  exact (number.scale positive).mono below above

theorem Rounded.add {x : Binary64} {t s : ℚ} {j : Nat} (rounded : Rounded x t s j) (two : 2 ≤ j)
    (s_nonneg : 0 ≤ s) (c : Component) :
    Rounded (x.add c.amount) (t + c.nanos) (s + slack) (j + 1) := by
  obtain ⟨below, above⟩ := cost_of_sum (t := t) roundoff_pos roundoff_lt_one two s_nonneg
    c.nanos_nonneg slack_nonneg
  have sum := Between.add rounded c.rounded_amount
  rw [← add_mul, ← add_mul, mul_right_comm, mul_right_comm _ (unitsPerOne : ℚ)] at sum
  exact sum.mono (mul_le_mul_of_nonneg_right below one_pos.le)
    (mul_le_mul_of_nonneg_right above one_pos.le)

theorem rounded_sumOnto (cs : List Component) {x : Binary64} {t s : ℚ} {j : Nat} (two : 2 ≤ j)
    (s_nonneg : 0 ≤ s) (rounded : Rounded x t s j) :
    Rounded (sumOnto x cs) (t + total cs) (s + cs.length * slack) (j + cs.length) := by
  induction cs generalizing x t s j with
  | nil => simpa [sumOnto] using rounded
  | cons c cs ih =>
      have next := ih (by omega) (add_nonneg s_nonneg slack_nonneg)
        (rounded.add two s_nonneg c)
      rw [total_cons, List.length_cons, Nat.cast_succ, add_one_mul, ← add_assoc t,
        add_comm _ slack, ← add_assoc s, Nat.add_comm cs.length, ← Nat.add_assoc]
      exact next

/-- The sum of components is their total but for a rounding of each and two more. -/
theorem rounded_sum (cs : List Component) :
    Rounded (sumOnto (.finite 0) cs) (total cs) (cs.length * slack) (cs.length + 2) := by
  have zero : Rounded (.finite 0) 0 0 2 := by
    refine .finite ?_ ?_
    · rw [zero_mul, sub_zero, zero_mul, Nat.cast_zero]
    · rw [add_zero, zero_mul, zero_mul, Nat.cast_zero]
  simpa [Nat.add_comm 2] using rounded_sumOnto cs (Nat.le_refl 2) (le_refl 0) zero

/-! ## The range -/

private theorem cast_range (k : Nat) : ((2 ^ k * unitsPerOne : Nat) : ℚ) = 2 ^ k * unitsPerOne := by
  rw [Nat.cast_mul, Nat.cast_pow, Nat.cast_ofNat]

private theorem units_le {units : Nat} (inside : ¬OutOfRange (.finite units)) :
    (units : ℚ) ≤ 2 ^ 64 * unitsPerOne := by
  rw [← cast_range]
  exact Nat.cast_le.mpr (Nat.le_of_not_lt fun large => inside (.inr ⟨units, rfl, large⟩))

private theorem lt_of_outOfRange {x : Binary64} {low high : ℚ} (outside : OutOfRange x)
    (between : Between x low high) : 2 ^ 64 * unitsPerOne < high := by
  rw [← cast_range]
  cases between with
  | finite _ above =>
      obtain ⟨_, same, large⟩ := outside.resolve_left (by simp)
      cases same
      exact (Nat.cast_lt.mpr large).trans_le above
  | infinite beyond =>
      have more : 2 ^ 64 * unitsPerOne < 2 ^ 65 * unitsPerOne :=
        Nat.mul_lt_mul_of_pos_right (by decide) unitsPerOne_pos
      have limit : 2 ^ 65 * unitsPerOne ≤ Binary64.unitsLimit :=
        Binary64.mul_unitsPerOne_le (by decide)
      exact (Nat.cast_lt.mpr (more.trans_le limit)).trans_le beyond

/-- The sum of components is out of range only if their total is, but for what rounding costs, and
in range only if their total is. -/
theorem range_of_total (cs : List Component) :
    (OutOfRange (sumOnto (.finite 0) cs) →
      2 ^ 64 < (total cs + cs.length * slack) * (1 + roundoff) ^ (cs.length + 2)) ∧
    (¬OutOfRange (sumOnto (.finite 0) cs) →
      total cs * (1 - roundoff) ^ (cs.length + 2) - cs.length * slack ≤ 2 ^ 64) := by
  have rounded := rounded_sum cs
  unfold Rounded at rounded
  generalize sumOnto (.finite 0) cs = sum at rounded ⊢
  constructor
  · intro outside
    exact lt_of_mul_lt_mul_right (lt_of_outOfRange outside rounded) one_pos.le
  · intro inside
    cases rounded with
    | finite below => exact le_of_mul_le_mul_right (below.trans (units_le inside)) one_pos
    | infinite => exact absurd (.inl rfl) inside

/-- A text of components denotes nothing only if their total is out of range, and else their total,
but for what rounding costs. -/
theorem length_of_total {text : String} {cs : List Component} (some_component : cs ≠ [])
    (same : Text.trim text.toList = spelled cs) :
    (parse? text = none →
      2 ^ 64 < (total cs + cs.length * slack) * (1 + roundoff) ^ (cs.length + 2)) ∧
    ∀ length, parse? text = some length →
      total cs * (1 - roundoff) ^ (cs.length + 2) - cs.length * slack - 1 ≤ length.nanos ∧
        length.nanos ≤
          (total cs + cs.length * slack) * (1 + roundoff) ^ (cs.length + 2) + 1 / 2 := by
  rw [parse?_of_spelled some_component same, ofSum?_eq_none_iff]
  refine ⟨(range_of_total cs).1, fun length read => ?_⟩
  have inside : ¬OutOfRange (sumOnto (.finite 0) cs) := by
    rw [← ofSum?_eq_none_iff, read]
    simp
  obtain ⟨units, finite, cut⟩ := ofSum?_of_range inside
  cases read.symm.trans cut
  have rounded := rounded_sum cs
  rw [finite] at inside
  rw [Rounded, finite] at rounded
  have nearest := abs_le.mp (Binary64.roundHalfUp_near units unitsPerOne_pos)
  have largest : (units : ℚ) / unitsPerOne ≤ 2 ^ 64 := (div_le_iff₀ one_pos).mpr (units_le inside)
  cases rounded with
  | finite below above =>
      have lower := (le_div_iff₀ one_pos).mpr below
      have upper := (div_le_iff₀ one_pos).mpr above
      generalize (units : ℚ) / unitsPerOne = value at nearest largest lower upper
      generalize Binary64.roundHalfUp units unitsPerOne = whole at nearest
      dsimp only
      rw [Nat.cast_min]
      constructor
      · have cap : value - 1 ≤ ((2 ^ 64 - 1 : Nat) : ℚ) := by
          norm_num at largest ⊢
          linarith
        exact le_min (by linarith) (by linarith)
      · exact (min_le_left _ _).trans (by linarith)

end Broadcast.Duration
