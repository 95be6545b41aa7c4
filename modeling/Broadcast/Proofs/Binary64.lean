import Broadcast.Binary64
import Mathlib.Algebra.Order.Field.Rat
import Mathlib.Data.Nat.Cast.Order.Field
import Mathlib.Tactic.FieldSimp
import Mathlib.Tactic.Linarith
import Mathlib.Tactic.Positivity
import Mathlib.Tactic.Ring

/-!
# How far rounded numbers are off

A quotient rounded to a whole number is off by half at most. So a number is off by at most half of
the spacing when it is rounded to the format: relatively by `2 ^ -53`, except near zero, where half
a unit may come on top. Below 128 this is at most `2 ^ -47`, and a sum is off by this much more than
its parts.
-/

namespace Broadcast.Binary64

theorem roundHalfEven_near (num : Nat) {den : Nat} (positive : 0 < den) :
    |(roundHalfEven num den : ℚ) - num / den| ≤ 1 / 2 := by
  have parts := Nat.div_add_mod num den
  have less := Nat.mod_lt num positive
  have bounds : 2 * num ≤ 2 * (roundHalfEven num den * den) + den ∧
      2 * (roundHalfEven num den * den) ≤ 2 * num + den := by
    rw [Nat.mul_comm den] at parts
    unfold roundHalfEven
    dsimp only
    split_ifs with down
    · omega
    · rw [Nat.add_mul, Nat.one_mul]
      omega
  have cast_pos : (0 : ℚ) < den := by exact_mod_cast positive
  have below : (2 * num : ℚ) ≤ 2 * (roundHalfEven num den * den) + den := by
    exact_mod_cast bounds.1
  have above : (2 * (roundHalfEven num den * den) : ℚ) ≤ 2 * num + den := by
    exact_mod_cast bounds.2
  have upper : (num : ℚ) / den ≤ roundHalfEven num den + 1 / 2 :=
    (div_le_iff₀ cast_pos).mpr (by linarith)
  have lower : (roundHalfEven num den : ℚ) - 1 / 2 ≤ num / den :=
    (le_div_iff₀ cast_pos).mpr (by linarith)
  exact abs_le.mpr ⟨by linarith, by linarith⟩

theorem roundHalfUp_near (num : Nat) {den : Nat} (positive : 0 < den) :
    |(roundHalfUp num den : ℚ) - num / den| ≤ 1 / 2 := by
  have cast_pos : (0 : ℚ) < den := by exact_mod_cast positive
  have twice_pos : 0 < 2 * den := Nat.mul_pos (by decide) positive
  have below : (2 * num + den : ℚ) < (roundHalfUp num den + 1) * (2 * den) := by
    exact_mod_cast (Nat.div_lt_iff_lt_mul twice_pos).mp (Nat.lt_succ_self (roundHalfUp num den))
  have above : (roundHalfUp num den * (2 * den) : ℚ) ≤ 2 * num + den := by
    exact_mod_cast Nat.div_mul_le_self (2 * num + den) (2 * den)
  have upper : (num : ℚ) / den ≤ roundHalfUp num den + 1 / 2 :=
    (div_le_iff₀ cast_pos).mpr (by linarith)
  have lower : (roundHalfUp num den : ℚ) - 1 / 2 ≤ num / den :=
    (le_div_iff₀ cast_pos).mpr (by linarith)
  exact abs_le.mpr ⟨by linarith, by linarith⟩

theorem spacing_le {units k : Nat} (small : units < 2 ^ (53 + k)) : spacing units ≤ 2 ^ k := by
  refine Nat.pow_le_pow_right (by decide) ?_
  by_cases zero : units = 0
  · rw [zero, Nat.log2_zero]
    omega
  · have := (Nat.log2_lt zero).mpr small
    omega

/-- A finite number that is at most so far from a given one. -/
def Near (x : Binary64) (q bound : ℚ) : Prop :=
  ∃ units, x = finite units ∧ |(units : ℚ) / unitsPerOne - q| ≤ bound

theorem exists_scale : ∃ m n, unitsPerOne = 2 ^ (m + 47) ∧ unitsLimit = 2 ^ (n + (m + 47)) ∧
    1024 ≤ n := by
  -- The exponents are kept as variables, so that no power of this size is computed.
  obtain ⟨m, size⟩ : ∃ m, m + 47 = 1074 := ⟨1027, rfl⟩
  obtain ⟨n, size'⟩ : ∃ n, n = 1024 := ⟨_, rfl⟩
  refine ⟨m, n, ?_, ?_, size'.ge⟩
  · rw [size]
    rfl
  · rw [size, size']
    rfl

theorem mul_unitsPerOne_le {k : Nat} (small : k ≤ 1024) : 2 ^ k * unitsPerOne ≤ unitsLimit := by
  obtain ⟨m, n, one, limit, large⟩ := exists_scale
  rw [one, limit, ← Nat.pow_add]
  exact Nat.pow_le_pow_right (by decide) (by omega)

private theorem roundHalfEven_step {num den step : Nat} (positive : 0 < den)
    (step_pos : 0 < step) :
    |((roundHalfEven num (den * step) * step : Nat) : ℚ) - num / den| ≤ step / 2 := by
  have near := roundHalfEven_near num (Nat.mul_pos positive step_pos)
  generalize roundHalfEven num (den * step) = rounded at near
  have den_pos : (0 : ℚ) < den := by exact_mod_cast positive
  have cast_pos : (0 : ℚ) < step := by exact_mod_cast step_pos
  have scaled : ((rounded * step : Nat) : ℚ) - num / den =
      (rounded - num / (den * step : Nat)) * step := by
    push_cast
    field_simp
  rw [scaled, abs_mul, abs_of_pos cast_pos]
  calc |(rounded : ℚ) - num / (den * step : Nat)| * step
    _ ≤ 1 / 2 * step := mul_le_mul_of_nonneg_right near cast_pos.le
    _ = step / 2 := by ring

private theorem lt_unitsLimit_of_near {k units : Nat} {q : ℚ} (one : unitsPerOne = 2 ^ (k + 47))
    (below : q < 2 ^ (53 + (k + 1))) (off : |(units : ℚ) - q| ≤ 2 ^ k) : units < unitsLimit := by
  have limit : 2 ^ (k + 55) ≤ unitsLimit := by
    have eight : 2 ^ (k + 55) = 2 ^ 8 * unitsPerOne := by
      rw [one]
      ring
    rw [eight]
    exact mul_unitsPerOne_le (by decide)
  have less : (units : ℚ) < 2 ^ (k + 55) :=
    calc (units : ℚ)
      _ ≤ q + 2 ^ k := by linarith [(abs_le.mp off).2]
      _ < 2 ^ (53 + (k + 1)) + 2 ^ k := by linarith
      _ = (2 ^ 54 + 1) * 2 ^ k := by ring
      _ ≤ 2 ^ 55 * 2 ^ k := mul_le_mul_of_nonneg_right (by norm_num) (by positivity)
      _ = 2 ^ (k + 55) := by ring
  exact lt_of_lt_of_le (by exact_mod_cast less) limit

/-- A number below 128 is off by half of the spacing there at most when it is rounded. -/
theorem near_ofUnits {num den : Nat} (positive : 0 < den)
    (small : num < 128 * unitsPerOne * den) :
    Near (ofUnits num den) (num / den / unitsPerOne) (1 / 2 ^ 47) := by
  obtain ⟨k, -, one, -⟩ := exists_scale
  have range : 128 * unitsPerOne = 2 ^ (53 + (k + 1)) := by
    rw [one]
    ring
  rw [range] at small
  have step_le : spacing (num / den) ≤ 2 ^ (k + 1) :=
    spacing_le ((Nat.div_lt_iff_lt_mul positive).mpr small)
  have step_pos : 0 < spacing (num / den) := Nat.two_pow_pos _
  have half : |((roundHalfEven num (den * spacing (num / den)) * spacing (num / den) : Nat) : ℚ) -
      num / den| ≤ spacing (num / den) / 2 := roundHalfEven_step positive step_pos
  unfold ofUnits
  dsimp only
  generalize spacing (num / den) = step at step_le half
  generalize roundHalfEven num (den * step) = rounded at half
  have cast_le : (step : ℚ) ≤ 2 ^ (k + 1) := by exact_mod_cast step_le
  have off : |((rounded * step : Nat) : ℚ) - num / den| ≤ 2 ^ k := by
    rw [pow_succ] at cast_le
    linarith
  have below : (num : ℚ) / den < 2 ^ (53 + (k + 1)) := by
    rw [div_lt_iff₀ (by exact_mod_cast positive)]
    exact_mod_cast small
  refine ⟨rounded * step, if_pos (lt_unitsLimit_of_near one below off), ?_⟩
  have one_pos : (0 : ℚ) < unitsPerOne := by
    rw [one]
    positivity
  calc |((rounded * step : Nat) : ℚ) / unitsPerOne - num / den / unitsPerOne|
    _ = |((rounded * step : Nat) : ℚ) - num / den| / unitsPerOne := by
      rw [← sub_div, abs_div, abs_of_pos one_pos]
    _ ≤ 2 ^ k / unitsPerOne := div_le_div_of_nonneg_right off one_pos.le
    _ = 1 / 2 ^ 47 := by
      rw [one]
      push_cast
      field_simp
      ring

theorem unitsPerOne_pos : 0 < unitsPerOne := by
  obtain ⟨k, -, one, -⟩ := exists_scale
  rw [one]
  exact Nat.two_pow_pos _

theorem near_ofRatio {num den : Nat} (positive : 0 < den) (small : num < 128 * den) :
    Near (ofRatio num den) (num / den) (1 / 2 ^ 47) := by
  have one_pos : (0 : ℚ) < unitsPerOne := by exact_mod_cast unitsPerOne_pos
  have below : num * unitsPerOne < 128 * unitsPerOne * den := by
    rw [Nat.mul_right_comm]
    exact Nat.mul_lt_mul_of_pos_right small unitsPerOne_pos
  have same : ((num * unitsPerOne : Nat) : ℚ) / den / unitsPerOne = num / den := by
    push_cast
    field_simp
  exact same ▸ near_ofUnits positive below

/-- A sum is off by as much as its parts and by its own rounding. -/
theorem Near.add {x y : Binary64} {p q δ ε : ℚ} (near : Near x p δ) (near' : Near y q ε)
    (small : p + q + δ + ε < 128) : Near (x.add y) (p + q) (δ + ε + 1 / 2 ^ 47) := by
  obtain ⟨a, rfl, off⟩ := near
  obtain ⟨b, rfl, off'⟩ := near'
  have one_pos : (0 : ℚ) < unitsPerOne := by exact_mod_cast unitsPerOne_pos
  have sum : ((a + b : Nat) : ℚ) / unitsPerOne = a / unitsPerOne + b / unitsPerOne := by
    push_cast
    ring
  have below : a + b < 128 * unitsPerOne * 1 := by
    have less : ((a + b : Nat) : ℚ) / unitsPerOne < 128 := by
      linarith [(abs_le.mp off).2, (abs_le.mp off').2]
    rw [div_lt_iff₀ one_pos] at less
    rw [Nat.mul_one]
    exact_mod_cast less
  obtain ⟨units, rounded, off''⟩ := near_ofUnits Nat.one_pos below
  refine ⟨units, rounded, ?_⟩
  rw [Nat.cast_one, div_one, sum] at off''
  rw [abs_le] at *
  constructor <;> linarith

/-! ## Relative bounds -/

/-- Half of the spacing, relative to the numbers it is found at. -/
def roundoff : ℚ := 1 / 2 ^ 53

theorem roundoff_pos : 0 < roundoff := by
  norm_num [roundoff]

theorem roundoff_lt_one : roundoff < 1 := by
  norm_num [roundoff]

/-- The spacing is one unit near zero, and a number has 53 binary digits everywhere else. -/
theorem spacing_eq_one_or (units : Nat) : spacing units = 1 ∨ spacing units * 2 ^ 52 ≤ units := by
  unfold spacing
  by_cases few : Nat.log2 units + 1 ≤ 53
  · left
    rw [Nat.sub_eq_zero_of_le few, pow_zero]
  · right
    have nonzero : units ≠ 0 := by
      rintro rfl
      simp at few
    rw [← pow_add, show Nat.log2 units + 1 - 53 + 52 = Nat.log2 units by omega]
    exact Nat.log2_self_le nonzero

/-- Rounding to the format is rounding to a whole number of units near zero, and relatively exact
everywhere else. -/
private theorem ofUnits_eq (num : Nat) {den : Nat} (positive : 0 < den) : ∃ n : Nat,
    ofUnits num den = (if n < unitsLimit then finite n else infinite) ∧
      (n = roundHalfEven num den ∨ |(n : ℚ) - num / den| ≤ num / den * roundoff) := by
  refine ⟨roundHalfEven num (den * spacing (num / den)) * spacing (num / den), rfl, ?_⟩
  have step_pos : 0 < spacing (num / den) := Nat.two_pow_pos _
  have half : |((roundHalfEven num (den * spacing (num / den)) * spacing (num / den) : Nat) : ℚ) -
      num / den| ≤ spacing (num / den) / 2 := roundHalfEven_step positive step_pos
  -- Near zero the spacing is one unit; elsewhere half of it is small beside the number.
  rcases spacing_eq_one_or (num / den) with one | digits
  · left
    rw [one, Nat.mul_one, Nat.mul_one]
  · right
    have cast_le : ((spacing (num / den) * 2 ^ 52 : Nat) : ℚ) ≤ num / den :=
      le_trans (by exact_mod_cast digits) Nat.cast_div_le
    push_cast at cast_le
    refine half.trans ?_
    rw [roundoff]
    linarith

/-- A number lies between two bounds, which are counted in units. An infinite one says only that the
upper bound is beyond the format. -/
inductive Between : Binary64 → ℚ → ℚ → Prop
  | finite {n : Nat} {low high : ℚ} : low ≤ n → n ≤ high → Between (.finite n) low high
  | infinite {low high : ℚ} : unitsLimit ≤ high → Between .infinite low high

namespace Between

variable {x y : Binary64} {low high low' high' : ℚ}

theorem mono (between : Between x low high) (lower : low' ≤ low) (upper : high ≤ high') :
    Between x low' high' := by
  cases between with
  | finite below above => exact .finite (lower.trans below) (above.trans upper)
  | infinite beyond => exact .infinite (beyond.trans upper)

theorem high_nonneg (between : Between x low high) : 0 ≤ high := by
  cases between with
  | finite _ above => exact (Nat.cast_nonneg _).trans above
  | infinite beyond => exact (Nat.cast_nonneg _).trans beyond

private theorem of_nat {n : Nat} (below : low ≤ n) (above : n ≤ high) :
    Between (if n < unitsLimit then .finite n else .infinite) low high := by
  split
  next => exact .finite below above
  next beyond => exact .infinite ((Nat.cast_le.mpr (Nat.le_of_not_lt beyond)).trans above)

/-- Rounding a quotient costs half a unit at most besides what it costs relatively. -/
theorem ofUnits (num : Nat) {den : Nat} (positive : 0 < den) : Between (.ofUnits num den)
    (num / den * (1 - roundoff) - 1 / 2) (num / den * (1 + roundoff) + 1 / 2) := by
  obtain ⟨n, same, off⟩ := ofUnits_eq num positive
  have nonneg : (0 : ℚ) ≤ num / den * roundoff :=
    mul_nonneg (by positivity) roundoff_pos.le
  have bounds : |(n : ℚ) - num / den| ≤ num / den * roundoff + 1 / 2 := by
    rcases off with rfl | off
    · linarith [roundHalfEven_near num positive]
    · linarith
  rw [abs_le] at bounds
  rw [same]
  exact of_nat (by linarith) (by linarith)

theorem ofUnits_one {num : Nat} (below : low ≤ num) (above : num ≤ high) :
    Between (.ofUnits num 1) (low * (1 - roundoff)) (high * (1 + roundoff)) := by
  obtain ⟨n, same, off⟩ := ofUnits_eq num Nat.one_pos
  have nonneg : (0 : ℚ) ≤ num * roundoff := mul_nonneg num.cast_nonneg roundoff_pos.le
  have bounds : |(n : ℚ) - num| ≤ num * roundoff := by
    rcases off with rfl | off
    · have exactly : roundHalfEven num 1 = num := by simp [roundHalfEven, Nat.mod_one]
      rw [exactly, sub_self, abs_zero]
      exact nonneg
    · simpa using off
  rw [abs_le] at bounds
  have lower : low * (1 - roundoff) ≤ num * (1 - roundoff) :=
    mul_le_mul_of_nonneg_right below (by linarith [roundoff_lt_one])
  have upper : num * (1 + roundoff) ≤ high * (1 + roundoff) :=
    mul_le_mul_of_nonneg_right above (by linarith [roundoff_pos])
  rw [same]
  exact of_nat (by linarith) (by linarith)

private theorem beyond_roundoff (beyond : (unitsLimit : ℚ) ≤ high) :
    (unitsLimit : ℚ) ≤ high * (1 + roundoff) :=
  beyond.trans (le_mul_of_one_le_right ((Nat.cast_nonneg _).trans beyond)
    (by linarith [roundoff_pos]))

theorem scale (between : Between x low high) {k : Nat} (positive : 0 < k) :
    Between (x.scale k) (low * k * (1 - roundoff)) (high * k * (1 + roundoff)) := by
  cases between with
  | @finite n _ _ below above =>
      rw [Binary64.scale]
      apply ofUnits_one <;> rw [Nat.cast_mul]
      · exact mul_le_mul_of_nonneg_right below k.cast_nonneg
      · exact mul_le_mul_of_nonneg_right above k.cast_nonneg
  | infinite beyond =>
      have one_le : (1 : ℚ) ≤ k := by exact_mod_cast positive
      have nonneg : 0 ≤ high := (Nat.cast_nonneg _).trans beyond
      exact .infinite (beyond_roundoff (beyond.trans (le_mul_of_one_le_right nonneg one_le)))

theorem add (between : Between x low high) (between' : Between y low' high') :
    Between (x.add y) ((low + low') * (1 - roundoff)) ((high + high') * (1 + roundoff)) := by
  have nonneg := between.high_nonneg
  have nonneg' := between'.high_nonneg
  cases between with
  | infinite beyond => exact .infinite (beyond_roundoff (beyond.trans (by linarith)))
  | finite below above =>
      cases between' with
      | infinite beyond => exact .infinite (beyond_roundoff (beyond.trans (by linarith)))
      | finite below' above' =>
          rw [Binary64.add]
          apply ofUnits_one <;> rw [Nat.cast_add] <;> linarith

end Between

end Broadcast.Binary64
