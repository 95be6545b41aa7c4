import Broadcast.Duration.Compact
import Broadcast.Proofs.Binary64
import Broadcast.Proofs.Duration.Amounts
import Mathlib.Tactic.SplitIfs

/-!
# What compact texts say

A compact text is made of components in one of six shapes. What it says is cut down to whole
microseconds, milliseconds or seconds, or rounded to tenths of a second from one second up to a
minute. It is less than one in its last place away from the length of time, and never falls when
the length of time grows. Two things do not fit the shapes: a text of no time for less than a
microsecond, and a text of sixty seconds for less than a minute.
-/

namespace Broadcast.Duration

/-! ## Tenths of a second -/

/-- Below a minute, the seconds as a floating point number are off by three roundings at most. -/
theorem near_inSeconds {d : Duration} (small : d.nanos < 60000000000) :
    Binary64.Near d.inSeconds (d.nanos / 1000000000) (3 / 2 ^ 47) := by
  have less : d.secs < 128 * 1 := by
    unfold secs
    omega
  have fraction : d.subsecNanos < 128 * 1000000000 := by
    unfold subsecNanos
    omega
  have parts : d.nanos = 1000000000 * d.secs + d.subsecNanos :=
    (Nat.div_add_mod d.nanos 1000000000).symm
  have sum : (d.secs : ℚ) / (1 : Nat) + d.subsecNanos / (1000000000 : Nat) =
      d.nanos / 1000000000 := by
    rw [parts]
    push_cast
    ring
  have below : (d.nanos : ℚ) < 60000000000 := by exact_mod_cast small
  have near := (Binary64.near_ofRatio Nat.one_pos less).add
    (Binary64.near_ofRatio (by decide) fraction) (by rw [sum]; linarith)
  rw [sum] at near
  have bound : (1 / 2 ^ 47 + 1 / 2 ^ 47 + 1 / 2 ^ 47 : ℚ) = 3 / 2 ^ 47 := by ring
  rwa [bound] at near

/-- Below a minute, the tenths of a second are nearest to the length of time. -/
theorem tenths_near {d : Duration} (small : d.nanos < 60000000000) :
    d.nanos ≤ 100000000 * d.tenths + 50000000 ∧
      100000000 * d.tenths ≤ d.nanos + 50000000 := by
  obtain ⟨units, finite, near⟩ := near_inSeconds small
  have rounded : d.tenths = Binary64.roundHalfEven (units * 10) Binary64.unitsPerOne := by
    rw [tenths, finite, nearestTenths]
  have near' := Binary64.roundHalfEven_near (units * 10) Binary64.unitsPerOne_pos
  rw [← rounded, Nat.cast_mul, mul_div_right_comm] at near'
  push_cast at near'
  rw [abs_le] at near near'
  -- The three roundings together are far less than a nanosecond.
  have below : (d.nanos : ℚ) < 100000000 * d.tenths + 50000000 + 1 := by linarith
  have above : (100000000 * d.tenths : ℚ) < d.nanos + 50000000 + 1 := by linarith
  constructor
  · exact Nat.lt_succ_iff.mp (by exact_mod_cast below)
  · exact Nat.lt_succ_iff.mp (by exact_mod_cast above)

theorem sixty_le_tenths_iff {d : Duration} (small : d.nanos < 60000000000) :
    600 ≤ d.tenths ↔ 59950000000 ≤ d.nanos := by
  have near := tenths_near small
  rcases Nat.lt_trichotomy d.nanos 59950000000 with less | tie | more
  · omega
  · have rounded : tenths ⟨59950000000⟩ = 600 := by decide +kernel
    have same : d = ⟨59950000000⟩ := congrArg mk tie
    exact iff_of_true (same ▸ rounded.ge) tie.ge
  · omega

/-! ## Shapes -/

/-- The shapes of compact texts with the numbers in them. -/
inductive Shape
  | micros (n : Nat)
  | millis (n : Nat)
  | seconds (n : Nat)
  | tenths (n : Nat)
  | minutes (m s : Nat)
  | hours (h m s : Nat)
deriving DecidableEq

namespace Shape

/-- The components of a text of this shape. -/
def parts : Shape → List Component
  | micros n => [.whole n ("µs", 1000) (by decide)]
  | millis n => [.whole n ("ms", 1000000) (by decide)]
  | seconds n => [.whole n ("s", 1000000000) seconds_mem_units]
  | tenths n => [.tenths n]
  | minutes m s =>
      [.whole m ("m", 60 * 1000000000) (by decide), .whole s ("s", 1000000000) seconds_mem_units]
  | hours h m s =>
      [.whole h ("h", 3600 * 1000000000) (by decide), .whole m ("m", 60 * 1000000000) (by decide),
        .whole s ("s", 1000000000) seconds_mem_units]

/-- The nanoseconds that a text of this shape says. -/
def nanos : Shape → Nat
  | micros n => 1000 * n
  | millis n => 1000000 * n
  | seconds n => 1000000000 * n
  | tenths n => 100000000 * n
  | minutes m s => 1000000000 * (60 * m + s)
  | hours h m s => 1000000000 * (3600 * h + 60 * m + s)

/-- The nanoseconds of one in the last place of a text of this shape. -/
def place : Shape → Nat
  | micros _ => 1000
  | millis _ => 1000000
  | tenths _ => 100000000
  | seconds _ | minutes _ _ | hours _ _ _ => 1000000000

/-- A number of seconds or minutes in a text of this shape is sixty or more. -/
def Overfull : Shape → Prop
  | micros _ | millis _ => False
  | seconds n => 60 ≤ n
  | tenths n => 600 ≤ n
  | minutes m s | hours _ m s => 60 ≤ m ∨ 60 ≤ s

theorem parts_ne_nil (s : Shape) : s.parts ≠ [] := by
  cases s <;> exact List.cons_ne_nil _ _

theorem total_parts (s : Shape) : total s.parts = s.nanos := by
  cases s <;> simp [parts, nanos, Component.nanos] <;> ring

theorem exists_last (s : Shape) : ∃ c ∈ s.parts.getLast?, c.place = s.place := by
  cases s <;> exact ⟨_, rfl, by simp [place]⟩

theorem overfull_iff (s : Shape) :
    (∃ c ∈ s.parts, (c.unit.1 = "s" ∨ c.unit.1 = "m") ∧ 60 ≤ c.value) ↔ s.Overfull := by
  have tenths (n : Nat) : (60 : ℚ) ≤ n / 10 ↔ 600 ≤ n := by
    rw [le_div_iff₀ (by norm_num)]
    norm_num
  cases s <;> simp [parts, Overfull, tenths]

/-- The shape and its numbers are those of a length of time. -/
def Fits (d : Duration) : Shape → Prop
  | micros n => 0 < d.nanos ∧ d.nanos < 1000000 ∧ n = d.nanos / 1000
  | millis n => (d.nanos = 0 ∨ 1000000 ≤ d.nanos) ∧ d.nanos < 1000000000 ∧ n = d.nanos / 1000000
  | seconds n =>
      1000000000 ≤ d.nanos ∧ d.nanos < 60000000000 ∧ d.nanos % 1000000000 < 1000000 ∧
        n = d.nanos / 1000000000
  | tenths n => 1000000000 ≤ d.nanos ∧ d.nanos < 60000000000 ∧ n = d.tenths
  | minutes m s =>
      60000000000 ≤ d.nanos ∧ m < 60 ∧ s < 60 ∧ 60 * m + s = d.nanos / 1000000000
  | hours h m s =>
      60000000000 ≤ d.nanos ∧ m < 60 ∧ s < 60 ∧ 3600 * h + 60 * m + s = d.nanos / 1000000000

end Shape

/-- The shape of the compact text. -/
def shape (d : Duration) : Shape :=
  if d.millis < 1000 then
    if d.millis = 0 ∧ d.nanos ≠ 0 then .micros d.micros else .millis d.millis
  else if d.millis < 60000 then
    if d.millis % 1000 = 0 then .seconds d.secs else .tenths d.tenths
  else if d.secs / 3600 > 0 then .hours (d.secs / 3600) (d.secs % 3600 / 60) (d.secs % 60)
  else .minutes (d.secs % 3600 / 60) (d.secs % 60)

theorem consistsOf_compact (d : Duration) : ConsistsOf d.compact d.shape.parts := by
  refine ⟨d.shape.parts_ne_nil, ?_⟩
  unfold compact shape
  dsimp only
  generalize d.tenths = t
  split_ifs <;>
    simp only [Shape.parts, spelled, List.flatMap_cons, List.flatMap_nil, List.append_nil,
      Component.text_whole, Component.text_tenths, String.toList_append, List.append_assoc] <;>
    rfl

theorem fits_shape (d : Duration) : d.shape.Fits d := by
  unfold shape millis micros secs
  split_ifs <;> simp only [Shape.Fits, and_true] <;> omega

namespace Shape

variable {d e : Duration} {s t : Shape}

/-- A text is less than one in its last place away from the length of time. -/
theorem Fits.near (fits : s.Fits d) : |(s.nanos : ℚ) - d.nanos| < s.place := by
  have rounded := @tenths_near d
  have bounds : d.nanos < s.nanos + s.place ∧ s.nanos < d.nanos + s.place := by
    cases s <;> simp only [Fits, nanos, place] at * <;> omega
  have below : (d.nanos : ℚ) < s.nanos + s.place := by exact_mod_cast bounds.1
  have above : (s.nanos : ℚ) < d.nanos + s.place := by exact_mod_cast bounds.2
  exact abs_lt.mpr ⟨by linarith, by linarith⟩

/-- A text of a longer time does not say less: the bounds between the shapes are whole in the
places of both. -/
theorem Fits.mono (fits : s.Fits d) (fits' : t.Fits e) (less : d.nanos < e.nanos) :
    s.nanos ≤ t.nanos := by
  have rounded := @tenths_near d
  have rounded' := @tenths_near e
  cases s <;> cases t <;> simp only [Fits, nanos] at * <;> omega

theorem Fits.nanos_eq_zero_iff (fits : s.Fits d) : s.nanos = 0 ↔ d.nanos < 1000 := by
  have rounded := @tenths_near d
  cases s <;> simp only [Fits, nanos] at * <;> omega

theorem Fits.overfull_iff (fits : s.Fits d) :
    s.Overfull ↔ 59950000000 ≤ d.nanos ∧ d.nanos < 60000000000 := by
  have rounded := @sixty_le_tenths_iff d
  cases s <;> simp only [Fits, Overfull, false_iff] at * <;> omega

theorem Fits.minutes_iff (fits : s.Fits d) :
    (∃ c ∈ s.parts, c.unit.1 = "m" ∨ c.unit.1 = "h") ↔ 60000000000 ≤ d.nanos := by
  cases s with
  | minutes m s => exact iff_of_true (by simp [parts]) fits.1
  | hours h m s => exact iff_of_true (by simp [parts]) fits.1
  | _ =>
      simp only [Fits] at fits
      exact iff_of_false (by simp [parts]) (by omega)

end Shape

/-! ## What compact texts say -/

/-- A compact text is made of components in just one way. It says no time for less than a
microsecond. Only from the last twentieth of a second before a minute on, up to this minute, a
number of seconds or minutes in it is sixty or more. Minutes and hours are written from a minute
on. -/
theorem compact_texts_are_normal_but_below_bounds (d : Duration) :
    ∃ cs, ConsistsOf d.compact cs ∧ (∀ ds, ConsistsOf d.compact ds → ds = cs) ∧
      (total cs = 0 ↔ d.nanos < 1000) ∧
      ((∃ c ∈ cs, (c.unit.1 = "s" ∨ c.unit.1 = "m") ∧ 60 ≤ c.value) ↔
        59950000000 ≤ d.nanos ∧ d.nanos < 60000000000) ∧
      ((∃ c ∈ cs, c.unit.1 = "m" ∨ c.unit.1 = "h") ↔ 60000000000 ≤ d.nanos) := by
  have made := consistsOf_compact d
  have fits := fits_shape d
  refine ⟨_, made, fun ds other => other.unique made, ?_, ?_, fits.minutes_iff⟩
  · rw [Shape.total_parts, Nat.cast_eq_zero, fits.nanos_eq_zero_iff]
  · rw [Shape.overfull_iff, fits.overfull_iff]

/-- Some time is written as none, and less than a minute as sixty seconds. -/
theorem no_time_and_sixty_seconds_are_written :
    (⟨999⟩ ≠ zero ∧ ∃ cs, ConsistsOf (compact ⟨999⟩) cs ∧ total cs = 0) ∧
      ∃ cs, ConsistsOf (compact ⟨59950000000⟩) cs ∧ ∃ c ∈ cs, c.unit.1 = "s" ∧ c.value = 60 := by
  have micros : shape ⟨999⟩ = .micros 0 := by decide +kernel
  have tenths : shape ⟨59950000000⟩ = .tenths 600 := by decide +kernel
  have zero := consistsOf_compact ⟨999⟩
  have sixty := consistsOf_compact ⟨59950000000⟩
  rw [micros] at zero
  rw [tenths] at sixty
  refine ⟨⟨by decide, _, zero, ?_⟩, _, sixty, _, List.mem_cons_self, rfl, ?_⟩
  · rw [Shape.total_parts]
    rfl
  · rw [Component.value_tenths]
    norm_num

/-- A compact text is made of components in just one way. What it says is less than one in the last
place of the last number away from the length of time, and the text of a longer time does not say
less. -/
theorem compact_texts_are_faithful :
    (∀ d : Duration, ∃ cs, ConsistsOf d.compact cs ∧ (∀ ds, ConsistsOf d.compact ds → ds = cs) ∧
      ∃ c ∈ cs.getLast?, |total cs - d.nanos| < c.place) ∧
    ∀ d e : Duration, d.nanos ≤ e.nanos → ∀ cs ds, ConsistsOf d.compact cs →
      ConsistsOf e.compact ds → total cs ≤ total ds := by
  constructor
  · intro d
    have made := consistsOf_compact d
    obtain ⟨c, last, place⟩ := d.shape.exists_last
    refine ⟨_, made, fun ds other => other.unique made, c, last, ?_⟩
    rw [Shape.total_parts, place]
    exact (fits_shape d).near
  · intro d e le cs ds made made'
    obtain rfl := made.unique (consistsOf_compact d)
    obtain rfl := made'.unique (consistsOf_compact e)
    rw [Shape.total_parts, Shape.total_parts, Nat.cast_le]
    rcases Nat.lt_or_eq_of_le le with less | same
    · exact (fits_shape d).mono (fits_shape e) less
    · have equal : d = e := congrArg mk same
      rw [equal]

/-- Sixty seconds, shown just below a minute, are not more than a minute. -/
theorem compact_texts_are_faithful_around_minute :
    compact ⟨59999999999⟩ = "60.0s" ∧ compact ⟨60000000000⟩ = "1m0s" ∧
      ∃ cs ds, ConsistsOf "60.0s" cs ∧ ConsistsOf "1m0s" ds ∧ total cs ≤ total ds := by
  have below : compact ⟨59999999999⟩ = "60.0s" := by decide +kernel
  have minute : compact ⟨60000000000⟩ = "1m0s" := by decide +kernel
  obtain ⟨faithful, monotone⟩ := compact_texts_are_faithful
  obtain ⟨cs, made, -, -⟩ := faithful ⟨59999999999⟩
  obtain ⟨ds, made', -, -⟩ := faithful ⟨60000000000⟩
  have le := monotone _ _ (by decide) cs ds made made'
  exact ⟨below, minute, cs, ds, below ▸ made, minute ▸ made', le⟩

end Broadcast.Duration
