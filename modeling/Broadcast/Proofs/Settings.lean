import Broadcast.Proofs.Data.Records
import Broadcast.Proofs.Word
import Broadcast.Settings

/-!
# Settings by name

Settings hold a number for each name, and nothing else. A value is read as settings exactly if the
number of each name is the one that the value lists for it, or the default where it lists none.
-/

namespace Broadcast

/-- A value is the one that is given, or the standard one if none is. -/
def IsGivenOr {α : Type} (given : α → Prop) (standard value : α) : Prop :=
  (∀ a, given a → value = a) ∧ ((∀ a, ¬given a) → value = standard)

/-- The names of settings. -/
inductive Setting
  | workers
  | maxRetries
  | ratePerSecond
  | channelThreshold
  | progressMillis
  | removalConcurrency
  | drainMillis
deriving DecidableEq

namespace Setting

/-- All of them, in the order of a record. -/
def all : List Setting :=
  [workers, maxRetries, ratePerSecond, channelThreshold, progressMillis, removalConcurrency,
   drainMillis]

/-- The name in documents. -/
def key : Setting → String
  | workers => "workers"
  | maxRetries => "max_retries"
  | ratePerSecond => "default_rate_per_second"
  | channelThreshold => "channel_id_threshold"
  | progressMillis => "progress_interval_ms"
  | removalConcurrency => "removal_concurrency"
  | drainMillis => "removal_drain_timeout_ms"

/-- The name of the variable that overrides the setting. -/
def overrideName : Setting → String
  | workers => "BROADCAST_WORKERS"
  | maxRetries => "BROADCAST_MAX_RETRIES"
  | ratePerSecond => "BROADCAST_RATE_PER_SECOND"
  | channelThreshold => "BROADCAST_CHANNEL_ID_THRESHOLD"
  | progressMillis => "BROADCAST_PROGRESS_INTERVAL_MS"
  | removalConcurrency => "BROADCAST_REMOVAL_CONCURRENCY"
  | drainMillis => "BROADCAST_REMOVAL_DRAIN_TIMEOUT_MS"

/-- The least number that a setting can be. -/
def least : Setting → Int
  | channelThreshold => -(2 ^ 63)
  | _ => 0

/-- The least number that is too large for a setting. -/
def limit : Setting → Int
  | maxRetries | ratePerSecond => 2 ^ 32
  | channelThreshold => 2 ^ 63
  | _ => 2 ^ 64

/-- A setting can be a number. -/
def Fits (k : Setting) (z : Int) : Prop :=
  k.least ≤ z ∧ z < k.limit

instance (k : Setting) (z : Int) : Decidable (k.Fits z) :=
  inferInstanceAs (Decidable (_ ∧ _))

theorem find?_key (k : Setting) : all.find? (·.key = k.key) = some k := by
  cases k <;> rfl

theorem key_injective : Function.Injective key := by
  intro k l same
  have found := find?_key k
  rw [same, find?_key l] at found
  exact (Option.some.inj found).symm

end Setting

namespace Settings

theorem names_eq : names = Setting.all.map Setting.key := rfl

/-- The number of a setting. -/
def value (s : Settings) : Setting → Int
  | .workers => s.workers.toNat
  | .maxRetries => s.maxRetries.toNat
  | .ratePerSecond => s.ratePerSecond.toNat
  | .channelThreshold => s.channelThreshold.toInt
  | .progressMillis => s.progressMillis.toNat
  | .removalConcurrency => s.removalConcurrency.toNat
  | .drainMillis => s.drainMillis.toNat

theorem ext_value {s t : Settings} (same : ∀ k, s.value k = t.value k) : s = t := by
  have word64 {v w : UInt64} (same : (v.toNat : Int) = w.toNat) : v = w :=
    UInt64.toNat_inj.mp (Int.natCast_inj.mp same)
  have word32 {v w : UInt32} (same : (v.toNat : Int) = w.toNat) : v = w :=
    UInt32.toNat_inj.mp (Int.natCast_inj.mp same)
  cases s
  cases t
  congr 1
  · exact word64 (same .workers)
  · exact word32 (same .maxRetries)
  · exact word32 (same .ratePerSecond)
  · exact Int64.toInt_inj.mp (same .channelThreshold)
  · exact word64 (same .progressMillis)
  · exact word64 (same .removalConcurrency)
  · exact word64 (same .drainMillis)

theorem exists_value_eq {number : Setting → Int} (fits : ∀ k : Setting, k.Fits (number k)) :
    ∃ s : Settings, ∀ k, s.value k = number k := by
  obtain ⟨workers, h₁⟩ := Word.exists_unsigned64_iff.mpr (fits .workers)
  obtain ⟨retries, h₂⟩ := Word.exists_unsigned32_iff.mpr (fits .maxRetries)
  obtain ⟨rate, h₃⟩ := Word.exists_unsigned32_iff.mpr (fits .ratePerSecond)
  obtain ⟨threshold, h₄⟩ := Word.exists_signed64_iff.mpr (fits .channelThreshold)
  obtain ⟨progress, h₅⟩ := Word.exists_unsigned64_iff.mpr (fits .progressMillis)
  obtain ⟨removals, h₆⟩ := Word.exists_unsigned64_iff.mpr (fits .removalConcurrency)
  obtain ⟨drain, h₇⟩ := Word.exists_unsigned64_iff.mpr (fits .drainMillis)
  refine ⟨⟨workers, retries, rate, threshold, progress, removals, drain⟩, fun k => ?_⟩
  cases k <;> assumption

theorem fits_value (s : Settings) (k : Setting) : k.Fits (s.value k) := by
  cases k with
  | maxRetries | ratePerSecond => exact Word.exists_unsigned32_iff.mp ⟨_, rfl⟩
  | channelThreshold => exact Word.exists_signed64_iff.mp ⟨_, rfl⟩
  | workers | progressMillis | removalConcurrency | drainMillis =>
      exact Word.exists_unsigned64_iff.mp ⟨_, rfl⟩

private theorem elim_eq_some_iff {α : Type} {word? : Data → Option α} {number : α → Int}
    (reads : ∀ d w, word? d = some w ↔ d = .int (number w))
    (distinct : ∀ v w, number v = number w → v = w) (column : Option Data) (standard w : α) :
    column.elim (some standard) word? = some w ↔
      column.getD (.int (number standard)) = .int (number w) := by
  cases column with
  | none =>
      rw [Option.elim_none, Option.getD_none, Option.some.injEq, Data.int.injEq]
      exact ⟨congrArg number, distinct _ _⟩
  | some d => exact reads d w

/-- A value is read as settings exactly if each column lists the number of its setting, or none and
the number is the default. -/
theorem read?_eq_some_iff {demand : Data.Demand} {d : Data} {column : Setting → Option Data}
    (listed : d.record? demand names = some (Setting.all.map column)) {s : Settings} :
    read? demand d = some s ↔
      ∀ k, (column k).getD (.int (({} : Settings).value k)) = .int (s.value k) := by
  have unsigned64 := elim_eq_some_iff (fun _ _ => Data.unsigned64?_eq_some_iff)
    fun v w same => UInt64.toNat_inj.mp (Int.natCast_inj.mp same)
  have unsigned32 := elim_eq_some_iff (fun _ _ => Data.unsigned32?_eq_some_iff)
    fun v w same => UInt32.toNat_inj.mp (Int.natCast_inj.mp same)
  have signed64 := elim_eq_some_iff (fun _ _ => Data.signed64?_eq_some_iff)
    fun v w => Int64.toInt_inj.mp
  rw [read?, listed]
  simp only [Setting.all, List.map_cons, List.map_nil, Option.bind_eq_bind, Option.bind_some,
    Option.bind_eq_some_iff, Option.some.injEq, unsigned64, unsigned32, signed64]
  constructor
  · rintro ⟨workers, h₁, retries, h₂, rate, h₃, threshold, h₄, progress, h₅, removals, h₆, drain,
      h₇, rfl⟩ k
    cases k <;> assumption
  · intro each
    exact ⟨_, each .workers, _, each .maxRetries, _, each .ratePerSecond, _,
      each .channelThreshold, _, each .progressMillis, _, each .removalConcurrency, _,
      each .drainMillis, rfl⟩

/-- Settings that were read hold what the value lists for them, and the default of the others. -/
theorem value_of_read? {demand : Data.Demand} {d : Data} {s : Settings}
    (read : read? demand d = some s) (k : Setting) :
    (d.part? names k.key).getD (.int (({} : Settings).value k)) = .int (s.value k) := by
  obtain ⟨columns, listed, -⟩ := Option.bind_eq_some_iff.mp read
  have parts : columns = Setting.all.map fun k => d.part? names k.key := by
    rw [Data.record?_eq_some (by decide) listed, names_eq, List.map_map]
    rfl
  exact (read?_eq_some_iff (parts ▸ listed)).mp read k

end Settings

end Broadcast
