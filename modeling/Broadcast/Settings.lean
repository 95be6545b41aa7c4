import Broadcast.Duration
import Broadcast.Recipient
import Broadcast.Word

/-!
# Settings of a broadcast

How many workers deliver, how often a delivery is tried again, at which pace, and how progress and
removals are handled. A document may leave out any of them.
-/

namespace Broadcast

/-- The settings that every run of a dispatcher shares. -/
structure Settings where
  workers : UInt64 := 20
  maxRetries : UInt32 := 2
  ratePerSecond : UInt32 := 25
  channelThreshold : Int64 := Recipient.defaultThreshold
  progressMillis : UInt64 := 5000
  removalConcurrency : UInt64 := 8
  drainMillis : UInt64 := 10000
deriving DecidableEq, Inhabited, Repr

namespace Settings

/-- The pause between deliveries at the set rate, a rate of zero counting as one. -/
def defaultPause (s : Settings) : Duration :=
  ⟨1000000000 / max s.ratePerSecond.toNat 1⟩

/-- The time between two progress reports; zero turns them off. -/
def progressEvery? (s : Settings) : Option Duration :=
  if s.progressMillis = 0 then none else some (.ofMillis s.progressMillis.toNat)

/-- How long a run waits at its end for removals that are still going on. -/
def drainTimeout (s : Settings) : Duration :=
  .ofMillis s.drainMillis.toNat

/-- The names of the settings in documents, in their order. -/
def names : List String :=
  ["workers", "max_retries", "default_rate_per_second", "channel_id_threshold",
   "progress_interval_ms", "removal_concurrency", "removal_drain_timeout_ms"]

/-- The settings that a value lists, read as strictly as demanded; what it leaves out has its
default. -/
def read? (demand : Data.Demand) (d : Data) : Option Settings := do
  let columns ← d.record? demand names
  match columns with
  | [workers, retries, rate, threshold, progress, removals, drain] =>
    let standard : Settings := {}
    some {
      workers := ← workers.elim (some standard.workers) Data.unsigned64?
      maxRetries := ← retries.elim (some standard.maxRetries) Data.unsigned32?
      ratePerSecond := ← rate.elim (some standard.ratePerSecond) Data.unsigned32?
      channelThreshold := ← threshold.elim (some standard.channelThreshold) Data.signed64?
      progressMillis := ← progress.elim (some standard.progressMillis) Data.unsigned64?
      removalConcurrency := ← removals.elim (some standard.removalConcurrency) Data.unsigned64?
      drainMillis := ← drain.elim (some standard.drainMillis) Data.unsigned64? }
  | _ => none

/-- The settings that a value lists. -/
def ofData? (d : Data) : Option Settings :=
  read? .partly d

/-- The value that lists all settings. -/
def toData (s : Settings) : Data :=
  .table (names.zip
    [.ofUnsigned64 s.workers, .ofUnsigned32 s.maxRetries, .ofUnsigned32 s.ratePerSecond,
     .ofSigned64 s.channelThreshold, .ofUnsigned64 s.progressMillis,
     .ofUnsigned64 s.removalConcurrency, .ofUnsigned64 s.drainMillis])

end Settings

end Broadcast
