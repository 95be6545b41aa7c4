import Broadcast.Summary

/-!
# Tallies

The counters of a run, whether it was cancelled, and what its report repeats of the request.
Counters are words of 64 bits.
-/

namespace Broadcast

/-- The counters of a run at one moment. -/
structure Progress where
  total : UInt64
  success : UInt64
  failed : UInt64
  removed : UInt64
deriving DecidableEq, Repr, Inhabited

namespace Progress

/-- Nothing counted at all. -/
def zero : Progress := ⟨0, 0, 0, 0⟩

/-- The jobs that have ended. -/
def processed (p : Progress) : Nat := p.success.toNat + p.failed.toNat

/-- More jobs have ended than a counter can tell. -/
def overflows (p : Progress) : Bool := 2 ^ 64 ≤ p.processed

/-- The jobs that have not ended. -/
def missing (p : Progress) : UInt64 := UInt64.ofNat (p.total.toNat - p.processed)

end Progress

/-- The counters and the flag of one run. -/
structure Tally where
  progress : Progress
  cancelled : Bool
  mode : DeliveryMode
  delay : Duration
deriving DecidableEq, Repr, Inhabited

namespace Tally

/-- The tally of a run that is about to start. -/
def start (total : UInt64) (mode : DeliveryMode) (delay : Duration) : Tally :=
  ⟨⟨total, 0, 0, 0⟩, false, mode, delay⟩

/-- One more delivery. -/
def addSuccess (t : Tally) : Tally :=
  { t with progress.success := t.progress.success + 1 }

/-- One more job without delivery. -/
def addFailure (t : Tally) : Tally :=
  { t with progress.failed := t.progress.failed + 1 }

/-- One more recipient that left the directory. -/
def addRemoved (t : Tally) : Tally :=
  { t with progress.removed := t.progress.removed + 1 }

/-- No further delivery is to start. -/
def cancel (t : Tally) : Tally :=
  { t with cancelled := true }

/-- Every job that has not ended counts as failed. -/
def settle (t : Tally) : Tally :=
  { t with progress.failed := t.progress.failed + t.progress.missing }

/-- The report on the run as it stands. -/
def report (t : Tally) (elapsed : Duration) : Report where
  total := t.progress.total
  success := t.progress.success
  failed := t.progress.failed
  removed := t.progress.removed
  mode := t.mode
  cancelled := t.cancelled
  pacingDelay := t.delay
  elapsed := elapsed

end Tally

end Broadcast
