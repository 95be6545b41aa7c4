import Broadcast.Message

/-!
# Metrics

Counters go up by one at a time, gauges are set, and the time that a delivery took is sampled.
-/

namespace Broadcast

/-- The listing that a recipient is to leave. -/
inductive Listing
  | user
  | chat
deriving DecidableEq, Repr

/-- The listing in metrics. -/
def Listing.label : Listing → String
  | user => "user"
  | chat => "chat"

namespace Metric

/-- How a delivery ended for good. -/
inductive Ending
  | success
  | retriesExhausted
  | failed (label : String)
deriving DecidableEq, Repr

/-- The ending in metrics. -/
def Ending.label : Ending → String
  | success => "success"
  | retriesExhausted => "retries_exhausted"
  | failed label => label

/-- Why a broadcast did not start. -/
inductive Rejection
  | alreadyRunning
  | noTargets
deriving DecidableEq, Repr

/-- The reason in metrics. -/
def Rejection.label : Rejection → String
  | alreadyRunning => "already_running"
  | noTargets => "no_targets"

/-- What is counted. -/
inductive Counter
  | deliveries (mode : DeliveryMode) (ending : Ending)
  | rateLimits (requeued : Bool)
  | cancelledJobs
  | removals (listing : Listing) (success : Bool)
  | runsStarted
  | runsRejected (reason : Rejection)
deriving DecidableEq, Repr

/-- What is set. -/
inductive Gauge
  | runTargets
  | runInProgress
  | activeWorkers
deriving DecidableEq, Repr

end Metric

/-- One thing that is published. -/
inductive Metric
  | count (counter : Metric.Counter)
  | set (gauge : Metric.Gauge) (value : Nat)
  | deliveryTimed
deriving DecidableEq, Repr

end Broadcast
