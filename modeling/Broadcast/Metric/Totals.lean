import Broadcast.Metric

/-!
# Names and totals of metrics

The names under which metrics are published, and what a list of them comes to: a sum for each
counter, all values in order for each gauge, and the number of deliveries that were timed. Names
stand in the order of their first use.
-/

namespace Broadcast

namespace Metric

/-- A name with its labels in alphabetical order. -/
def labelled (name : String) (labels : List (String × String)) : String :=
  name ++ "\x7b" ++ ",".intercalate (labels.map fun (key, value) => key ++ "=" ++ value) ++ "\x7d"

/-- The name under which a counter is published. -/
def Counter.name : Counter → String
  | deliveries mode ending =>
    labelled "bc_deliveries_total" [("mode", mode.label), ("result", ending.label)]
  | rateLimits requeued =>
    labelled "bc_rate_limit_signals_total" [("requeued", toString requeued)]
  | cancelledJobs => "bc_jobs_cancelled_total"
  | removals listing success =>
    labelled "bc_recipient_removals_total"
      [("kind", listing.label), ("success", toString success)]
  | runsStarted => "bc_runs_started_total"
  | runsRejected reason => labelled "bc_runs_rejected_total" [("reason", reason.label)]

/-- The name under which a gauge is published. -/
def Gauge.name : Gauge → String
  | runTargets => "bc_run_targets"
  | runInProgress => "bc_run_in_progress"
  | activeWorkers => "bc_active_workers"

/-- The name under which the times of deliveries are published. -/
def deliveryTime : String := "bc_delivery_duration_seconds"

/-- The totals of a list of metrics. -/
structure Totals where
  counters : List (String × Nat)
  gauges : List (String × List Nat)
  timed : Nat
deriving DecidableEq, Repr

/-- The name of the counter that a metric is about. -/
def counterName? : Metric → Option String
  | .count counter => some counter.name
  | _ => none

/-- The name and the value of the gauge that a metric sets. -/
def gaugeValue? : Metric → Option (String × Nat)
  | .set gauge value => some (gauge.name, value)
  | _ => none

/-- The totals of a list of metrics. -/
def totals (ms : List Metric) : Totals :=
  let counted := ms.filterMap counterName?
  let gauged := ms.filterMap gaugeValue?
  { counters := counted.eraseDups.map fun name => (name, counted.count name)
    gauges := (gauged.map (·.1)).eraseDups.map fun name =>
      (name, (gauged.filter (·.1 = name)).map (·.2))
    timed := ms.count .deliveryTimed }

end Metric

end Broadcast
