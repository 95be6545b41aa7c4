import Broadcast.Proofs.Course

/-!
# What is published

The counters that go up during some events, and the level at which a gauge stands after them.
-/

namespace Broadcast

namespace Metric

/-- The result with which a delivery is counted. -/
def Counter.result? : Counter → Option String
  | deliveries _ ending => some ending.label
  | rateLimits _ | cancelledJobs | removals _ _ | runsStarted | runsRejected _ => none

/-- The mode with which a delivery is counted. -/
def Counter.mode? : Counter → Option DeliveryMode
  | deliveries mode _ => some mode
  | rateLimits _ | cancelledJobs | removals _ _ | runsStarted | runsRejected _ => none

/-- A delivery is counted that did not succeed. -/
def Counter.isFailure (counter : Counter) : Bool :=
  counter.result?.any (· ≠ "success")

/-- The counter tells what becomes of jobs. -/
def Counter.isJob : Counter → Bool
  | deliveries _ _ | rateLimits _ | cancelledJobs => true
  | removals _ _ | runsStarted | runsRejected _ => false

/-- The counter tells what becomes of broadcasts. -/
def Counter.isRun : Counter → Bool
  | runsStarted | runsRejected _ => true
  | deliveries _ _ | rateLimits _ | cancelledJobs | removals _ _ => false

theorem Counter.isJob_of_result {counter : Counter} (some : counter.result?.isSome = true) :
    counter.isJob = true := by
  cases counter <;> first | rfl | cases some

theorem Counter.isJob_of_isFailure {counter : Counter} (fails : counter.isFailure = true) :
    counter.isJob = true := by
  cases counter <;> first | rfl | cases fails

/-- Whatever counts only jobs passes over all other counters. -/
theorem countP_jobs {counted : Counter → Bool}
    (jobs : ∀ counter, counted counter = true → counter.isJob = true) (published : List Counter) :
    published.countP counted = (published.filter Counter.isJob).countP counted := by
  rw [List.countP_filter]
  refine List.countP_congr fun counter _ => ?_
  rw [Bool.and_eq_true]
  exact ⟨fun counts => ⟨counts, jobs counter counts⟩, And.left⟩

end Metric

/-- The counter that goes up with an effect. -/
def Run.Effect.counter? : Run.Effect → Option Metric.Counter
  | .publish (.count counter) => some counter
  | _ => none

/-- The level to which an effect sets a gauge. -/
def Run.Effect.level? (gauge : Metric.Gauge) : Run.Effect → Option Nat
  | .publish (.set other level) => if other = gauge then some level else none
  | _ => none

theorem publishes_of_counter {effect : Run.Effect} {counter : Metric.Counter}
    (counts : effect.counter? = some counter) : effect = .publish (.count counter) := by
  unfold Run.Effect.counter? at counts
  split at counts
  · rw [Option.some.inj counts]
  · cases counts

theorem levels_eq_nil {gauge : Metric.Gauge} {effects : List Run.Effect}
    (unset : ∀ level, .publish (.set gauge level) ∉ effects) :
    effects.filterMap (Run.Effect.level? gauge) = [] := by
  rw [List.filterMap_eq_nil_iff]
  intro effect member
  unfold Run.Effect.level?
  split
  next other level =>
    rw [if_neg]
    rintro rfl
    exact unset level member
  next => rfl

section

variable {σ μ : Type}

/-- The counters that go up with an event, each as often as it does. -/
def Event.counters (e : Event σ μ) : List Metric.Counter :=
  e.effects.filterMap Run.Effect.counter?

/-- The counters that go up during some events, each as often as it does. -/
def counters (events : List (Event σ μ)) : List Metric.Counter :=
  events.flatMap Event.counters

/-- The levels to which an event sets a gauge, in order. -/
def Event.levels (gauge : Metric.Gauge) (e : Event σ μ) : List Nat :=
  e.effects.filterMap (Run.Effect.level? gauge)

/-- The level at which a gauge stands after some events; at first it stands at zero. -/
def level (gauge : Metric.Gauge) (events : List (Event σ μ)) : Nat :=
  (events.flatMap (Event.levels gauge)).getLast?.getD 0

@[simp] theorem counters_nil : counters ([] : List (Event σ μ)) = [] := rfl

@[simp] theorem counters_append (left right : List (Event σ μ)) :
    counters (left ++ right) = counters left ++ counters right :=
  List.flatMap_append

@[simp] theorem counters_cons (e : Event σ μ) (events : List (Event σ μ)) :
    counters (e :: events) = e.counters ++ counters events :=
  List.flatMap_cons

theorem level_concat (gauge : Metric.Gauge) (events : List (Event σ μ)) (e : Event σ μ) :
    level gauge (events ++ [e]) = (e.levels gauge).getLast?.getD (level gauge events) := by
  rw [level, List.flatMap_append, List.flatMap_singleton, List.getLast?_append]
  cases (e.levels gauge).getLast? <;> rfl

end

end Broadcast
