import Broadcast.Proofs.Dispatcher.Gauges
import Broadcast.Proofs.Dispatcher.Launch
import Broadcast.Proofs.Dispatcher.Returns

/-!
# Metrics of broadcasts

A broadcast is counted when its run starts, or when it is refused for one of the reasons that are
counted. While the slot is free no crew is at work, and the gauges say so, unless the last run broke
down before it could report.
-/

namespace Broadcast

/-- What is published of broadcasts during some events. -/
structure RunMetrics (events : List (Event Dispatcher Dispatcher.Move)) (d : Dispatcher) : Prop where
  /-- Broadcasts are counted by their callers only. -/
  callers : ∀ e ∈ events, ∀ counter ∈ e.counters, counter.isRun = true →
    ∃ c move, e.move = .caller c move
  /-- Whoever knows what came of its broadcast has seen it return. -/
  returned : ∀ (c : Nat) (errand : Errand) (request : Request) (stage : Caller.Stage),
    d.callers[c]? = some ⟨errand, stage⟩ → errand.wanted = .ok (some request) →
    stage.hasReturned = true → ∃ e ∈ events, ∃ result, e.Returns c result
  /-- A broadcast that returns is counted once, unless it has no pause to pace by. -/
  counted : ∀ e ∈ events, ∀ (c : Nat) (result : Except DispatchError Report),
    e.Returns c result → runCounters c events = returnCounters result
  /-- Nobody is said to be at work while the slot is free. -/
  activeWorkers : d.flight = .idle → level .activeWorkers events = 0
  /-- No broadcast is said to be in progress while the slot is free, unless the last one broke
  down. -/
  inProgress : d.flight = .idle →
    level .runInProgress events = (d.stages.getLast?.any (· = .broken)).toNat

section Courses

variable {settings : Settings} {directory : Directory} {clocks : Clocks} {d : Dispatcher}
  {events : List (Event Dispatcher Dispatcher.Move)}

private theorem caller_of_counter {e : Event Dispatcher Dispatcher.Move}
    (made : e.before.step e.moment e.move = some (e.after, e.effects))
    {counter : Metric.Counter} (counts : counter ∈ e.counters) (broadcast : counter.isRun = true) :
    ∃ c move, e.move = .caller c move := by
  cases Dispatcher.source_of_step made with
  | call own => exact ⟨_, _, own⟩
  | @run r own _ picked _ _ brings =>
      obtain ⟨-, -, -, moved⟩ := of_eventOf picked
      have published : e.counters = own.counters := Dispatcher.filterMap_clearing rfl brings
      rw [published] at counts
      obtain ⟨effect, brought, same⟩ := List.mem_filterMap.mp counts
      obtain rfl := publishes_of_counter same
      have inner := Run.publishes_of_step moved brought
      simp [Metric.isInner, broadcast] at inner
  | none quiet => simp [Event.counters, quiet] at counts

private theorem over_of_idle
    (course : Course Dispatcher.step (.start settings directory clocks) events d)
    (idle : d.flight = .idle) {stage : Run.Stage} (member : stage ∈ d.stages) :
    stage.isOver = true := by
  obtain ⟨run, there, rfl⟩ := List.mem_map.mp member
  obtain ⟨r, present⟩ := List.mem_iff_getElem?.mp there
  exact (messages_of_idle course idle .start).1 r run present

/-- Every broadcast that returns is counted once, as started if it returns a report and as rejected
if another one is under way or if there is nobody to reach. While the slot is free the gauges stand
at zero, but that of broadcasts in progress does so only if the last one has reported. -/
theorem run_metrics_follow_broadcasts
    (course : Course Dispatcher.step (.start settings directory clocks) events d) :
    RunMetrics events d where
  callers e member counter counts broadcast := by
    obtain ⟨past, rest, rfl⟩ := List.append_of_mem member
    exact caller_of_counter course.around.2.1 counts broadcast
  returned c errand request stage present wanted returned :=
    returns_of_course course present wanted returned
  counted e member c result returns := runCounters_of_returns course member returns
  activeWorkers idle := by
    refine Dispatcher.activeWorkers_of_course course fun member => ?_
    cases over_of_idle course idle member
  inProgress idle := by
    rw [Dispatcher.inProgress_of_course course, Dispatcher.isUnreported]
    cases last : d.stages.getLast? with
    | none => rfl
    | some stage =>
        have isOver := over_of_idle course idle (List.mem_of_getLast? last)
        cases stage with
        | finished | broken => rfl
        | announcing | delivering | draining | stopping | editing | replying => cases isOver

end Courses

/-- Of two broadcasts one reports, and the other one finds the slot taken. -/
theorem run_metrics_follow_two : ∃ events d report,
    Course Dispatcher.step (.start { workers := 1 } (.ofUsers [⟨1⟩] (List.nodup_singleton _)))
      events d ∧
    d.callers[0]? = some ⟨.run { source := ⟨-42, 7⟩ }, .done (.report report)⟩ ∧
    d.callers[1]? = some ⟨.run { source := ⟨-42, 7⟩ }, .done (.refused .alreadyRunning)⟩ ∧
    d.flight = .idle ∧ RunMetrics events d := by
  obtain ⟨past, e, early, -⟩ := course_of_users
    (d := .start { workers := 1 } (.ofUsers [⟨1⟩] (List.nodup_singleton _))) rfl 0 rfl
    ⟨-42, 7⟩ none rfl (by decide) (by simp)
  have late := course_of_replay Dispatcher.step
    (Dispatcher.launched
      (.start { workers := 1 } (.ofUsers [⟨1⟩] (List.nodup_singleton _)))
      { source := ⟨-42, 7⟩ } (.ofUsers [⟨1⟩]) 0)
    [(0, .run 0 (.announced (.gave none))), (0, .open (.run { source := ⟨-42, 7⟩ })),
      (0, .caller 1 .begin), (0, .run 0 (.worker 0 .pop)), (0, .run 0 (.worker 0 .permit)),
      (1, .run 0 (.worker 0 (.answered (.gave (.ok ()))))), (1, .run 0 (.worker 0 .pop)),
      (1, .run 0 .joined), (1, .run 0 .concluded), (2, .run 0 (.replied (.gave ())))] rfl
  exact ⟨_, _, _, early.append late, rfl, rfl, rfl,
    run_metrics_follow_broadcasts (early.append late)⟩

/-- A broadcast without a pause returns without being counted. And a broadcast that breaks down with
its announcement leaves the gauge of broadcasts in progress set, though it holds the slot no more. -/
theorem uncounted_without_pause_and_left_set_by_breakdown :
    (∃ events d e interval,
      Course Dispatcher.step (.start {} (.ofUsers [⟨1⟩] (List.nodup_singleton _))) events d ∧
      e ∈ events ∧ e.Returns 0 (.error (.invalidPacing interval)) ∧ runCounters 0 events = []) ∧
    ∃ events d,
      Course Dispatcher.step (.start {} (.ofUsers [⟨1⟩] (List.nodup_singleton _))) events d ∧
      d.flight = .idle ∧ level .runInProgress events = 1 := by
  constructor
  · have course := course_of_replay Dispatcher.step
      (.start {} (.ofUsers [⟨1⟩] (List.nodup_singleton _)))
      [(0, .open (.run { source := ⟨-42, 7⟩, delay := some .zero })), (0, .caller 0 .begin)] rfl
    refine ⟨_, _, _, .zero, course, List.mem_of_getElem? (i := 1) rfl, ?_, rfl⟩
    refine .refusal rfl rfl rfl rfl fun effect told => ?_
    cases told
  · obtain ⟨past, e, early, -⟩ := course_of_users
      (d := .start {} (.ofUsers [⟨1⟩] (List.nodup_singleton _))) rfl 0 rfl
      ⟨-42, 7⟩ none rfl (by decide) (by simp)
    have late := course_of_replay Dispatcher.step
      (Dispatcher.launched (.start {} (.ofUsers [⟨1⟩] (List.nodup_singleton _)))
        { source := ⟨-42, 7⟩ } (.ofUsers [⟨1⟩]) 0)
      [(0, .run 0 (.announced .broke))] rfl
    exact ⟨_, _, early.append late, rfl,
      Dispatcher.inProgress_of_course (early.append late)⟩

end Broadcast
