import Broadcast.Proofs.Dispatcher.Launch
import Broadcast.Proofs.Dispatcher.Slot
import Broadcast.Proofs.Dispatcher.Sources
import Broadcast.Proofs.Run.Meters

/-!
# Metrics of deliveries

From the start of a run until the next one starts, all that is published of jobs is published by
this run. So the increase of the counters is what the run does and reports, in spite of earlier runs
whose removals may still go on.
-/

namespace Broadcast

namespace Dispatcher

private theorem Called.silent_of_jobs {now : Moment} {d d' : Dispatcher}
    {effects : List Run.Effect} (called : Called now d d' effects) :
    (effects.filterMap Run.Effect.counter?).filter Metric.Counter.isJob = [] := by
  cases called with
  | start _ brings =>
      rw [brings]
      rfl
  | aside _ quiet =>
      rw [List.filter_eq_nil_iff]
      intro counter counts
      obtain ⟨effect, brought, same⟩ := List.mem_filterMap.mp counts
      obtain rfl := publishes_of_counter same
      cases counter with
      | runsRejected => simp [Metric.Counter.isJob]
      | deliveries | rateLimits | cancelledJobs | removals | runsStarted => cases quiet _ brought

end Dispatcher

section Courses

variable {settings : Settings} {directory : Directory} {clocks : Clocks} {d : Dispatcher}
  {past rest : List (Event Dispatcher Dispatcher.Move)} {c r : Nat} {request : Request}
  {targets : Targets} {run : Run}

private theorem jobs_of_event {e : Event Dispatcher Dispatcher.Move}
    (course : Course Dispatcher.step (.start settings directory clocks) past e.before)
    (made : e.before.step e.moment e.move = some (e.after, e.effects))
    (last : e.before.runs.length = r + 1) :
    (counters [e]).filter Metric.Counter.isJob =
      (counters (eventsOf r [e])).filter Metric.Counter.isJob := by
  rw [counters_cons, counters_nil, List.append_nil]
  cases Dispatcher.source_of_step made with
  | call _ called quiet =>
      rw [Event.counters, called.silent_of_jobs]
      cases picked : eventOf? r e with
      | none => rw [eventsOf_of_none picked, counters_nil, List.filter_nil]
      | some own => simp [eventsOf_of_some picked, Event.counters, quiet r own picked]
  | @run k own _ picked others _ same =>
      have published : e.counters = own.counters := Dispatcher.filterMap_clearing rfl same
      rw [published]
      by_cases mine : k = r
      · subst mine
        rw [eventsOf_of_some picked, counters_cons, counters_nil, List.append_nil]
      · obtain ⟨moment, present, -, moved⟩ := of_eventOf picked
        obtain ⟨plan, began, cancelled, -, first⟩ := own_of_run course present
        have staffed := Run.staffed_of_course first
        have isOver := Dispatcher.over_of_earlier course present (by omega)
        rw [eventsOf_of_none (others r (Ne.symm mine)), counters_nil, List.filter_nil]
        exact Run.silent_of_over (moment ▸ moved) staffed isOver
  | none quiet _ absent =>
      rw [eventsOf_of_none (absent r), Event.counters, quiet]
      rfl

/-- What is published of jobs, until the next run starts, is published by the last run. -/
private theorem jobs_of_course {mid : Dispatcher}
    (course : Course Dispatcher.step (.start settings directory clocks) past mid)
    (future : Course Dispatcher.step mid rest d) (started : r < mid.runs.length)
    (last : d.runs.length = r + 1) :
    (counters rest).filter Metric.Counter.isJob =
      (counters (eventsOf r rest)).filter Metric.Counter.isJob := by
  induction future with
  | start => rfl
  | @next rest now s t move effects before made ih =>
      have fewer := length_of_course (.single made)
      have more := length_of_course before
      have here : s.runs.length = r + 1 := by omega
      have one := jobs_of_event (course.append before) (e := ⟨now, s, move, t, effects⟩) made here
      rw [counters_append, List.filter_append, ih here, one, eventsOf_append, counters_append,
        List.filter_append]

/-- From the start of a run until the next one starts, the counters of deliveries go up by what the
run does, counts and reports. -/
theorem metrics_agree {e : Event Dispatcher Dispatcher.Move}
    (course : Course Dispatcher.step (.start settings directory clocks) (past ++ e :: rest) d)
    (starts : e.Starts c r request targets) (present : d.runs[r]? = some run)
    (last : d.runs.length = r + 1) :
    Run.Metered request.mode (min (max settings.workers.toNat 1) targets.list.length)
      (counters rest) (eventsOf r rest) run := by
  have member : e ∈ past ++ e :: rest := List.mem_append_right _ List.mem_cons_self
  have own := own_of_starts course member starts present
  have same : e.before.settings = settings := settings_of_member course member
  rw [eventsOf_of_starts course starts] at own
  obtain ⟨early, made, late⟩ := course.around
  have started : r < e.after.runs.length := (List.getElem?_eq_some_iff.mp starts.opens).1
  have metered := Run.metered_of_course own starts.countable
  rw [Run.crew_eq starts.nonempty] at metered
  rw [← same]
  exact metered.congr (jobs_of_course (early.append (.single made)) late started last)

end Courses

/-- A broadcast to three users meets a rate limit at the first one and reaches the second one; then
it is cancelled. -/
theorem metrics_agree_though_cancelled : ∃ past e rest d run report,
    Course Dispatcher.step
      (.start { workers := 1, maxRetries := 1 } (.ofUsers [⟨1⟩, ⟨2⟩, ⟨3⟩] (by decide)))
      (past ++ e :: rest) d ∧
    e.Starts 0 0 { source := ⟨-42, 7⟩ } (.ofUsers [⟨1⟩, ⟨2⟩, ⟨3⟩]) ∧ d.runs[0]? = some run ∧
    d.runs.length = 1 ∧ run.stage = .finished report ∧ report.success = 1 ∧ report.failed = 2 ∧
    Run.Metered .forward 1 (counters rest) (eventsOf 0 rest) run := by
  obtain ⟨events, e, early, -, starts, -, -, -, last⟩ := course_of_users
    (d := .start { workers := 1, maxRetries := 1 } (.ofUsers [⟨1⟩, ⟨2⟩, ⟨3⟩] (by decide))) rfl 0 rfl
    ⟨-42, 7⟩ none rfl (by decide) (by simp)
  obtain ⟨past, rfl⟩ := List.getLast?_eq_some_iff.mp last
  have late := course_of_replay Dispatcher.step
    (Dispatcher.launched
      (.start { workers := 1, maxRetries := 1 } (.ofUsers [⟨1⟩, ⟨2⟩, ⟨3⟩] (by decide)))
      { source := ⟨-42, 7⟩ } (.ofUsers [⟨1⟩, ⟨2⟩, ⟨3⟩]) 0)
    [(0, .run 0 (.announced (.gave none))), (0, .run 0 (.worker 0 .pop)),
      (0, .run 0 (.worker 0 .permit)),
      (1, .run 0 (.worker 0 (.answered (.gave (.error (.rateLimited (.ofSecs 1))))))),
      (1000000001, .run 0 (.worker 0 .wake)), (1000000001, .run 0 (.worker 0 .pop)),
      (1000000001, .run 0 (.worker 0 .permit)),
      (1000000002, .run 0 (.worker 0 (.answered (.gave (.ok ()))))),
      (1000000002, .open .cancel), (1000000002, .caller 1 .begin),
      (1000000002, .run 0 (.worker 0 .pop)), (1000000002, .run 0 (.worker 0 .pop)),
      (1000000002, .run 0 (.worker 0 .pop)), (1000000002, .run 0 .joined),
      (1000000002, .run 0 .concluded), (1000000003, .run 0 (.replied (.gave ())))] rfl
  have course := early.append late
  rw [List.append_assoc] at course
  exact ⟨past, e, _, _, _, _, course, starts, rfl, rfl, rfl, rfl, rfl,
    metrics_agree course starts rfl rfl⟩

/-- A broadcast to one user asks for so long a pause that its only worker breaks down over the first
permit. No delivery breaks down, and yet the failure that is reported is not published. -/
theorem unpublished_after_endless_pause : ∃ past e rest d run report,
    Course Dispatcher.step (.start {} (.ofUsers [⟨1⟩] (List.nodup_singleton _)))
      (past ++ e :: rest) d ∧
    e.Starts 0 0 { source := ⟨-42, 7⟩, delay := some ⟨2 ^ 64 - 1⟩ } (.ofUsers [⟨1⟩]) ∧
    d.runs[0]? = some run ∧ d.runs.length = 1 ∧ run.stage = .finished report ∧
    (∀ own ∈ eventsOf 0 rest, Run.crashes own = false) ∧ report.failed = 1 ∧
    (counters rest).countP Metric.Counter.isFailure + (counters rest).count .cancelledJobs = 0 := by
  obtain ⟨events, e, early, -, starts, -, -, -, last⟩ := course_of_users
    (d := .start {} (.ofUsers [⟨1⟩] (List.nodup_singleton _))) rfl 0 rfl
    ⟨-42, 7⟩ (some ⟨2 ^ 64 - 1⟩) rfl (by decide) (by simp)
  obtain ⟨past, rfl⟩ := List.getLast?_eq_some_iff.mp last
  have late := course_of_replay Dispatcher.step
    (Dispatcher.launched (.start {} (.ofUsers [⟨1⟩] (List.nodup_singleton _)))
      { source := ⟨-42, 7⟩, delay := some ⟨2 ^ 64 - 1⟩ } (.ofUsers [⟨1⟩]) 0)
    [(0, .run 0 (.announced (.gave none))), (0, .run 0 (.worker 0 .pop)),
      (0, .run 0 (.worker 0 .permit)), (0, .run 0 .joined), (0, .run 0 .concluded),
      (0, .run 0 (.replied (.gave ())))] rfl
  have course := early.append late
  rw [List.append_assoc] at course
  exact ⟨past, e, _, _, _, _, course, starts, rfl, rfl, rfl, by decide, rfl, rfl⟩

end Broadcast
