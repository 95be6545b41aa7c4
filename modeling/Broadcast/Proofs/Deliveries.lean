import Broadcast.Proofs.Dispatcher.Launch
import Broadcast.Proofs.Run.Due

/-!
# Deliveries of the runs of a dispatcher

A run that is left alone, and gets permits for its deliveries, tries each of its targets exactly as
often as is due, whatever the number of its workers, the time that deliveries take and the order of
moves. So what it counts depends on its targets and their outcomes only.
-/

namespace Broadcast

/-- A run is left alone: nobody cancels it, no delivery breaks down, and the outcome of a delivery
depends on the recipient and the number of the attempt only. -/
structure LeftAlone (outcome : Recipient → Nat → Except DeliveryError Unit)
    (events : List (Event Dispatcher Dispatcher.Move)) (r : Nat) (run : Run) : Prop where
  /-- The run is not cancelled. -/
  going : run.tally.cancelled = false
  /-- No delivery breaks down. -/
  calm : ∀ e ∈ eventsOf r events, Run.crashes e = false
  /-- The outcomes are those that recipient and number of the attempt demand. -/
  follows : Run.Follows outcome (eventsOf r events)

/-- What a run does for its request, given its targets, the number of its retries and the outcomes
of the deliveries. -/
structure Delivers (request : Request) (targets : List Recipient) (retries : Nat)
    (outcome : Recipient → Nat → Except DeliveryError Unit) (events : List (Event Run Run.Move))
    (run : Run) : Prop where
  /-- Only targets are tried, with the message of the request. -/
  message : ∀ a ∈ events.flatMap Event.attempts,
    a.recipient ∈ targets ∧ a.source = request.source ∧ a.mode = request.mode
  /-- No target is tried by two workers at the same time. -/
  apart : ∀ (i j : Nat) (job job' : Job), run.workers[i]? = some (.delivering job) →
    run.workers[j]? = some (.delivering job') → job.recipient = job'.recipient → i = j
  /-- No target is tried more often than is due. -/
  le_due : ∀ x ∈ targets, attemptsTo x events ≤ Run.dueAttempts retries (outcome x)
  /-- Once the crew has ended, each target has been tried as often as is due, and has got the
  message once if the last outcome says so, and not at all otherwise. -/
  due : run.stage.isClosing = true → ∀ x ∈ targets,
    attemptsTo x events = Run.dueAttempts retries (outcome x) ∧
      (Run.outcomesOf x events).countP (·.isOk) =
        if (Run.lastOutcome retries (outcome x)).isOk then 1 else 0
  /-- The targets whose last outcome is a success are counted as delivered. -/
  success : run.stage.isClosing = true →
    run.success.toNat = targets.countP fun x => (Run.lastOutcome retries (outcome x)).isOk
  /-- All others are counted as failed. -/
  failed : run.stage.isClosing = true →
    run.failed.toNat = targets.countP fun x => !(Run.lastOutcome retries (outcome x)).isOk

section Courses

variable {settings : Settings} {directory : Directory} {clocks : Clocks} {d : Dispatcher}
  {events : List (Event Dispatcher Dispatcher.Move)}

theorem paced_of_pause (course : Course Dispatcher.step (.start settings directory clocks) events d)
    {e : Event Dispatcher Dispatcher.Move} {c r : Nat} {request : Request} {targets : Targets}
    (member : e ∈ events) (starts : e.Starts c r request targets)
    (short : (request.delay.getD settings.defaultPause).nanos +
      max clocks.youngest clocks.age < 2 ^ 64) :
    ∀ e ∈ eventsOf r events, Run.jams e = false := by
  obtain ⟨run, -, own⟩ := course_of_starts course member starts
  have same : e.before.settings = settings := settings_of_member course member
  have sameClocks : e.before.clocks = clocks := clocks_of_member course member
  rw [← same, ← sameClocks] at short
  intro e
  apply Run.jams_of_course own
  exact short

/-- A run that is left alone, and gets its permits, does what it should. -/
private theorem delivers_of_leftAlone
    (course : Course Dispatcher.step (.start settings directory clocks) events d)
    {e : Event Dispatcher Dispatcher.Move} {c r : Nat} {request : Request} {targets : Targets}
    (member : e ∈ events) (starts : e.Starts c r request targets) {run : Run}
    (present : d.runs[r]? = some run) {outcome : Recipient → Nat → Except DeliveryError Unit}
    (alone : LeftAlone outcome events r run)
    (paced : ∀ e ∈ eventsOf r events, Run.jams e = false) :
    Delivers request targets.list settings.maxRetries.toNat outcome (eventsOf r events) run := by
  have own := own_of_starts course member starts present
  have retries : (e.before.plan request targets).maxRetries = settings.maxRetries :=
    congrArg Settings.maxRetries (settings_of_member course member)
  have distinct : (e.before.plan request targets).targets.Nodup := starts.distinct
  have whole := Run.whole_of_course own alone.calm paced (by simp)
  have counts (closing : run.stage.isClosing = true) :=
    Run.counts_of_course own distinct starts.countable alone.follows alone.going whole closing
  rw [retries] at counts
  refine ⟨fun a tried => Run.attempt_of_course own distinct tried, ?_, fun x target => ?_,
    fun closing => (counts closing).1, fun closing => (counts closing).2.1,
    fun closing => (counts closing).2.2⟩
  · exact fun i j job job' => (Run.tracked_of_course own distinct).alone
  · rw [← retries]
    exact Run.le_due_of_course own distinct alone.follows target

private theorem run_of_attempt
    (course : Course Dispatcher.step (.start settings directory clocks) events d) {a : Attempt}
    (tried : a ∈ events.flatMap Event.attempts) :
    ∃ c r, Ran c r events ∧ a ∈ (eventsOf r events).flatMap Event.attempts := by
  obtain ⟨r, tried⟩ := attempts_of_course course tried
  cases present : d.runs[r]? with
  | none =>
      rw [eventsOf_of_absent course present] at tried
      cases tried
  | some run =>
      obtain ⟨c, ran⟩ := origin_of_run course present
      exact ⟨c, r, ran, tried⟩

/-- Whatever is delivered is delivered by a run, and a run that is left alone and gets its permits
tries its targets as often as is due. So it counts what every other run with these targets, retries
and outcomes does. -/
theorem deliveries_are_due
    (course : Course Dispatcher.step (.start settings directory clocks) events d) :
    (∀ a ∈ events.flatMap Event.attempts, ∃ c r, Ran c r events ∧
      a ∈ (eventsOf r events).flatMap Event.attempts) ∧
    ∀ e ∈ events, ∀ c r request targets, e.Starts c r request targets →
      ∀ run, d.runs[r]? = some run → ∀ outcome, LeftAlone outcome events r run →
        (∀ e ∈ eventsOf r events, Run.jams e = false) →
        Delivers request targets.list settings.maxRetries.toNat outcome (eventsOf r events) run ∧
        ∀ settings' directory' clocks' events' d',
          Course Dispatcher.step (.start settings' directory' clocks') events' d' →
          ∀ e' ∈ events', ∀ c' r' request' targets', e'.Starts c' r' request' targets' →
          ∀ run', d'.runs[r']? = some run' → LeftAlone outcome events' r' run' →
            (∀ e ∈ eventsOf r' events', Run.jams e = false) →
            settings'.maxRetries = settings.maxRetries → targets'.list.Perm targets.list →
            run.stage.isClosing = true → run'.stage.isClosing = true →
            run'.success = run.success ∧ run'.failed = run.failed := by
  refine ⟨fun a => run_of_attempt course, ?_⟩
  intro e member c r request targets starts run present outcome alone paced
  have delivers := delivers_of_leftAlone course member starts present alone paced
  refine ⟨delivers, ?_⟩
  intro settings' directory' clocks' events' d' course' e' member' c' r' request' targets' starts'
    run' present' alone' paced' sameRetries sameTargets closing closing'
  have delivers' := delivers_of_leftAlone course' member' starts' present' alone' paced'
  rw [sameRetries] at delivers'
  constructor
  · apply UInt64.toNat_inj.mp
    rw [delivers.success closing, delivers'.success closing', sameTargets.countP_eq]
  · apply UInt64.toNat_inj.mp
    rw [delivers.failed closing, delivers'.failed closing', sameTargets.countP_eq]

end Courses

/-- A broadcast to one user, whose first delivery meets a rate limit. -/
theorem deliveries_are_due_after_limit : ∃ events d e run,
    Course Dispatcher.step
      (.start { maxRetries := 1 } (.ofUsers [⟨1⟩] (List.nodup_singleton _))) events d ∧
    e ∈ events ∧ e.Starts 0 0 { source := ⟨-42, 7⟩ } (.ofUsers [⟨1⟩]) ∧
    d.runs[0]? = some run ∧ run.stage.isClosing = true ∧
    LeftAlone (fun _ i => if i = 0 then .error (.rateLimited (.ofSecs 1)) else .ok ())
      events 0 run ∧
    Delivers { source := ⟨-42, 7⟩ } [⟨1⟩] 1
      (fun _ i => if i = 0 then .error (.rateLimited (.ofSecs 1)) else .ok ())
      (eventsOf 0 events) run := by
  have own := course_of_replay Run.step
    (.opening ((Dispatcher.start { maxRetries := 1 }
      (.ofUsers [⟨1⟩] (List.nodup_singleton _))).plan { source := ⟨-42, 7⟩ } (.ofUsers [⟨1⟩])) 0
      false)
    [(0, .announced (.gave none)), (0, .worker 0 .pop), (0, .worker 0 .permit),
      (1, .worker 0 (.answered (.gave (.error (.rateLimited (.ofSecs 1)))))),
      (1000000001, .worker 0 .wake), (1000000001, .worker 0 .pop),
      (1000000001, .worker 0 .permit), (1000000002, .worker 0 (.answered (.gave (.ok ())))),
      (1000000002, .worker 0 .pop), (1000000002, .joined)] rfl
  obtain ⟨events, d, e, course, member, starts, present, same, -⟩ :=
    lone_of_users rfl (by decide) (by simp) own
      (by decide)
  refine ⟨events, d, e, _, course, member, starts, present, rfl, ?alone,
    ((deliveries_are_due course).2 e member 0 0 _ _ starts _ present _ ?alone
      (paced_of_pause course member starts (by decide))).1⟩
  refine ⟨rfl, by rw [same]; decide, ?_⟩
  intro x i o answered
  rw [same] at answered
  change ([(⟨1⟩, .error (.rateLimited (.ofSecs 1))), (⟨1⟩, .ok ())].filterMap
    fun answer : Recipient × Except DeliveryError Unit =>
      if answer.1 = x then some answer.2 else none)[i]? = some o at answered
  by_cases user : (⟨1⟩ : Recipient) = x
  · rcases i with _ | _ | i <;> simp [user] at answered
    · simpa using answered.symm
    · simpa using answered.symm
  · simp [user] at answered

/-- A run is left alone, but its pause is so long that its only worker breaks down over the first
permit, and nobody is tried. -/
theorem undelivered_after_endless_pause : ∃ events d e run,
    Course Dispatcher.step (.start {} (.ofUsers [⟨1⟩] (List.nodup_singleton _))) events d ∧
    e ∈ events ∧
    e.Starts 0 0 { source := ⟨-42, 7⟩, delay := some ⟨2 ^ 64 - 1⟩ } (.ofUsers [⟨1⟩]) ∧
    d.runs[0]? = some run ∧ run.stage.isClosing = true ∧
    LeftAlone (fun _ _ => .ok ()) events 0 run ∧
    attemptsTo ⟨1⟩ (eventsOf 0 events) = 0 ∧ run.success = 0 ∧
    ¬Delivers { source := ⟨-42, 7⟩, delay := some ⟨2 ^ 64 - 1⟩ } [⟨1⟩] 2 (fun _ _ => .ok ())
      (eventsOf 0 events) run := by
  have own := course_of_replay Run.step
    (.opening ((Dispatcher.start {} (.ofUsers [⟨1⟩] (List.nodup_singleton _))).plan
      { source := ⟨-42, 7⟩, delay := some ⟨2 ^ 64 - 1⟩ } (.ofUsers [⟨1⟩])) 0 false)
    [(0, .announced (.gave none)), (0, .worker 0 .pop), (0, .worker 0 .permit),
      (0, .joined), (0, .concluded), (0, .replied (.gave ()))] rfl
  obtain ⟨events, d, e, course, member, starts, present, same, -⟩ :=
    lone_of_users rfl (by decide) (by simp) own
      (by decide)
  have nobody : attemptsTo ⟨1⟩ (eventsOf 0 events) = 0 := by
    rw [same]
    rfl
  refine ⟨events, d, e, _, course, member, starts, present, rfl, ⟨rfl, by rw [same]; decide, ?_⟩,
    nobody, rfl, fun delivers => ?_⟩
  · intro x i o answered
    rw [same] at answered
    cases answered
  · have due := (delivers.due rfl ⟨1⟩ (by simp)).1
    rw [nobody] at due
    cases due

end Broadcast
