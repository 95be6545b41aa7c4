import Broadcast.Proofs.Accounting
import Broadcast.Proofs.Dispatcher.Cancel
import Broadcast.Proofs.Dispatcher.Launch
import Broadcast.Proofs.Dispatcher.Underway
import Broadcast.Proofs.Run.Due

/-!
# Cancelled runs

A cancel that is accepted meets whoever holds the slot, and nobody else. The run that it meets
delivers nothing any more, and comes to its end; a run that no cancel meets tries all its targets.
-/

namespace Broadcast

/-- A run comes to its end and accounts for all its targets. -/
structure Ends (settings : Settings) (targets : List Recipient) (d : Dispatcher) (r : Nat)
    (run : Run) : Prop where
  /-- A report accounts for every target. -/
  accounts : ∀ report, run.stage.report? = some report →
    report.total.toNat = targets.length ∧
      report.success.toNat + report.failed.toNat = report.total.toNat
  /-- The run cannot go on for ever: beside those of the task that shows progress, it has only so
  many moves left. -/
  bounded : ∃ bound, ∀ more d', Course Dispatcher.step d more d' →
    (eventsOf r more).countP (·.move.isWork) ≤ bound
  /-- The run can go on until it has reported, unless it has broken down or allows for more removals
  than can be told apart. -/
  reports : run.stage ≠ .broken → settings.removalConcurrency.toNat ≤ Plan.maxRemovalPermits →
    ∀ now, ∃ more d' run' report, Course Dispatcher.step d more d' ∧ InOrder more ∧
      (∀ e ∈ more, now ≤ e.moment ∧ ∃ move, e.move = .run r move) ∧
      d'.runs[r]? = some run' ∧ run'.stage = .finished report ∧
      report.total.toNat = targets.length ∧
      report.success.toNat + report.failed.toNat = report.total.toNat

section Courses

variable {settings : Settings} {directory : Directory} {clocks : Clocks} {d : Dispatcher}
  {events : List (Event Dispatcher Dispatcher.Move)}

private theorem accounts_of_starts
    (course : Course Dispatcher.step (.start settings directory clocks) events d)
    {e : Event Dispatcher Dispatcher.Move} {c r : Nat} {request : Request} {targets : Targets}
    (member : e ∈ events) (starts : e.Starts c r request targets) {run : Run}
    (present : d.runs[r]? = some run) {report : Report}
    (made : run.stage.report? = some report) :
    report.total.toNat = targets.list.length ∧
      report.success.toNat + report.failed.toNat = report.total.toNat := by
  obtain ⟨size, -, -, balanced⟩ := books_of_starts course member starts present
  obtain ⟨total, -, -, sum⟩ := balanced.reported made
  exact ⟨by rw [total, size], sum⟩

private theorem ends_of_starts
    (course : Course Dispatcher.step (.start settings directory clocks) events d)
    {e : Event Dispatcher Dispatcher.Move} {c r : Nat} {request : Request} {targets : Targets}
    (member : e ∈ events) (starts : e.Starts c r request targets) {run : Run}
    (present : d.runs[r]? = some run) : Ends settings targets.list d r run := by
  refine ⟨fun report => accounts_of_starts course member starts present,
    ⟨run.effort, fun more d' => bounded_of_run course present⟩, fun whole fits now => ?_⟩
  obtain ⟨more, d', last, report, future, inOrder, moves, there, finished⟩ :=
    finishes_of_run course fits present whole now
  exact ⟨more, d', last, report, future, inOrder, moves, there, finished,
    accounts_of_starts (course.append future) (List.mem_append_left _ member) starts there
      (by rw [finished]; rfl)⟩

/-- No delivery of the run of a caller begins after a cancel that was accepted while the caller held
the slot, and the run comes to its end. A run whose caller is spared is not cancelled, and it tries
each target unless a worker breaks down. -/
theorem cancel_is_final
    (course : Course Dispatcher.step (.start settings directory clocks) events d) :
    (∀ past e rest, events = past ++ e :: rest → e.Cancels →
      (∃ c caller, e.before.held c = some caller) ∧
      ∀ c caller, e.before.held c = some caller →
        ∀ e' ∈ events, ∀ r request targets, e'.Starts c r request targets →
          Met caller r events rest d ∧
          ∀ run, d.runs[r]? = some run → Ends settings targets.list d r run) ∧
    ∀ c, Spared c events → ∀ e ∈ events, ∀ r request targets, e.Starts c r request targets →
      ∀ run, d.runs[r]? = some run → run.tally.cancelled = false ∧
        ((∀ e ∈ eventsOf r events, Run.crashes e = false) →
          (∀ e ∈ eventsOf r events, Run.jams e = false) → run.stage.isClosing = true →
          ∀ x ∈ targets.list, 1 ≤ attemptsTo x (eventsOf r events)) := by
  constructor
  · rintro past e rest rfl cancels
    refine ⟨held_of_cancels course.around.1 cancels, ?_⟩
    intro c caller holds e' member r request targets starts
    have met := met_of_cancels course cancels holds member starts
    exact ⟨met, fun run present => ends_of_starts course member starts present⟩
  · intro c spared e member r request targets starts run present
    have going := going_of_spared course spared ⟨e, member, request, targets, starts⟩ present
    refine ⟨going, fun calm paced closing x target => ?_⟩
    have own := own_of_starts course member starts present
    have whole := Run.whole_of_course own calm paced (by simp)
    have settled := Run.settled_of_course own starts.distinct going whole closing target
    obtain ⟨past, last, outcomes, -⟩ := settled.last
    rw [settled.attempts, outcomes, List.length_append]
    exact Nat.le_add_left _ _

end Courses

/-- A broadcast is cancelled while its only worker waits for the answer to a delivery; a rate limit
follows. -/
theorem cancel_is_final_during_delivery : ∃ past e rest d,
    Course Dispatcher.step (.start { workers := 1 } (.ofUsers [⟨1⟩, ⟨2⟩] (by decide)))
      (past ++ e :: rest) d ∧
    e.Cancels ∧ e.before.held 0 = some ⟨.run { source := ⟨-42, 7⟩ }, .running 0⟩ ∧
    (eventsOf 0 past).flatMap Event.attempts = [⟨⟨1⟩, ⟨-42, 7⟩, .forward⟩] ∧
    (eventsOf 0 rest).length = 4 ∧ d.runs.length = 1 ∧
    Met ⟨.run { source := ⟨-42, 7⟩ }, .running 0⟩ 0 (past ++ e :: rest) rest d ∧
    ∀ run, d.runs[0]? = some run → Ends { workers := 1 } [⟨1⟩, ⟨2⟩] d 0 run := by
  obtain ⟨launch, e', early, member, starts, silent, -⟩ := course_of_users
    (d := .start { workers := 1 } (.ofUsers [⟨1⟩, ⟨2⟩] (by decide))) rfl 0 rfl ⟨-42, 7⟩
    none rfl (by decide) (by simp)
  have first := course_of_replay Dispatcher.step
    (Dispatcher.launched (.start { workers := 1 } (.ofUsers [⟨1⟩, ⟨2⟩] (by decide)))
      { source := ⟨-42, 7⟩ } (.ofUsers [⟨1⟩, ⟨2⟩]) 0)
    [(0, .run 0 (.announced (.gave none))), (0, .run 0 (.worker 0 .pop)),
      (0, .run 0 (.worker 0 .permit)), (1, .open .cancel)] rfl
  have course := (early.append first).append (course_of_replay Dispatcher.step _
    [(1, .caller 1 .begin),
      (2, .run 0 (.worker 0 (.answered (.gave (.error (.rateLimited (.ofSecs 1))))))),
      (1000000002, .run 0 (.worker 0 .wake)), (1000000002, .run 0 (.worker 0 .pop)),
      (1000000002, .run 0 (.worker 0 .pop))] rfl)
  refine ⟨_, _, _, _, course, ⟨⟨1, rfl, rfl⟩, rfl⟩, rfl, ?_, rfl, rfl,
    ((cancel_is_final course).1 _ _ _ rfl ⟨⟨1, rfl, rfl⟩, rfl⟩).2 0 _ rfl e'
      (List.mem_append_left _ (List.mem_append_left _ member)) 0 _ _ starts⟩
  rw [eventsOf_append, show eventsOf 0 launch = [] from silent]
  rfl

/-- A broadcast is cancelled at once, and ends. -/
private theorem idle_after_cancel : ∃ past e rest d,
    Course Dispatcher.step (.start {} (.ofUsers [⟨1⟩] (List.nodup_singleton _)))
      (past ++ e :: rest) d ∧
    e.Cancels ∧ e.before.held 0 = some ⟨.run { source := ⟨-42, 7⟩ }, .running 0⟩ ∧
    d.flight = .idle ∧ d.settings = {} ∧
    d.directory = .ofUsers [⟨1⟩] (List.nodup_singleton _) ∧
    d.runs.length = 1 ∧ d.callers.length = 2 := by
  let launched := Dispatcher.launched (.start {} (.ofUsers [⟨1⟩] (List.nodup_singleton _)))
    { source := ⟨-42, 7⟩ } (.ofUsers [⟨1⟩]) 0
  let wished : Dispatcher :=
    { launched with callers := launched.callers ++ [⟨.cancel, .opening⟩] }
  obtain ⟨past, -, early, -⟩ := course_of_users
    (d := .start {} (.ofUsers [⟨1⟩] (List.nodup_singleton _))) rfl 0 rfl ⟨-42, 7⟩ none rfl
    (by decide) (by simp)
  have wishes : launched.step 0 (.open .cancel) = some (wished, []) := rfl
  have late := course_of_replay Dispatcher.step wished
    [(0, .caller 1 .begin), (0, .run 0 (.announced (.gave none))), (0, .run 0 (.worker 0 .pop)),
      (0, .run 0 (.worker 0 .pop)), (0, .run 0 .joined), (0, .run 0 .concluded),
      (0, .run 0 (.replied (.gave ())))] rfl
  exact ⟨_, _, _, _, (early.next wishes).append late, ⟨⟨1, rfl, rfl⟩, rfl⟩, rfl, rfl, rfl, rfl, rfl,
    rfl⟩

/-- After a cancelled run, another one is spared and none of its deliveries breaks down, but its
pause is so long that the only worker breaks down over the first permit, and nobody is tried. -/
theorem untried_after_endless_pause : ∃ past cancel rest d e run,
    Course Dispatcher.step (.start {} (.ofUsers [⟨1⟩] (List.nodup_singleton _)))
      (past ++ cancel :: rest) d ∧
    cancel.Cancels ∧ (∃ caller, cancel.before.held 0 = some caller) ∧
    e ∈ rest ∧ e.Starts 2 1 { source := ⟨-42, 7⟩, delay := some ⟨2 ^ 64 - 1⟩ } (.ofUsers [⟨1⟩]) ∧
    Spared 2 (past ++ cancel :: rest) ∧ d.runs[1]? = some run ∧
    (∃ report, run.stage = .finished report) ∧
    (∀ e ∈ eventsOf 1 (past ++ cancel :: rest), Run.crashes e = false) ∧
    attemptsTo ⟨1⟩ (eventsOf 1 (past ++ cancel :: rest)) = 0 := by
  obtain ⟨past, cancel, between, d, early, cancels, holds, idle, settings, known, runs, callers⟩ :=
    idle_after_cancel
  have samePlan : d.plan { source := ⟨-42, 7⟩, delay := some ⟨2 ^ 64 - 1⟩ } (.ofUsers [⟨1⟩]) =
      (Dispatcher.start {} (.ofUsers [⟨1⟩] (List.nodup_singleton _))).plan
        { source := ⟨-42, 7⟩, delay := some ⟨2 ^ 64 - 1⟩ } (.ofUsers [⟨1⟩]) := by
    rw [Dispatcher.plan, settings, (kept_of_course early).2]
    rfl
  obtain ⟨own, run, alone, inner, ended, calm, nobody⟩ : ∃ own run,
      Course Run.step (.opening (d.plan { source := ⟨-42, 7⟩, delay := some ⟨2 ^ 64 - 1⟩ }
        (.ofUsers [⟨1⟩])) 0 false) own run ∧
      (∀ e ∈ own, e.move.isInner = true) ∧ (∃ report, run.stage = .finished report) ∧
      (∀ e ∈ own, Run.crashes e = false) ∧ attemptsTo ⟨1⟩ own = 0 := by
    rw [samePlan]
    exact ⟨_, _, course_of_replay Run.step _ [(0, .announced (.gave none)), (0, .worker 0 .pop),
      (0, .worker 0 .permit), (0, .joined), (0, .concluded), (0, .replied (.gave ()))] rfl,
      by decide, ⟨_, rfl⟩, by decide, rfl⟩
  have paced : Pacer.ofInterval
      (d.pause { source := ⟨-42, 7⟩, delay := some ⟨2 ^ 64 - 1⟩ }) =
        .ok ⟨⟨2 ^ 64 - 1⟩, by decide, by decide⟩ := rfl
  obtain ⟨again, d', e, late, member, starts, present, same, -, spares⟩ :=
    launch_of_users idle known paced (by rw [settings]; decide) (by simp) alone inner
  rw [runs, callers] at starts
  rw [runs] at present same
  have absent : d.runs[1]? = none := List.getElem?_eq_none runs.le
  have whole : eventsOf 1 (past ++ cancel :: (between ++ again)) = own := by
    rw [← List.cons_append, ← List.append_assoc, eventsOf_append, eventsOf_of_absent early absent,
      same, List.nil_append]
  refine ⟨past, cancel, between ++ again, d', e, run, ?_, cancels, ⟨_, holds⟩,
    List.mem_append_right _ member, starts, ?_, present, ended, whole ▸ calm, whole ▸ nobody⟩
  · simpa using early.append late
  · have spared : Spared 2 (past ++ cancel :: between) :=
      spared_of_absent early (List.getElem?_eq_none callers.le)
    rw [← List.cons_append, ← List.append_assoc]
    exact spared.append fun e member cancels => absurd cancels (spares e member)

end Broadcast
