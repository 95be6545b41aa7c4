import Broadcast.Proofs.Dispatcher.Launch
import Broadcast.Proofs.Dispatcher.Underway
import Broadcast.Proofs.Run.Verdicts

/-!
# Workers that break down

A worker that breaks down over a delivery costs its own job: as long as somebody in the crew is left,
all other jobs are carried through. Only a pause of centuries breaks workers down over their permits,
and then also before the first delivery. In any case the crew comes to its end, and the run to its
report unless somebody breaks down over its notices.
-/

namespace Broadcast

/-- A run that goes on loses the jobs of broken workers and no others. -/
structure Survives (targets : List Recipient) (events : List (Event Run Run.Move)) (run : Run) :
    Prop where
  /-- The queue is empty when the last worker ends. -/
  queue : run.workers ≠ [] → run.workers.all Run.Worker.hasEnded = true → run.queue = []
  /-- By then each target has been tried, unless a worker broke down over the permit for it. -/
  tried : run.workers ≠ [] → run.workers.all Run.Worker.hasEnded = true → ∀ x ∈ targets,
    1 ≤ attemptsTo x events ∨ ∃ e ∈ events, Run.jams e = true ∧ Run.Loses x e
  /-- Jobs fail by errors, by rate limits that come too often, and with their workers. -/
  failed : run.stage.isClosing = true → run.failed.toNat =
    events.countP (Run.judged Run.Verdict.isRefused) +
      events.countP (Run.judged Run.Verdict.isExhausted) +
      (events.countP Run.crashes + events.countP Run.jams)

/-- A run comes to its end, however many of its workers break down. -/
structure Returns (events : List (Event Dispatcher Dispatcher.Move)) (d : Dispatcher) (c r : Nat)
    (run : Run) : Prop where
  /-- Only so many moves are left, beside those of the task that shows progress. -/
  bounded : ∀ more d', Course Dispatcher.step d more d' →
    (eventsOf r more).countP (·.move.isWork) ≤ run.effort
  /-- A crew that is at work can come to its end by itself. -/
  joins : run.stage = .delivering → ∀ now, ∃ more d' run',
    Course Dispatcher.step d more d' ∧ InOrder more ∧
    (∀ e ∈ more, now ≤ e.moment ∧ ∃ move, e.move = .run r move) ∧
    d'.runs[r]? = some run' ∧ run'.stage.isClosing = true
  /-- Where nobody breaks down over what the run posts, and the removals that may go on at once can
  be told apart, its caller gets a report. -/
  reports : (∀ own ∈ eventsOf r events, own.move.breaks = false) →
    d.settings.removalConcurrency.toNat ≤ Plan.maxRemovalPermits →
    ∃ errand, d.Underway c errand ∧ ∀ now, ∃ more d', Completes now d c errand more d'

section Courses

variable {settings : Settings} {directory : Directory} {clocks : Clocks} {d : Dispatcher}
  {events : List (Event Dispatcher Dispatcher.Move)} {e : Event Dispatcher Dispatcher.Move}
  {c r : Nat} {request : Request} {targets : Targets} {run : Run}

/-- A run in which not the whole crew breaks down loses the jobs of broken workers and no others. -/
private theorem survives_of_course {plan : Plan} {began : Moment} {cancelled : Bool}
    {events : List (Event Run Run.Move)}
    (course : Course Run.step (.opening plan began cancelled) events run)
    (distinct : plan.targets.Nodup) (countable : plan.targets.length < 2 ^ 64)
    (going : run.tally.cancelled = false)
    (survives : events.countP Run.crashes + events.countP Run.jams < plan.crew) :
    Survives plan.targets events run := by
  have lost := Run.lost_of_course course
  rw [← lost] at survives
  have drained := Run.drained_of_survivor course survives
  constructor
  · intro started ended
    have none := drained started ended
    rw [Run.pending_of_ended ended, Run.queued, Multiset.coe_eq_zero, List.map_eq_nil_iff] at none
    exact none
  · intro started ended x target
    rcases Run.reached_of_course course distinct going survives x target with there | reached
    · simp [Run.recipients, drained started ended] at there
    · exact reached
  · intro closing
    have explained := (Run.explained_of_course course countable).closed
      (by constructor <;> intro stage <;> simp [stage, Run.Stage.isClosing] at closing)
      (by rwa [(Run.plan_of_course course).1])
    rw [← explained, Run.failures, Run.passed_of_going course going, Run.countP_isFailure, lost,
      add_zero]

private theorem underway_of_starts
    (course : Course Dispatcher.step (.start settings directory clocks) events d)
    (member : e ∈ events) (starts : e.Starts c r request targets) (present : d.runs[r]? = some run)
    (whole : run.stage ≠ .broken) :
    ∃ errand : Errand, errand.isResolve = false ∧ d.Underway c errand ∧ d.Offers c := by
  obtain ⟨past, rest, rfl⟩ := List.append_of_mem member
  obtain ⟨-, made, late⟩ := course.around
  obtain ⟨errand, chats, reach, -, broadcast, listing, -⟩ := starts.listed
  obtain ⟨errand', running⟩ := starts.running
  obtain ⟨stage, there, -⟩ := Dispatcher.rises_of_step made listing
  cases there.symm.trans running
  have attends : d.Attends c r errand :=
    late.invariant (.running running) fun made => Dispatcher.attends_of_step made
  have offers {stage : Caller.Stage} (there : d.callers[c]? = some ⟨errand, stage⟩)
      (told : 2 < stage.rank) : d.Offers c := by
    constructor
    · intro _ _ listing
      cases there.symm.trans listing
      simp [Caller.Stage.rank] at told
    · intro _ _ _ listing
      cases there.symm.trans listing
      simp [Caller.Stage.rank] at told
  refine ⟨errand, broadcast, ?_⟩
  cases attends with
  | running running =>
      exact ⟨.running running present whole, offers running (by simp [Caller.Stage.rank])⟩
  | report told present finished =>
      exact ⟨.reported told present finished, offers told (by simp [Caller.Stage.rank])⟩
  | broken _ there broken =>
      cases there.symm.trans present
      exact absurd broken whole

private theorem returns_of_starts
    (course : Course Dispatcher.step (.start settings directory clocks) events d)
    (member : e ∈ events)
    (starts : e.Starts c r request targets) (present : d.runs[r]? = some run) :
    Returns events d c r run := by
  have own := own_of_starts course member starts present
  have same : e.before.settings = settings := settings_of_member course member
  refine ⟨fun more d' => bounded_of_run course present, ?_, ?_⟩
  · intro delivering now
    have started := (Run.staffed_of_course own).started delivering
    have fits : settings.removalConcurrency.toNat ≤ Plan.maxRemovalPermits := by
      rw [← same]
      exact Nat.le_trans (Nat.le_max_left _ _) (Run.fits_of_course own started)
    obtain ⟨more, d', run', report, future, inOrder, moves, there, finished⟩ :=
      finishes_of_run course fits present (by simp [delivering]) now
    exact ⟨more, d', run', future, inOrder, moves, there, by rw [finished]; rfl⟩
  · intro calm fits
    rw [settings_of_course course] at fits
    have plan : run.plan = e.before.plan request targets := (Run.plan_of_course own).1
    have permits := permits_of_course course fits present
    rw [plan] at permits
    have whole := Run.unbroken_of_course own permits calm (by simp)
    obtain ⟨errand, broadcast, way, offers⟩ := underway_of_starts course member starts present whole
    exact ⟨errand, way, completes_of_underway course fits broadcast way offers⟩

/-- Workers that break down take their own jobs with them, and nobody else's; and the run goes on to
its end. -/
theorem broken_workers_lose_their_own_jobs
    (course : Course Dispatcher.step (.start settings directory clocks) events d)
    (member : e ∈ events)
    (starts : e.Starts c r request targets) (present : d.runs[r]? = some run) :
    (run.tally.cancelled = false →
      (eventsOf r events).countP Run.crashes + (eventsOf r events).countP Run.jams <
        min (max settings.workers.toNat 1) targets.list.length →
      Survives targets.list (eventsOf r events) run) ∧
    Returns events d c r run := by
  refine ⟨fun going survives => ?_, returns_of_starts course member starts present⟩
  have own := own_of_starts course member starts present
  have same : e.before.settings = settings := settings_of_member course member
  have crew : (e.before.plan request targets).crew = _ := Run.crew_eq starts.nonempty
  refine survives_of_course own starts.distinct starts.countable going ?_
  rw [← same] at survives
  rw [crew]
  exact survives

end Courses

/-- One of two workers breaks down over its delivery, and the other one carries the rest through. -/
theorem broken_workers_lose_their_own_jobs_three : ∃ events d e run,
    Course Dispatcher.step (.start { workers := 2 } (.ofUsers [⟨1⟩, ⟨2⟩, ⟨3⟩] (by decide))) events d ∧
    e ∈ events ∧ e.Starts 0 0 { source := ⟨-42, 7⟩ } (.ofUsers [⟨1⟩, ⟨2⟩, ⟨3⟩]) ∧
    d.runs[0]? = some run ∧ run.tally.cancelled = false ∧ run.stage.isClosing = true ∧
    (eventsOf 0 events).countP Run.crashes = 1 ∧ run.failed = 2 ∧
    Survives [⟨1⟩, ⟨2⟩, ⟨3⟩] (eventsOf 0 events) run ∧ Returns events d 0 0 run := by
  have own := course_of_replay Run.step
    (.opening ((Dispatcher.start { workers := 2 } (.ofUsers [⟨1⟩, ⟨2⟩, ⟨3⟩] (by decide))).plan
      { source := ⟨-42, 7⟩ } (.ofUsers [⟨1⟩, ⟨2⟩, ⟨3⟩])) 0 false)
    [(0, .announced (.gave none)), (0, .worker 0 .pop), (0, .worker 1 .pop),
      (0, .worker 0 .permit), (1, .worker 1 .permit), (2, .worker 0 (.answered .broke)),
      (3, .worker 1 (.answered (.gave (.ok ())))), (3, .worker 1 .pop), (4, .worker 1 .permit),
      (5, .worker 1 (.answered (.gave (.error .peerBlocked)))), (5, .worker 1 .pop),
      (5, .joined)] rfl
  obtain ⟨events, d, e, course, member, starts, present, same, -⟩ :=
    lone_of_users rfl (by decide) (by simp) own (by decide)
  have one : (eventsOf 0 events).countP Run.crashes = 1 := by
    rw [same]
    rfl
  have fewer : (eventsOf 0 events).countP Run.crashes + (eventsOf 0 events).countP Run.jams < 2 := by
    rw [same]
    decide
  obtain ⟨survives, returns⟩ :=
    broken_workers_lose_their_own_jobs course member starts present
  exact ⟨events, d, e, _, course, member, starts, present, rfl, rfl, one, rfl,
    survives rfl fewer, returns⟩

/-- A run goes on and no delivery breaks down, but its pause is so long that its only worker breaks
down over the first permit: nobody is tried, and a job fails that neither an error nor a rate limit
ended. -/
theorem unreached_after_endless_pause : ∃ events d e run,
    Course Dispatcher.step (.start {} (.ofUsers [⟨1⟩] (List.nodup_singleton _))) events d ∧
    e ∈ events ∧
    e.Starts 0 0 { source := ⟨-42, 7⟩, delay := some ⟨2 ^ 64 - 1⟩ } (.ofUsers [⟨1⟩]) ∧
    d.runs[0]? = some run ∧ run.tally.cancelled = false ∧ run.stage.isClosing = true ∧
    (eventsOf 0 events).countP Run.crashes = 0 ∧ attemptsTo ⟨1⟩ (eventsOf 0 events) = 0 ∧
    run.failed = 1 ∧ (eventsOf 0 events).countP (Run.judged Run.Verdict.isRefused) = 0 ∧
    (eventsOf 0 events).countP (Run.judged Run.Verdict.isExhausted) = 0 := by
  have own := course_of_replay Run.step
    (.opening ((Dispatcher.start {} (.ofUsers [⟨1⟩] (List.nodup_singleton _))).plan
      { source := ⟨-42, 7⟩, delay := some ⟨2 ^ 64 - 1⟩ } (.ofUsers [⟨1⟩])) 0 false)
    [(0, .announced (.gave none)), (0, .worker 0 .pop), (0, .worker 0 .permit),
      (0, .joined)] rfl
  obtain ⟨events, d, e, course, member, starts, present, same, -⟩ :=
    lone_of_users rfl (by decide) (by simp) own (by decide)
  refine ⟨events, d, e, _, course, member, starts, present, rfl, rfl, ?_⟩
  rw [same]
  exact ⟨rfl, rfl, rfl, rfl, rfl⟩

end Broadcast
