import Broadcast.Proofs.Dispatcher.Launch
import Broadcast.Proofs.Run.Fates
import Broadcast.Proofs.Run.Queue

/-!
# Jobs of the runs of a dispatcher

At every moment of every run a target is in one place only: its job waits in the queue or is in the
hands of one worker, or it has been counted, once, or a worker broke down with its job. The queue
has fresh jobs in front and those that were put back behind them.
-/

namespace Broadcast

/-- The worker waits for the answer to a delivery. -/
def Run.Worker.isDelivering : Run.Worker → Bool
  | delivering _ => true
  | idle | waiting _ | resting _ | finished | broken => false

/-- Where the jobs of a run are, given its targets, and the workers and retries it was allowed. -/
structure InPlace (targets : List Recipient) (workers : Nat) (retries : UInt32)
    (events : List (Event Run Run.Move)) (run : Run) : Prop where
  /-- The queue holds the fresh jobs of the last targets, then jobs that were put back. -/
  queue : ∃ last back, run.queue = last.map Job.fresh ++ back ∧ last <:+ targets ∧
    ∀ job ∈ back, 1 ≤ job.retries ∧ job.retries ≤ retries
  /-- No recipient has two jobs in queue and hands. -/
  distinct : ((run.queue ++ run.hands).map Job.recipient).Nodup
  /-- All jobs are for targets. -/
  subset : ∀ job ∈ run.queue ++ run.hands, job.recipient ∈ targets
  /-- As many are counted as the counters say. -/
  counters : (Run.fates events).counted.card = run.success.toNat + run.failed.toNat
  /-- Nobody is counted twice. -/
  once : (Run.fates events).counted.Nodup
  /-- Nobody is counted before the job has ended. -/
  uncounted : ∀ job ∈ run.queue ++ run.hands, job.recipient ∉ (Run.fates events).counted
  /-- A target without a job has been counted, or a worker broke down with its job in hand. -/
  ended : ∀ x ∈ targets, (∀ job ∈ run.queue ++ run.hands, job.recipient ≠ x) →
    (Run.fates events).counted.count x = 1 ∨ ∃ e ∈ events, Run.Loses x e
  /-- Once the crew has ended, each target has been counted. -/
  settled : run.stage.isClosing = true → (Run.fates events).counted = targets
  /-- A job that was put back is taken only after the fresh job of each target. -/
  order : ∀ past e rest job, events = past ++ e :: rest → Run.taken? e = some job →
    job.retries ≠ 0 → targets.map Job.fresh <+: Run.taken past
  /-- No two workers deliver to the same recipient. -/
  apart : ∀ (i j : Nat) (job job' : Job), run.workers[i]? = some (.delivering job) →
    run.workers[j]? = some (.delivering job') → job.recipient = job'.recipient → i = j
  /-- Not more deliveries are under way than there are workers, or targets. -/
  bound : run.workers.countP Run.Worker.isDelivering ≤ min (max workers 1) targets.length

section Courses

variable {plan : Plan} {began : Moment} {cancelled : Bool} {events : List (Event Run Run.Move)}
  {run : Run}

/-- In a run for distinct targets all jobs are in their place. -/
private theorem inPlace_of_course
    (course : Course Run.step (.opening plan began cancelled) events run)
    (distinct : plan.targets.Nodup) (nonempty : plan.targets ≠ [])
    (countable : plan.targets.length < 2 ^ 64) :
    InPlace plan.targets plan.workers.toNat plan.maxRetries events run := by
  have staffed := Run.staffed_of_course course
  have tracked := Run.tracked_of_course course distinct
  have accounted := Run.accounted_of_course course countable
  have same : run.plan = plan := (Run.plan_of_course course).1
  have apart := Multiset.nodup_add.mp
    (Multiset.nodup_of_le accounted.le_targets (Multiset.coe_nodup.mpr distinct))
  have jobs {x : Recipient} :
      x ∈ run.recipients ↔ ∃ job ∈ run.queue ++ run.hands, job.recipient = x := by
    rw [Run.recipients_eq, Multiset.mem_coe, List.mem_map]
  constructor
  · exact Run.parts_of_queue course
  · rw [← Multiset.coe_nodup, ← Run.recipients_eq]
    exact apart.1
  · intro job member
    rw [← same]
    exact tracked.subset _ (jobs.mpr ⟨job, member, rfl⟩)
  · exact accounted.counters
  · exact apart.2.1
  · intro job member counted
    exact Multiset.disjoint_left.mp apart.2.2 (jobs.mpr ⟨job, member, rfl⟩) counted
  · intro x target jobless
    have absent : x ∉ run.recipients := by
      rw [jobs]
      rintro ⟨job, member, mine⟩
      exact jobless job member mine
    exact (accounted.ended target absent).imp_left (Multiset.count_eq_one_of_mem apart.2.1)
  · intro closing
    apply accounted.settled
    rw [Run.processed_eq, (Run.balanced_of_course course countable).closed closing,
      (Run.plan_of_course course).2.2, Run.opening_total, UInt64.toNat_ofNat_of_lt' countable]
  · rintro past e rest job rfl took again
    exact Run.fresh_taken_of_retry course took again
  · exact fun i j job job' => tracked.alone
  · calc run.workers.countP Run.Worker.isDelivering ≤ run.workers.length := List.countP_le_length
      _ ≤ plan.crew := by
          rcases staffed.size with none | size
          · simp [none]
          · rw [size, same]
      _ ≤ min (max plan.workers.toNat 1) plan.targets.length := (Run.crew_eq nonempty).le

end Courses

/-- At every moment of every run all jobs are in their place. -/
theorem jobs_are_in_place {settings : Settings} {directory : Directory} {clocks : Clocks}
    {d : Dispatcher} {events : List (Event Dispatcher Dispatcher.Move)}
    (course : Course Dispatcher.step (.start settings directory clocks) events d) :
    ∀ r run, d.runs[r]? = some run → ∃ e ∈ events, ∃ c request targets,
      e.Starts c r request targets ∧
      InPlace targets.list settings.workers.toNat settings.maxRetries (eventsOf r events) run := by
  intro r run present
  obtain ⟨c, e, member, request, targets, starts⟩ := origin_of_run course present
  have own := own_of_starts course member starts present
  have inPlace := inPlace_of_course own starts.distinct starts.nonempty starts.countable
  have same : e.before.settings = settings := settings_of_member course member
  refine ⟨e, member, c, request, targets, starts, ?_⟩
  rw [← same]
  exact inPlace

/-- Of two workers one breaks down with its job in hand, and the other one puts its job back. -/
theorem jobs_are_in_place_after_crash : ∃ events d run,
    Course Dispatcher.step
      (.start { workers := 2, maxRetries := 1 } (.ofUsers [⟨1⟩, ⟨2⟩] (by decide))) events d ∧
    d.runs[0]? = some run ∧ run.queue = [⟨⟨2⟩, 1⟩] ∧ run.hands = [] ∧
    ∃ e ∈ events, ∃ c request targets, e.Starts c 0 request targets ∧
      InPlace targets.list 2 1 (eventsOf 0 events) run := by
  have own := course_of_replay Run.step
    (.opening ((Dispatcher.start { workers := 2, maxRetries := 1 }
      (.ofUsers [⟨1⟩, ⟨2⟩] (by decide))).plan { source := ⟨-42, 7⟩ } (.ofUsers [⟨1⟩, ⟨2⟩])) 0 false)
    [(0, .announced (.gave none)), (0, .worker 0 .pop), (0, .worker 1 .pop),
      (0, .worker 0 .permit), (1, .worker 1 .permit), (2, .worker 0 (.answered .broke)),
      (3, .worker 1 (.answered (.gave (.error (.rateLimited (.ofSecs 1))))))] rfl
  obtain ⟨events, d, e, course, -, -, present, -, -⟩ :=
    lone_of_users rfl (by decide) (by simp) own (by decide)
  exact ⟨events, d, _, course, present, rfl, rfl, jobs_are_in_place course 0 _ present⟩

end Broadcast
