import Broadcast.Proofs.Run.Verdicts

/-!
# The meters of a run

Each delivery that a run begins is under way, has been answered, or has broken down; and what the
answers come to is what the run publishes. So the counters that are published agree with those of
the run and of its report.
-/

namespace Broadcast.Run

/-- Whether a worker waits for the end of a delivery. -/
def Worker.calls : Worker → Nat
  | delivering _ => 1
  | idle | waiting _ | resting _ | finished | broken => 0

/-- The deliveries that are under way. -/
def calling (r : Run) : Nat :=
  r.crewSum Worker.calls

/-- The job ends. -/
def Verdict.ends (verdict : Verdict) : Bool :=
  !verdict.isPostponed

/-- The deliveries that came to an end: with a verdict, or with the worker. -/
def answered (events : List (Event Run Move)) : Nat :=
  events.countP (judged Verdict.ends) + events.countP (judged Verdict.isPostponed) +
    events.countP crashes

theorem answered_concat (events : List (Event Run Move)) (e : Event Run Move) :
    answered (events ++ [e]) = answered events + answered [e] := by
  simp only [answered, List.countP_append]
  omega

section Moves

variable {now : Moment} {r r' : Run} {move : Move} {effects : List Effect}

private theorem answered_of_verdict {e : Event Run Move} {verdict : Verdict}
    (judged : verdict? e = some verdict) (calm : crashes e = false) : answered [e] = 1 := by
  simp only [answered, List.countP_singleton, Run.judged, judged, calm]
  cases verdict <;> rfl

/-- With a turn a delivery begins, comes to an end, or goes on. -/
private theorem Turn.calls {i : Nat} {m : WorkerMove} (turn : Turn now r i m r' effects) :
    (effects.filterMap Effect.attempt?).length + r.calling =
      r'.calling + answered [⟨now, r, .worker i m, r', effects⟩] := by
  have sets {w : Worker} (w' : Worker) (present : r.workers[i]? = some w)
      (set : r'.workers = r.workers.set i w')
      (sum : (effects.filterMap Effect.attempt?).length + w.calls =
        w'.calls + answered [⟨now, r, .worker i m, r', effects⟩]) :
      (effects.filterMap Effect.attempt?).length + r.calling =
        r'.calling + answered [⟨now, r, .worker i m, r', effects⟩] := by
    have change : r'.calling + w.calls = r.calling + w'.calls :=
      crewSum_of_set Worker.calls present set
    omega
  have answers {outcome : Except DeliveryError Unit} {job : Job} (w' : Worker)
      (delivering : r.workers[i]? = some (.delivering job)) (free : w'.calls = 0)
      (move : m = .answered (.gave outcome))
      (quiet : effects.filterMap Effect.attempt? = [])
      (set : r'.workers = r.workers.set i w') :
      (effects.filterMap Effect.attempt?).length + r.calling =
        r'.calling + answered [⟨now, r, .worker i m, r', effects⟩] := by
    apply sets w' delivering set
    subst move
    rw [quiet, free, answered_of_verdict (verdict_of_delivering delivering outcome) rfl]
    rfl
  cases turn with
  | finish present | drop present | take present | wake present =>
      exact sets _ present rfl rfl
  | jam present | skip present | call present | crash present => exact sets _ present rfl rfl
  | succeed delivering | exhaust delivering | dismiss delivering | refuse delivering =>
      exact answers .idle delivering rfl rfl rfl rfl
  | @postpone job error wait delivering =>
      exact answers (.resting (r.plan.clocks.after now wait)) delivering rfl rfl rfl rfl

private theorem calls_of_step (made : r.step now move = some (r', effects)) (staffed : r.Staffed) :
    (effects.filterMap Effect.attempt?).length + r.calling =
      r'.calling + answered [⟨now, r, move, r', effects⟩] := by
  have quiet (other : ∀ i m, move ≠ .worker i m) (none : effects.filterMap Effect.attempt? = [])
      (same : r'.calling = r.calling) :
      (effects.filterMap Effect.attempt?).length + r.calling =
        r'.calling + answered [⟨now, r, move, r', effects⟩] := by
    have silent := (receipt_of_not_worker made other).1
    have calm := (calm_of_not_worker (e := ⟨now, r, move, r', effects⟩) other).1
    simp [none, same, answered, judged, silent, calm]
  cases change_of_step made with
  | turn turn => exact turn.calls
  | crew announcing =>
      refine quiet (by simp) (quiet_crew r _) ?_
      rw [calling, calling, crewSum, crewSum, staffed.unstarted announcing]
      simp [Worker.calls]
  | join => exact quiet (by simp) rfl (by rw [calling, calling, crewSum, crewSum, joined_workers])
  | aside aside other _ none =>
      exact quiet other none (by rw [calling, calling, crewSum, crewSum, aside.workers])

end Moves

section Courses

variable {events : List (Event Run Move)} {plan : Plan} {began : Moment} {cancelled : Bool}
  {r : Run}

/-- Each delivery that has begun is under way or has come to an end. -/
theorem calls_of_course (course : Course step (opening plan began cancelled) events r) :
    (events.flatMap Event.attempts).length = r.calling + answered events := by
  induction course with
  | start => rfl
  | next past made ih =>
      have calls := calls_of_step made (staffed_of_course past)
      rw [List.flatMap_append, List.length_append, List.flatMap_singleton, answered_concat, ih,
        Event.attempts]
      dsimp only
      omega

theorem calling_of_ended (ended : r.workers.all Worker.hasEnded = true) : r.calling = 0 := by
  apply crewSum_eq_zero
  intro w present
  have ended := List.all_eq_true.mp ended w present
  cases w <;> first | rfl | cases ended

private theorem arrival_iff_delivered (e : Event Run Move) :
    (answer? e).toList.countP (·.2.isOk) = [e].countP (judged Verdict.isDelivered) := by
  have refused (cap : UInt32) (job : Job) (error : DeliveryError) :
      (Verdict.judge cap job (.error error)).isDelivered = false := by
    simp only [Verdict.judge]
    split
    · split <;> rfl
    · rfl
  obtain ⟨now, r, move, r', effects⟩ := e
  unfold answer? answerTo
  dsimp only
  split
  next i outcome =>
    split
    next job delivering =>
      rw [List.countP_singleton, judged, verdict_of_delivering delivering]
      cases outcome with
      | ok => rfl
      | error error => simp [refused, Except.isOk, Except.toBool]
    next other =>
      have none : verdict? ⟨now, r, .worker i (.answered (.gave outcome)), r', effects⟩ = none := by
        unfold verdict?
        dsimp only
        split
        next job delivering => exact absurd delivering (other job)
        next => rfl
      simp [judged, none]
  next other =>
    have none : verdict? ⟨now, r, move, r', effects⟩ = none := by
      unfold verdict?
      split
      next i outcome same => exact absurd same (other i outcome)
      next => rfl
    simp [judged, none]

/-- The deliveries that a run has counted are those that ended with the verdict to do so. -/
theorem delivered_of_course (course : Course step (opening plan began cancelled) events r)
    (countable : plan.targets.length < 2 ^ 64) :
    r.success.toNat = events.countP (judged Verdict.isDelivered) := by
  rw [success_of_course course countable]
  clear course
  induction events using List.reverseRecOn with
  | nil => rfl
  | append_singleton events e ih =>
      rw [arrivals_concat, ih, arrival_iff_delivered, List.countP_append]

/-- What is published of the jobs agrees with what a run does and counts. -/
structure Metered (mode : DeliveryMode) (crew : Nat) (published : List Metric.Counter)
    (events : List (Event Run Move)) (r : Run) : Prop where
  /-- As many successes are published as the run counts. -/
  success : published.countP (·.result? = some "success") = r.success.toNat
  /-- As long as the crew is at work, the run counts the other results and the jobs passed over. -/
  going : r.stage = .announcing ∨ r.stage = .delivering →
    published.countP Metric.Counter.isFailure + published.count .cancelledJobs = r.failed.toNat
  /-- Then it counts on top the jobs of workers that broke down, unless the whole crew did. -/
  closed : r.stage.isClosing = true → events.countP crashes + events.countP jams < crew →
    published.countP Metric.Counter.isFailure + published.count .cancelledJobs +
      (events.countP crashes + events.countP jams) = r.failed.toNat
  /-- Each delivery that began is published with a result or as put back, unless it broke down or
  is under way. -/
  calls : (events.flatMap Event.attempts).length =
    published.countP (·.result?.isSome) + published.count (.rateLimits true) +
      events.countP crashes + r.calling
  /-- No delivery is under way once the crew has ended. -/
  idle : r.stage.isClosing = true → r.calling = 0
  /-- Each rate limit that ends a job is published as the result of its delivery. -/
  exhausted : published.count (.rateLimits false) =
    published.countP (·.result? = some "retries_exhausted")
  /-- Results are published with the mode of the run. -/
  mode : ∀ counter ∈ published, ∀ other, counter.mode? = some other → other = mode
  /-- The report says what the run has counted. -/
  report : ∀ report, r.stage.report? = some report →
    report.success = r.success ∧ report.failed = r.failed

/-- Whatever is published beside what becomes of the jobs is of no importance. -/
theorem Metered.congr {mode : DeliveryMode} {crew : Nat} {published published' : List Metric.Counter}
    (metered : Metered mode crew published events r)
    (same : published'.filter Metric.Counter.isJob = published.filter Metric.Counter.isJob) :
    Metered mode crew published' events r := by
  have countP {counted : Metric.Counter → Bool}
      (jobs : ∀ counter, counted counter = true → counter.isJob = true) :
      published'.countP counted = published.countP counted := by
    rw [Metric.countP_jobs jobs, same, ← Metric.countP_jobs jobs]
  have count {counter : Metric.Counter} (job : counter.isJob = true) :
      published'.count counter = published.count counter := by
    rw [← List.count_filter job, same, List.count_filter job]
  obtain ⟨success, going, closed, calls, idle, exhausted, mode, report⟩ := metered
  have failures : published'.countP Metric.Counter.isFailure =
      published.countP Metric.Counter.isFailure :=
    countP fun _ => Metric.Counter.isJob_of_isFailure
  have results : published'.countP (·.result?.isSome) = published.countP (·.result?.isSome) :=
    countP fun _ => Metric.Counter.isJob_of_result
  have result (text : String) : published'.countP (·.result? = some text) =
      published.countP (·.result? = some text) :=
    countP fun _ some => Metric.Counter.isJob_of_result (by simp [of_decide_eq_true some])
  refine ⟨?_, ?_, ?_, ?_, idle, ?_, ?_, report⟩
  · rw [result, success]
  · rw [failures, count rfl]
    exact going
  · rw [failures, count rfl]
    exact closed
  · rw [results, count rfl, calls]
  · rw [result, count rfl, exhausted]
  · intro counter member other some
    refine mode counter ?_ other some
    have job : counter.isJob = true := by
      cases counter <;> first | rfl | cases some
    exact (List.mem_filter.mp (same ▸ List.mem_filter.mpr ⟨member, job⟩)).1

private theorem Verdict.mode_of_counters {mode other : DeliveryMode} (verdict : Verdict)
    {counter : Metric.Counter} (published : counter ∈ verdict.counters mode)
    (some : counter.mode? = some other) : other = mode := by
  cases verdict with
  | delivered | refused =>
      obtain rfl := List.mem_singleton.mp published
      exact (Option.some.inj some).symm
  | exhausted =>
      rcases List.mem_pair.mp published with rfl | rfl
      · cases some
      · exact (Option.some.inj some).symm
  | postponed =>
      obtain rfl := List.mem_singleton.mp published
      cases some

private theorem mode_of_course (course : Course step (opening plan began cancelled) events r)
    {counter : Metric.Counter} (published : counter ∈ counters events) {mode : DeliveryMode}
    (some : counter.mode? = some mode) : mode = plan.mode := by
  obtain ⟨e, member, published⟩ := List.mem_flatMap.mp published
  have job : counter ∈ jobCounters e := by
    refine List.mem_filter.mpr ⟨published, ?_⟩
    cases counter <;> first | rfl | cases some
  have receipt := receipt_of_course course member
  obtain ⟨past, rest, rfl⟩ := List.append_of_mem member
  have same : e.before.plan = plan := (plan_of_course course.around.1).1
  cases receipt with
  | none _ silent => simp [silent] at job
  | pass _ _ one =>
      rw [one, List.mem_singleton] at job
      rw [job] at some
      cases some
  | @judge verdict _ one =>
      rw [one, same] at job
      exact verdict.mode_of_counters job some

private theorem label_ne (error : DeliveryError) :
    error.label ≠ "success" ∧ error.label ≠ "retries_exhausted" := by
  cases error <;> simp [DeliveryError.label]

private theorem countP_label (course : Course step (opening plan began cancelled) events r)
    {text : String} {kind : Verdict → Bool}
    (same : ∀ mode verdict, (Verdict.counters mode verdict).countP (·.result? = some text) =
      (kind verdict).toNat) :
    (counters events).countP (·.result? = some text) = events.countP (judged kind) :=
  countP_counters course (fun _ some => Metric.Counter.isJob_of_result
    (by simp [of_decide_eq_true some])) rfl same

private theorem count_rateLimits (course : Course step (opening plan began cancelled) events r)
    {spare : Bool} {kind : Verdict → Bool}
    (same : ∀ mode verdict, (Verdict.counters mode verdict).count (.rateLimits spare) =
      (kind verdict).toNat) :
    (counters events).count (.rateLimits spare) = events.countP (judged kind) :=
  countP_counters course (fun _ equal => eq_of_beq equal ▸ rfl) (beq_false_of_ne (by simp)) same

private theorem countP_success (course : Course step (opening plan began cancelled) events r) :
    (counters events).countP (·.result? = some "success") =
      events.countP (judged Verdict.isDelivered) := by
  refine countP_label course fun mode verdict => ?_
  cases verdict <;> simp [Verdict.counters, Verdict.isDelivered, Metric.Counter.result?,
    Metric.Ending.label, label_ne]

private theorem countP_exhausted (course : Course step (opening plan began cancelled) events r) :
    (counters events).countP (·.result? = some "retries_exhausted") =
      events.countP (judged Verdict.isExhausted) := by
  refine countP_label course fun mode verdict => ?_
  cases verdict <;> simp [Verdict.counters, Verdict.isExhausted, Metric.Counter.result?,
    Metric.Ending.label, label_ne]

private theorem countP_failures (course : Course step (opening plan began cancelled) events r) :
    (counters events).countP Metric.Counter.isFailure =
      events.countP (judged Verdict.isFailure) := by
  refine countP_counters course (fun _ => Metric.Counter.isJob_of_isFailure) rfl
    fun mode verdict => ?_
  cases verdict <;> simp [Verdict.counters, Verdict.isFailure, Verdict.isRefused,
    Verdict.isExhausted, Metric.Counter.isFailure, Metric.Counter.result?, Metric.Ending.label,
    label_ne]

private theorem countP_results (course : Course step (opening plan began cancelled) events r) :
    (counters events).countP (·.result?.isSome) = events.countP (judged Verdict.ends) := by
  refine countP_counters course (fun _ => Metric.Counter.isJob_of_result) rfl
    fun mode verdict => ?_
  cases verdict <;> rfl

private theorem count_limits (course : Course step (opening plan began cancelled) events r) :
    (counters events).count (.rateLimits true) = events.countP (judged Verdict.isPostponed) ∧
      (counters events).count (.rateLimits false) =
        events.countP (judged Verdict.isExhausted) := by
  constructor <;> refine count_rateLimits course fun mode verdict => ?_ <;>
    cases verdict <;> rfl

/-- What a run publishes of its jobs agrees with what it does and counts. -/
theorem metered_of_course (course : Course step (opening plan began cancelled) events r)
    (countable : plan.targets.length < 2 ^ 64) :
    Metered plan.mode plan.crew (counters events) events r := by
  have explained := explained_of_course course countable
  have staffed := staffed_of_course course
  obtain ⟨postponed, late⟩ := count_limits course
  constructor
  · rw [countP_success course, delivered_of_course course countable]
  · rw [countP_failures course]
    exact explained.going
  · intro closing survives
    rw [← lost_of_course course] at survives ⊢
    rw [countP_failures course]
    refine explained.closed ⟨?_, ?_⟩ (by rwa [(plan_of_course course).1]) <;> intro stage <;>
      simp [stage, Stage.isClosing] at closing
  · rw [countP_results course, postponed, calls_of_course course, answered]
    omega
  · exact fun closing => calling_of_ended (staffed.closed closing).2.1
  · rw [late, countP_exhausted course]
  · exact fun counter => mode_of_course course
  · exact fun report made => ((balanced_of_course course countable).report report made).2

end Courses

end Broadcast.Run
