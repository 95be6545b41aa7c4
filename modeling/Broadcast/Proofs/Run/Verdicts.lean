import Broadcast.Proofs.Published
import Broadcast.Proofs.Run.Survivors

/-!
# What becomes of the jobs of a run

The answer to a delivery settles what becomes of its job, and this is what the run publishes. Jobs
that end without an answer are passed over in a cancelled run, or go with a worker that breaks down;
all others that fail fail by an answer.
-/

namespace Broadcast.Run

/-- What an answer makes of a job. -/
inductive Verdict
  | delivered
  | refused (error : DeliveryError)
  | exhausted
  | postponed
deriving DecidableEq, Repr

namespace Verdict

/-- What an answer makes of a job that may be put back as often as `cap` says. -/
def judge (cap : UInt32) (job : Job) : Except DeliveryError Unit → Verdict
  | .ok () => delivered
  | .error error =>
    match error.wait? with
    | some _ => if job.retries < cap then postponed else exhausted
    | none => refused error

/-- The job ends with a delivery. -/
def isDelivered : Verdict → Bool
  | delivered => true
  | refused _ | exhausted | postponed => false

/-- The job ends with an error for which there is no other attempt. -/
def isRefused : Verdict → Bool
  | refused _ => true
  | delivered | exhausted | postponed => false

/-- The job ends with a rate limit because it was put back too often. -/
def isExhausted : Verdict → Bool
  | exhausted => true
  | delivered | refused _ | postponed => false

/-- The job is put back. -/
def isPostponed : Verdict → Bool
  | postponed => true
  | delivered | refused _ | exhausted => false

/-- The job ends with a failure. -/
def isFailure (verdict : Verdict) : Bool :=
  verdict.isRefused || verdict.isExhausted

/-- What is published with a verdict. -/
def counters (mode : DeliveryMode) : Verdict → List Metric.Counter
  | delivered => [.deliveries mode .success]
  | refused error => [.deliveries mode (.failed error.label)]
  | exhausted => [.rateLimits false, .deliveries mode .retriesExhausted]
  | postponed => [.rateLimits true]

end Verdict

/-- What the answer that comes with an event makes of its job. -/
def verdict? (e : Event Run Move) : Option Verdict :=
  match e.move with
  | .worker i (.answered (.gave outcome)) =>
    match e.before.workers[i]? with
    | some (.delivering job) => some (.judge e.before.plan.maxRetries job outcome)
    | _ => none
  | _ => none

/-- An answer comes with an event, and the verdict is of some kind. -/
def judged (kind : Verdict → Bool) (e : Event Run Move) : Bool :=
  (verdict? e).any kind

/-- The counters about jobs that go up with an event. -/
def jobCounters (e : Event Run Move) : List Metric.Counter :=
  e.counters.filter Metric.Counter.isJob

/-- The jobs that failed by an answer, or were passed over. -/
def failures (events : List (Event Run Move)) : Nat :=
  events.countP (judged Verdict.isFailure) + (counters events).count .cancelledJobs

theorem countP_isFailure (events : List (Event Run Move)) :
    events.countP (judged Verdict.isFailure) =
      events.countP (judged Verdict.isRefused) + events.countP (judged Verdict.isExhausted) := by
  induction events with
  | nil => rfl
  | cons e events ih =>
      have one : (judged Verdict.isFailure e).toNat =
          (judged Verdict.isRefused e).toNat + (judged Verdict.isExhausted e).toNat := by
        unfold judged
        cases verdict? e with
        | none => rfl
        | some verdict => cases verdict <;> rfl
      simp only [List.countP_cons, ih]
      cases failed : judged Verdict.isFailure e <;> cases refused : judged Verdict.isRefused e <;>
        cases exhausted : judged Verdict.isExhausted e <;>
        simp [failed, refused, exhausted] at one ⊢ <;> omega

/-- What an event publishes of the jobs. -/
inductive Receipt (e : Event Run Move) : Prop
  /-- Nothing. -/
  | none : verdict? e = none → jobCounters e = [] → Receipt e
  /-- A job of a cancelled run is passed over. -/
  | pass :
      verdict? e = none → e.before.tally.cancelled = true → jobCounters e = [.cancelledJobs] →
      Receipt e
  /-- What is made of a job that is answered. -/
  | judge {verdict : Verdict} :
      verdict? e = some verdict → jobCounters e = verdict.counters e.before.plan.mode → Receipt e

section Moves

variable {now : Moment} {r r' : Run} {move : Move} {effects : List Effect}

theorem verdict_of_delivering {i : Nat} {job : Job}
    (delivering : r.workers[i]? = some (.delivering job)) (outcome : Except DeliveryError Unit) :
    verdict? ⟨now, r, .worker i (.answered (.gave outcome)), r', effects⟩ =
      some (.judge r.plan.maxRetries job outcome) := by
  simp [verdict?, delivering]

private theorem Turn.receipt {i : Nat} {m : WorkerMove} (turn : Turn now r i m r' effects) :
    Receipt ⟨now, r, .worker i m, r', effects⟩ ∧
      (failures [⟨now, r, .worker i m, r', effects⟩] = 0 ∧ r'.failed = r.failed ∨
        failures [⟨now, r, .worker i m, r', effects⟩] = 1 ∧ r'.failed = r.failed + 1) := by
  have judge (verdict : Verdict)
      (judged : verdict? ⟨now, r, .worker i m, r', effects⟩ = some verdict)
      (published : effects.filterMap Effect.counter? = verdict.counters r.plan.mode) :
      Receipt ⟨now, r, .worker i m, r', effects⟩ ∧
        failures [⟨now, r, .worker i m, r', effects⟩] = verdict.isFailure.toNat := by
    have same : jobCounters ⟨now, r, .worker i m, r', effects⟩ = verdict.counters r.plan.mode := by
      rw [jobCounters, Event.counters, published]
      cases verdict <;> rfl
    refine ⟨.judge judged same, ?_⟩
    rw [failures, List.countP_singleton, Run.judged, judged, counters_cons, Event.counters,
      published]
    cases verdict <;> rfl
  cases turn with
  | finish | take | jam | call | crash | wake => exact ⟨.none rfl rfl, .inl ⟨rfl, rfl⟩⟩
  | drop _ _ cancelled | skip _ _ cancelled =>
      exact ⟨.pass rfl cancelled rfl, .inr ⟨rfl, rfl⟩⟩
  | succeed delivering =>
      obtain ⟨receipt, none⟩ := judge .delivered
        (verdict_of_delivering delivering _) rfl
      exact ⟨receipt, .inl ⟨none, rfl⟩⟩
  | postpone delivering limited spare =>
      obtain ⟨receipt, none⟩ := judge .postponed
        (by simp [verdict_of_delivering delivering, Verdict.judge, limited, spare]) rfl
      exact ⟨receipt, .inl ⟨none, rfl⟩⟩
  | exhaust delivering limited spent =>
      obtain ⟨receipt, one⟩ := judge .exhausted
        (by simp [verdict_of_delivering delivering, Verdict.judge, limited, spent]) rfl
      exact ⟨receipt, .inr ⟨one, rfl⟩⟩
  | @dismiss _ error delivering final | @refuse _ error delivering final =>
      obtain ⟨receipt, one⟩ := judge (.refused error)
        (by simp [verdict_of_delivering delivering, Verdict.judge, final]) rfl
      exact ⟨receipt, .inr ⟨one, rfl⟩⟩

private theorem counters_of_announced (r : Run) (answer : Answer (Option Handle)) :
    (r.announced answer).2.filterMap Effect.counter? = [] := by
  cases answer with
  | broke => rfl
  | gave notice =>
      unfold announced
      dsimp only
      split <;> split <;> simp [Effect.counter?]

theorem receipt_of_not_worker (made : r.step now move = some (r', effects))
    (other : ∀ i m, move ≠ .worker i m) :
    verdict? ⟨now, r, move, r', effects⟩ = none ∧ jobCounters ⟨now, r, move, r', effects⟩ = [] := by
  constructor
  · unfold verdict?
    split
    next i _ move => exact absurd move (other i _)
    next => rfl
  · rw [jobCounters, Event.counters]
    cases way_of_step made with
    | worker turn => exact absurd rfl (other _ _)
    | removal leaving => cases leaving <;> rfl
    | display showing => cases showing <;> rfl
    | leg leg =>
        cases leg with
        | overrun | crew => rw [counters_of_announced, List.filter_nil]
        | lost | join | drain | timeOut | report | send | editLost | edited | resend | replyLost
        | replied | cancel => rfl

theorem silent_of_over (made : r.step now move = some (r', effects)) (staffed : r.Staffed)
    (isOver : r.stage.isOver = true) : jobCounters ⟨now, r, move, r', effects⟩ = [] := by
  cases change_of_step made with
  | turn turn => simp [turn.delivering staffed, Stage.isOver] at isOver
  | crew | join => exact (receipt_of_not_worker made (by simp)).2
  | aside _ other => exact (receipt_of_not_worker made other).2

theorem receipt_of_step (made : r.step now move = some (r', effects)) :
    Receipt ⟨now, r, move, r', effects⟩ := by
  cases change_of_step made with
  | turn turn => exact turn.receipt.1
  | crew | join =>
      obtain ⟨none, silent⟩ := receipt_of_not_worker made (by simp)
      exact .none none silent
  | aside _ other =>
      obtain ⟨none, silent⟩ := receipt_of_not_worker made other
      exact .none none silent

/-! ## The failures of a run -/

/-- Every failure that a run counts has a reason. -/
structure Explained (events : List (Event Run Move)) (r : Run) : Prop where
  /-- As long as the crew is at work, jobs fail by an answer, or are passed over. -/
  going : r.stage = .announcing ∨ r.stage = .delivering → failures events = r.failed.toNat
  /-- Unless the whole crew broke down, all others went with workers that did. -/
  closed : r.stage ≠ .announcing ∧ r.stage ≠ .delivering → r.lost < r.plan.crew →
    failures events + r.lost = r.failed.toNat

theorem failures_concat (events : List (Event Run Move)) (e : Event Run Move) :
    failures (events ++ [e]) = failures events + failures [e] := by
  simp only [failures, List.countP_append, counters_append, List.count_append]
  omega

private theorem failures_of_silent {e : Event Run Move} (none : verdict? e = none)
    (silent : jobCounters e = []) : failures [e] = 0 := by
  have passes : (counters [e]).count .cancelledJobs = (jobCounters e).count .cancelledJobs := by
    rw [jobCounters, List.count_filter rfl, counters_cons, counters_nil, List.append_nil]
  rw [failures, passes, silent, List.countP_singleton, judged, none]
  rfl

private theorem toNat_succ_of_le {n : UInt64} (grows : n.toNat ≤ (n + 1).toNat) :
    (n + 1).toNat = n.toNat + 1 := by
  rw [UInt64.toNat_add, UInt64.toNat_one] at grows ⊢
  omega

/-- At the end of the crew, those jobs count as failed that went with workers that broke down. -/
private theorem failed_of_joined (now : Moment) {r : Run} (staffed : r.Staffed)
    (balanced : r.Balanced) (slack : r.Slack) (delivering : r.stage = .delivering)
    (ended : r.workers.all Worker.hasEnded = true) (survives : r.lost < r.plan.crew) :
    (r.joined now).1.failed.toNat = r.failed.toNat + r.lost := by
  have size := staffed.size.resolve_left (staffed.started delivering)
  have sum := balanced.jobs (.inr delivering)
  rw [pending_of_survivor slack ended (survivor_of_lost ended (size ▸ survives)),
    Multiset.card_zero] at sum
  have settled := settled now balanced.le_total
  have success : (r.joined now).1.success = r.success := by
    unfold joined
    dsimp only
    split <;> rfl
  rw [success] at settled
  omega

private theorem explained_of_step {events : List (Event Run Move)}
    (made : r.step now move = some (r', effects)) (staffed : r.Staffed) (balanced : r.Balanced)
    (slack : r.Slack) (explained : Explained events r) :
    Explained (events ++ [⟨now, r, move, r', effects⟩]) r' := by
  have quiet (other : ∀ i m, move ≠ .worker i m) :
      failures (events ++ [⟨now, r, move, r', effects⟩]) = failures events := by
    obtain ⟨none, silent⟩ := receipt_of_not_worker made other
    rw [failures_concat, failures_of_silent none silent, add_zero]
  cases change_of_step made with
  | turn turn =>
      have delivering := turn.delivering staffed
      have stage := turn.keeps.2.2.1.trans delivering
      have before := explained.going (.inr delivering)
      have grows := (turn.deed.le (balanced.jobs (.inr delivering))).2
      refine ⟨fun _ => ?_, fun late => absurd stage late.2⟩
      rcases turn.receipt.2 with ⟨none, same⟩ | ⟨one, more⟩
      · rw [failures_concat, none, before, same, add_zero]
      · rw [more] at grows
        rw [failures_concat, one, before, more, toNat_succ_of_le grows]
  | crew announcing =>
      refine ⟨fun _ => ?_, fun late => absurd rfl late.2⟩
      rw [quiet (by simp)]
      exact explained.going (.inl announcing)
  | join delivering ended =>
      have closing := stage_joined now r
      refine ⟨fun going => ?_, fun _ survives => ?_⟩
      · rcases going with going | going <;> simp [going, Stage.isClosing] at closing
      · have lost : (r.joined now).1.lost = r.lost := by
          rw [lost, lost, crewSum, crewSum, joined_workers]
        rw [lost, (joined_keeps now r).1] at survives
        -- Here the jobs of broken workers come to be counted as failed.
        rw [quiet (by simp), lost, explained.going (.inr delivering),
          failed_of_joined now staffed balanced slack delivering ended survives]
  | aside aside other =>
      have lost := (pending_congr aside.queue aside.workers).2
      constructor
      · intro goesOn
        rw [quiet other, aside.failed]
        rcases aside.stage with same | ⟨-, broken⟩ | ⟨-, late⟩
        · exact explained.going (same ▸ goesOn)
        · simp [broken] at goesOn
        · rcases goesOn with goesOn | goesOn <;> simp [goesOn, Stage.isClosing] at late
      · intro late survives
        rw [lost, aside.plan] at survives
        rw [quiet other, aside.failed, lost]
        rcases aside.stage with same | ⟨announcing, -⟩ | ⟨closing, -⟩
        · exact explained.closed (same ▸ late) survives
        · have none : r.lost = 0 := crewSum_eq_zero (by simp [staffed.unstarted announcing])
          rw [none, add_zero, explained.going (.inl announcing)]
        · refine explained.closed ⟨?_, ?_⟩ survives <;> intro stage <;>
            simp [stage, Stage.isClosing] at closing

end Moves

section Courses

variable {events : List (Event Run Move)} {plan : Plan} {began : Moment} {cancelled : Bool}
  {r : Run}

/-- Every event of a run publishes what becomes of a job, or nothing about jobs. -/
theorem receipt_of_course (course : Course step (opening plan began cancelled) events r)
    {e : Event Run Move} (member : e ∈ events) : Receipt e := by
  obtain ⟨past, rest, rfl⟩ := List.append_of_mem member
  exact receipt_of_step course.around.2.1

/-- Every failure that a run counts has a reason. -/
theorem explained_of_course (course : Course step (opening plan began cancelled) events r)
    (countable : plan.targets.length < 2 ^ 64) : Explained events r := by
  induction course with
  | start => exact ⟨fun _ => rfl, fun late => absurd rfl late.1⟩
  | next past made ih =>
      exact explained_of_step made (staffed_of_course past) (balanced_of_course past countable)
        (slack_of_course past) ih

/-- Only a cancelled run passes over jobs. -/
theorem passed_of_going (course : Course step (opening plan began cancelled) events r)
    (going : r.tally.cancelled = false) : (counters events).count .cancelledJobs = 0 := by
  apply List.count_eq_zero_of_not_mem
  intro passed
  obtain ⟨e, member, passed⟩ := List.mem_flatMap.mp passed
  have job : .cancelledJobs ∈ jobCounters e := List.mem_filter.mpr ⟨passed, rfl⟩
  have receipt := receipt_of_course course member
  obtain ⟨past, rest, rfl⟩ := List.append_of_mem member
  obtain ⟨-, made, later⟩ := course.around
  cases receipt with
  | none _ silent => simp [silent] at job
  | pass _ cancelled =>
      cases going.symm.trans (cancelled_of_course later (cancelled_of_step made cancelled))
  | @judge verdict _ same =>
      rw [same] at job
      cases verdict <;> simp [Verdict.counters] at job

/-- A counter about answered jobs goes up as often as the verdicts say. -/
theorem countP_counters (course : Course step (opening plan began cancelled) events r)
    {counted : Metric.Counter → Bool} {kind : Verdict → Bool}
    (jobs : ∀ counter, counted counter = true → counter.isJob = true)
    (passed : counted .cancelledJobs = false)
    (same : ∀ mode verdict, (Verdict.counters mode verdict).countP counted =
      (kind verdict).toNat) :
    (counters events).countP counted = events.countP (judged kind) := by
  have one {e : Event Run Move} (receipt : Receipt e) :
      e.counters.countP counted = (judged kind e).toNat := by
    rw [Metric.countP_jobs jobs, ← jobCounters]
    cases receipt with
    | none none silent => simp [silent, judged, none]
    | pass none _ one => simp [one, passed, judged, none]
    | judge some published => rw [published, same, judged, some, Option.any_some]
  have receipts := fun e member => receipt_of_course course (e := e) member
  clear course
  induction events with
  | nil => rfl
  | cons e events ih =>
      obtain ⟨first, rest⟩ := List.forall_mem_cons.mp receipts
      rw [counters_cons, List.countP_append, one first, ih rest, List.countP_cons, add_comm]
      cases judged kind e <;> rfl

end Courses

end Broadcast.Run
