import Broadcast.Proofs.Course

/-!
# Turns of a worker

The ways in which a move of a worker can go, each with all that it needs and all that it does.
`stepWorker_eq_some_iff` says that there are no others; nothing below has to look into the
definition of a step again.
-/

namespace Broadcast.Run

/-- The ways in which a move of a worker can go. -/
inductive Turn (now : Moment) (r : Run) (i : Nat) : WorkerMove → Run → List Effect → Prop
  /-- The queue is empty. -/
  | finish :
      r.workers[i]? = some .idle → r.queue = [] →
      Turn now r i .pop (r.setWorker i .finished)
        [.publish (.set .activeWorkers (r.setWorker i .finished).activeWorkers)]
  /-- The next job is not even waited for, because the run was cancelled. -/
  | drop {job : Job} {queue : List Job} :
      r.workers[i]? = some .idle → r.queue = job :: queue → r.tally.cancelled = true →
      Turn now r i .pop { r.setWorker i .idle with queue, tally := r.tally.addFailure }
        [.publish (.count .cancelledJobs)]
  /-- The next job waits for its permit. -/
  | take {job : Job} {queue : List Job} :
      r.workers[i]? = some .idle → r.queue = job :: queue → r.tally.cancelled = false →
      Turn now r i .pop { r.setWorker i (.waiting job) with queue } []
  /-- The stream of permits breaks down, and the worker with it. -/
  | jam {job : Job} :
      r.workers[i]? = some (.waiting job) →
      Pacer.breaksDown r.plan.clocks (!r.paced) r.plan.delay = true →
      Turn now r i .permit (r.setWorker i .broken) []
  /-- The run was cancelled during the wait for a permit. -/
  | skip {job : Job} :
      r.workers[i]? = some (.waiting job) →
      Pacer.breaksDown r.plan.clocks (!r.paced) r.plan.delay = false → r.tally.cancelled = true →
      Turn now r i .permit
        { r.setWorker i .idle with paced := true, tally := r.tally.addFailure }
        [.publish (.count .cancelledJobs)]
  /-- The delivery begins. -/
  | call {job : Job} :
      r.workers[i]? = some (.waiting job) →
      Pacer.breaksDown r.plan.clocks (!r.paced) r.plan.delay = false → r.tally.cancelled = false →
      Turn now r i .permit { r.setWorker i (.delivering job) with paced := true }
        [.ask (.deliver job.recipient r.plan.source r.plan.mode)]
  /-- The delivery breaks down, and the worker with it. -/
  | crash {job : Job} :
      r.workers[i]? = some (.delivering job) →
      Turn now r i (.answered .broke) (r.setWorker i .broken) []
  /-- The message arrived. -/
  | succeed {job : Job} :
      r.workers[i]? = some (.delivering job) →
      Turn now r i (.answered (.gave (.ok ())))
        { r.setWorker i .idle with tally := r.tally.addSuccess }
        [.publish .deliveryTimed, r.ending .success]
  /-- A rate limit puts the job back, and the worker rests. -/
  | postpone {job : Job} {error : DeliveryError} {wait : Duration} :
      r.workers[i]? = some (.delivering job) → error.wait? = some wait →
      job.retries < r.plan.maxRetries →
      Turn now r i (.answered (.gave (.error error)))
        { r.setWorker i (.resting (r.plan.clocks.after now wait)) with
          queue := r.queue ++ [job.again] }
        [.publish .deliveryTimed, .publish (.count (.rateLimits true))]
  /-- A rate limit meets a job that was put back often enough. -/
  | exhaust {job : Job} {error : DeliveryError} {wait : Duration} :
      r.workers[i]? = some (.delivering job) → error.wait? = some wait →
      ¬job.retries < r.plan.maxRetries →
      Turn now r i (.answered (.gave (.error error))) (r.fail i)
        [.publish .deliveryTimed, .publish (.count (.rateLimits false)),
          r.ending .retriesExhausted]
  /-- The recipient is gone and is to leave the directory. -/
  | dismiss {job : Job} {error : DeliveryError} :
      r.workers[i]? = some (.delivering job) → error.wait? = none → error.isGone = true →
      Turn now r i (.answered (.gave (.error error)))
        { r.fail i with removals := r.removals ++ [⟨job.recipient, .queued⟩] }
        [.publish .deliveryTimed, r.ending (.failed error.label),
          .spawn (.removal r.removals.length)]
  /-- The delivery failed for another reason. -/
  | refuse {job : Job} {error : DeliveryError} :
      r.workers[i]? = some (.delivering job) → error.wait? = none → error.isGone = false →
      Turn now r i (.answered (.gave (.error error))) (r.fail i)
        [.publish .deliveryTimed, r.ending (.failed error.label)]
  /-- The worker has rested long enough. -/
  | wake {wakeAt : Moment} :
      r.workers[i]? = some (.resting wakeAt) → wakeAt ≤ now →
      Turn now r i .wake (r.setWorker i .idle) []

private theorem turn_of_pop {now : Moment} {r : Run} {i : Nat}
    (idle : r.workers[i]? = some .idle) : Turn now r i .pop (r.pop i).1 (r.pop i).2 := by
  cases queue : r.queue with
  | nil =>
      rw [pop, queue]
      exact .finish idle queue
  | cons job rest =>
      cases cancelled : r.tally.cancelled with
      | false =>
          have taken : r.pop i = ({ r with queue := rest }.setWorker i (.waiting job), []) := by
            simp [pop, queue, cancelled]
          rw [taken]
          exact .take idle queue cancelled
      | true =>
          have dropped : r.pop i = { r with queue := rest }.skip i := by
            simp [pop, queue, cancelled]
          rw [dropped]
          exact .drop idle queue cancelled

private theorem turn_of_permit {now : Moment} {r : Run} {i : Nat} {job : Job}
    (waiting : r.workers[i]? = some (.waiting job)) :
    Turn now r i .permit (r.permit i job).1 (r.permit i job).2 := by
  cases jammed : Pacer.breaksDown r.plan.clocks (!r.paced) r.plan.delay with
  | true => simpa [permit, jammed] using Turn.jam waiting jammed
  | false =>
      cases cancelled : r.tally.cancelled with
      | false =>
          have called : r.permit i job = ({ r with paced := true }.setWorker i (.delivering job),
              [.ask (.deliver job.recipient r.plan.source r.plan.mode)]) := by
            simp [permit, jammed, cancelled]
          rw [called]
          exact .call waiting jammed cancelled
      | true =>
          have skipped : r.permit i job = { r with paced := true }.skip i := by
            simp [permit, jammed, cancelled]
          rw [skipped]
          exact .skip waiting jammed cancelled

private theorem turn_of_delivered {now : Moment} {r : Run} {i : Nat} {job : Job}
    (delivering : r.workers[i]? = some (.delivering job))
    (outcome : Except DeliveryError Unit) :
    Turn now r i (.answered (.gave outcome)) (r.delivered now i job outcome).1
      (.publish .deliveryTimed :: (r.delivered now i job outcome).2) := by
  cases outcome with
  | ok => exact .succeed delivering
  | error error =>
      unfold delivered
      cases limited : error.wait? with
      | some wait =>
          by_cases spare : job.retries < r.plan.maxRetries
          · simpa [limited, spare] using Turn.postpone delivering limited spare
          · simpa [limited, spare] using Turn.exhaust delivering limited spare
      | none =>
          cases gone : error.isGone with
          | true => simpa [limited, gone] using Turn.dismiss delivering limited gone
          | false => simpa [limited, gone] using Turn.refuse delivering limited gone

theorem turn_of_stepWorker {now : Moment} {r r' : Run} {i : Nat} {move : WorkerMove}
    {effects : List Effect} (made : r.stepWorker now i move = some (r', effects)) :
    Turn now r i move r' effects := by
  unfold stepWorker at made
  split at made
  next idle =>
    have turn : Turn now r i .pop (r.pop i).1 (r.pop i).2 := turn_of_pop idle
    rwa [Option.some.inj made] at turn
  next job waiting =>
    have turn : Turn now r i .permit (r.permit i job).1 (r.permit i job).2 :=
      turn_of_permit waiting
    rwa [Option.some.inj made] at turn
  next delivering =>
    cases made
    exact .crash delivering
  next delivering =>
    cases made
    exact turn_of_delivered delivering _
  next resting =>
    split at made
    next due =>
      cases made
      exact .wake resting due
    next => cases made
  next => cases made

theorem Turn.stepWorker {now : Moment} {r r' : Run} {i : Nat} {move : WorkerMove}
    {effects : List Effect} (turn : Turn now r i move r' effects) :
    r.stepWorker now i move = some (r', effects) := by
  cases turn with
  | finish idle empty => simp [Run.stepWorker, idle, pop, empty]
  | drop idle queue cancelled =>
      simp [Run.stepWorker, idle, pop, queue, cancelled, Run.skip, setWorker]
  | take idle queue going => simp [Run.stepWorker, idle, pop, queue, going, setWorker]
  | jam waiting jammed => simp [Run.stepWorker, waiting, permit, jammed]
  | skip waiting flows cancelled =>
      simp [Run.stepWorker, waiting, permit, flows, cancelled, Run.skip, setWorker]
  | call waiting flows going => simp [Run.stepWorker, waiting, permit, flows, going, setWorker]
  | crash delivering => simp [Run.stepWorker, delivering]
  | succeed delivering => simp [Run.stepWorker, delivering, delivered]
  | postpone delivering limited spare =>
      simp [Run.stepWorker, delivering, delivered, limited, spare]
  | exhaust delivering limited spent =>
      simp [Run.stepWorker, delivering, delivered, limited, spent]
  | dismiss delivering final gone => simp [Run.stepWorker, delivering, delivered, final, gone]
  | refuse delivering final stays => simp [Run.stepWorker, delivering, delivered, final, stays]
  | wake resting due => simp [Run.stepWorker, resting, due]

/-- A move of a worker goes in the ways of `Turn` and in no others. -/
theorem stepWorker_eq_some_iff {now : Moment} {r r' : Run} {i : Nat} {move : WorkerMove}
    {effects : List Effect} :
    r.stepWorker now i move = some (r', effects) ↔ Turn now r i move r' effects :=
  ⟨turn_of_stepWorker, Turn.stepWorker⟩

end Broadcast.Run
