import Broadcast.Run

/-!
# The moves of a run

What each move does to a run and brings about outside it. A move that is not possible at its
moment has no result.
-/

namespace Broadcast.Run

/-- The workers that have not come to the end of the queue. -/
def activeWorkers (r : Run) : Nat :=
  r.workers.length - r.workers.countP (· = .finished)

/-- The run broken down; whatever it left behind is told to stop. -/
def breakDown (r : Run) : Run :=
  { r with stage := .broken, stopSent := true }

/-- The run waiting for the task that shows progress. -/
def stop (r : Run) : Run :=
  { r with stage := .stopping, stopSent := true }

/-- The run after the answer to its announcement: progress is shown if there is a notice for it,
and the workers start. -/
def announced (r : Run) : Answer (Option Handle) → Run × List Effect
  | .broke => (r.breakDown, [])
  | .gave notice =>
    let shows := r.plan.progressEvery.isSome && notice.isSome
    let r := { r with notice, display := if shows then .fresh else .absent }
    let display := if shows then [Effect.spawn .display] else []
    if Plan.maxRemovalPermits < r.plan.removalPermits then
      (r.breakDown, display)
    else
      let crew := r.plan.crew
      ({ r with stage := .delivering, workers := List.replicate crew .idle },
       display ++ .publish (.set .activeWorkers crew) ::
         (List.range crew).map fun i => .spawn (.worker i))

/-- The run with what one worker is doing changed. -/
def setWorker (r : Run) (i : Nat) (w : Worker) : Run :=
  { r with workers := r.workers.set i w }

/-- A job of a cancelled run is not delivered but counts as failed. -/
def skip (r : Run) (i : Nat) : Run × List Effect :=
  ({ r.setWorker i .idle with tally := r.tally.addFailure }, [.publish (.count .cancelledJobs)])

/-- An idle worker takes the next job, or finishes if there is none. -/
def pop (r : Run) (i : Nat) : Run × List Effect :=
  match r.queue with
  | [] =>
    let r := r.setWorker i .finished
    (r, [.publish (.set .activeWorkers r.activeWorkers)])
  | job :: queue =>
    let r := { r with queue }
    if r.tally.cancelled then r.skip i else (r.setWorker i (.waiting job), [])

/-- A worker with a permit delivers its job, unless the run was cancelled meanwhile. Where the
stream of permits breaks down, the worker does. -/
def permit (r : Run) (i : Nat) (job : Job) : Run × List Effect :=
  if Pacer.breaksDown r.plan.clocks (!r.paced) r.plan.delay then (r.setWorker i .broken, [])
  else
    let r := { r with paced := true }
    if r.tally.cancelled then r.skip i
    else
      (r.setWorker i (.delivering job),
        [.ask (.deliver job.recipient r.plan.source r.plan.mode)])

/-- The metric of a delivery that ended for good. -/
def ending (r : Run) (e : Metric.Ending) : Effect :=
  .publish (.count (.deliveries r.plan.mode e))

/-- A job ends without delivery. -/
def fail (r : Run) (i : Nat) : Run :=
  { r.setWorker i .idle with tally := r.tally.addFailure }

/-- A delivery has an outcome: the job ends, or a rate limit puts it back while the worker rests. -/
def delivered (now : Moment) (r : Run) (i : Nat) (job : Job) :
    Except DeliveryError Unit → Run × List Effect
  | .ok () =>
    ({ r.setWorker i .idle with tally := r.tally.addSuccess }, [r.ending .success])
  | .error error =>
    match error.wait? with
    | some wait =>
      if job.retries < r.plan.maxRetries then
        ({ r.setWorker i (.resting (r.plan.clocks.after now wait)) with
           queue := r.queue ++ [job.again] },
         [.publish (.count (.rateLimits true))])
      else
        (r.fail i, [.publish (.count (.rateLimits false)), r.ending .retriesExhausted])
    | none =>
      let ended := r.ending (.failed error.label)
      if error.isGone then
        ({ r.fail i with removals := r.removals ++ [⟨job.recipient, .queued⟩] },
         [ended, .spawn (.removal r.removals.length)])
      else
        (r.fail i, [ended])

/-- One move of a worker. -/
def stepWorker (now : Moment) (r : Run) (i : Nat) (move : WorkerMove) :
    Option (Run × List Effect) :=
  match r.workers[i]?, move with
  | some .idle, .pop => some (r.pop i)
  | some (.waiting job), .permit => some (r.permit i job)
  | some (.delivering _), .answered .broke => some (r.setWorker i .broken, [])
  | some (.delivering job), .answered (.gave outcome) =>
    let (r, effects) := r.delivered now i job outcome
    some (r, .publish .deliveryTimed :: effects)
  | some (.resting moment), .wake =>
    if moment ≤ now then some (r.setWorker i .idle, []) else none
  | _, _ => none

/-- The removals that are going on. -/
def asking (r : Run) : Nat :=
  r.removals.countP (·.stage = .asking)

/-- The run with the stage of one removal changed. -/
def setRemoval (r : Run) (k : Nat) (stage : RemovalStage) : Run :=
  { r with removals := r.removals.modify k fun removal => { removal with stage } }

/-- One move of a removal. -/
def stepRemoval (r : Run) (k : Nat) (move : RemovalMove) : Option (Run × List Effect) :=
  match r.removals[k]?, move with
  | some ⟨recipient, .queued⟩, .begin =>
    if r.asking < r.plan.removalPermits then
      let listing := Removal.listing ⟨recipient, .queued⟩
      some (r.setRemoval k .asking, [.ask (.remove listing recipient)])
    else
      none
  | some ⟨_, .asking⟩, .answered .broke => some (r.setRemoval k .broken, [])
  | some ⟨recipient, .asking⟩, .answered (.gave left) =>
    let listing := Removal.listing ⟨recipient, .asking⟩
    let r := r.setRemoval k .done
    some (if left then { r with tally := r.tally.addRemoved } else r,
      [.publish (.count (.removals listing left))])
  | _, _ => none

/-- One move of the task that shows progress. It shows only what it did not try to show last. -/
def stepDisplay (now : Moment) (r : Run) (move : DisplayMove) : Option (Run × List Effect) :=
  match r.plan.progressEvery, r.notice with
  | some every, some notice =>
    match r.display, move with
    | .fresh, .begin =>
      let next := Display.watching (r.plan.clocks.after now every) .zero
      some ({ r with display := if r.stopSent then .ended else next }, [])
    | .watching next last, .tick =>
      if next ≤ now then
        let next := r.plan.clocks.after next every
        let progress := r.tally.progress
        if progress = last then
          some ({ r with display := .watching next last }, [])
        else
          some ({ r with display := .editing next progress },
            [.ask (.edit notice (Notice.underWay r.plan.announcement progress))])
      else
        none
    | .editing _ _, .answered .broke => some ({ r with display := .ended }, [])
    | .editing next last, .answered (.gave _) =>
      some ({ r with display := .watching next last }, [])
    | .watching _ _, .halt => if r.stopSent then some ({ r with display := .ended }, []) else none
    | _, _ => none
  | _, _ => none

/-- All workers have ended: what is left counts as failed, and the removals are waited for. -/
def joined (now : Moment) (r : Run) : Run × List Effect :=
  let r := { r with queue := [], tally := r.tally.settle }
  (if r.removals = [] then r.stop
    else { r with stage := .draining (r.plan.clocks.after now r.plan.drainTimeout) },
   [.publish (.set .activeWorkers 0)])

/-- The run reports: in place of its announcement if that was sent. -/
def concluded (now : Moment) (r : Run) : Run × List Effect :=
  let report := r.tally.report ⟨now - r.began⟩
  match r.notice with
  | some notice =>
    ({ r with stage := .editing report }, [.ask (.edit notice (Notice.complete report))])
  | none => ({ r with stage := .replying report }, [.ask (.reply (Notice.complete report))])

/-- One move of a run at a moment, if the move is possible then. -/
def step (now : Moment) (r : Run) (move : Move) : Option (Run × List Effect) :=
  match move, r.stage with
  | .announced answer, .announcing => some (r.announced answer)
  | .worker i move, _ => r.stepWorker now i move
  | .removal k move, _ => r.stepRemoval k move
  | .display move, _ => r.stepDisplay now move
  | .joined, .delivering =>
    if r.workers.all Worker.hasEnded then some (r.joined now) else none
  | .drained, .draining _ =>
    if r.removals.all Removal.hasEnded then some (r.stop, []) else none
  | .timedOut, .draining deadline => if deadline ≤ now then some (r.stop, []) else none
  | .concluded, .stopping => if r.display.hasEnded then some (r.concluded now) else none
  | .edited .broke, .editing _ => some (r.breakDown, [])
  | .edited (.gave true), .editing report => some ({ r with stage := .finished report }, [])
  | .edited (.gave false), .editing report =>
    some ({ r with stage := .replying report }, [.ask (.reply (Notice.complete report))])
  | .replied .broke, .replying _ => some (r.breakDown, [])
  | .replied (.gave ()), .replying report => some ({ r with stage := .finished report }, [])
  | .cancel, _ => some ({ r with tally := r.tally.cancel }, [])
  | _, _ => none

end Broadcast.Run
