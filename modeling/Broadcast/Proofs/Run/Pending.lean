import Broadcast.Proofs.Run.Crew
import Mathlib.Algebra.Order.Group.Multiset

/-!
# The jobs that have not ended

A job that has not ended is in the queue or in the hand of a worker. Seen as a multiset, these jobs
change in few ways: a delivery of one of them begins, one of them is put back, one of them ends.
Where a job is, and which worker has it, is of no importance to what becomes of it.
-/

namespace Broadcast.Run

/-- The job that a worker has in hand, and whether its delivery has begun. -/
def Worker.inHand : Worker → Multiset (Job × Bool)
  | waiting job => {(job, false)}
  | delivering job => {(job, true)}
  | idle | resting _ | finished | broken => 0

/-- A worker that broke down took a job with it. -/
def Worker.lost : Worker → Nat
  | broken => 1
  | idle | waiting _ | delivering _ | resting _ | finished => 0

/-- The jobs in the queue. -/
def queued (r : Run) : Multiset (Job × Bool) :=
  (r.queue.map fun job => (job, false) : List (Job × Bool))

/-- The jobs that have not ended, each with whether its delivery has begun. -/
def pending (r : Run) : Multiset (Job × Bool) :=
  r.queued + r.crewSum Worker.inHand

/-- The recipients whose jobs have not ended. -/
def recipients (r : Run) : Multiset Recipient :=
  r.pending.map fun entry => entry.1.recipient

/-- The jobs that went with a worker that broke down. -/
def lost (r : Run) : Nat :=
  r.crewSum Worker.lost

/-- What has become of the jobs that ended: deliveries, failures, and jobs that nobody counted. -/
def books (r : Run) : UInt64 × UInt64 × Nat :=
  (r.success, r.failed, r.lost)

/-- The answer to a delivery that comes with a move, and whose delivery it is. -/
def answerTo (r : Run) : Move → Option (Recipient × Except DeliveryError Unit)
  | .worker i (.answered (.gave outcome)) =>
    match r.workers[i]? with
    | some (.delivering job) => some (job.recipient, outcome)
    | _ => none
  | _ => none

/-- What a move does to the jobs that have not ended, by the answer that comes with it and the
deliveries that begin with it. -/
inductive Deed (r r' : Run) : Option (Recipient × Except DeliveryError Unit) → List Attempt → Prop
  /-- Nothing begins and nothing ends. -/
  | keep :
      r'.pending = r.pending → r'.books = r.books → Deed r r' none []
  /-- The delivery of a job begins. -/
  | call {job : Job} {rest : Multiset (Job × Bool)} :
      r.tally.cancelled = false →
      r.pending = (job, false) ::ₘ rest → r'.pending = (job, true) ::ₘ rest →
      r'.books = r.books → Deed r r' none [⟨job.recipient, r.plan.source, r.plan.mode⟩]
  /-- A job of a cancelled run ends without a delivery. -/
  | skip {job : Job} :
      r.tally.cancelled = true → r.pending = (job, false) ::ₘ r'.pending →
      r'.books = (r.success, r.failed + 1, r.lost) → Deed r r' none []
  /-- A job goes with a worker that breaks down. -/
  | lose {job : Job} {begun : Bool} :
      r.pending = (job, begun) ::ₘ r'.pending →
      r'.books = (r.success, r.failed, r.lost + 1) → Deed r r' none []
  /-- A job ends with a delivery. -/
  | succeed {job : Job} :
      r.pending = (job, true) ::ₘ r'.pending →
      r'.books = (r.success + 1, r.failed, r.lost) →
      Deed r r' (some (job.recipient, .ok ())) []
  /-- A job is put back. -/
  | postpone {job : Job} {rest : Multiset (Job × Bool)} {error : DeliveryError} {wait : Duration} :
      r.pending = (job, true) ::ₘ rest → r'.pending = (job.again, false) ::ₘ rest →
      error.wait? = some wait → job.retries < r.plan.maxRetries → r'.books = r.books →
      Deed r r' (some (job.recipient, .error error)) []
  /-- A job ends with a failure. -/
  | fail {job : Job} {error : DeliveryError} :
      r.pending = (job, true) ::ₘ r'.pending →
      (error.wait? = none ∨ ¬job.retries < r.plan.maxRetries) →
      r'.books = (r.success, r.failed + 1, r.lost) →
      Deed r r' (some (job.recipient, .error error)) []
  /-- The crew has ended, and what has not been counted counts as failed. -/
  | settle :
      r.stage = .delivering → r.workers.all Worker.hasEnded = true → r'.pending = 0 →
      r'.books = (r.success, r.failed + r.tally.progress.missing, r.lost) →
      Deed r r' none []

theorem pending_congr {r r' : Run} (queue : r'.queue = r.queue)
    (workers : r'.workers = r.workers) : r'.pending = r.pending ∧ r'.lost = r.lost := by
  constructor
  · rw [pending, pending, queued, queued, crewSum, crewSum, queue, workers]
  · rw [lost, lost, crewSum, crewSum, workers]

theorem pending_opening (plan : Plan) (now : Moment) (cancelled : Bool) :
    (opening plan now cancelled).pending =
      (plan.targets.map fun target => (Job.fresh target, false) : List (Job × Bool)) := by
  simp [pending, queued, crewSum, Function.comp_def]

@[simp] theorem lost_opening (plan : Plan) (now : Moment) (cancelled : Bool) :
    (opening plan now cancelled).lost = 0 := by
  simp [lost, crewSum]

/-! ## Hands and queue under a turn -/

theorem pending_of_set {r : Run} (r' : Run) {i : Nat} {w w' : Worker}
    (present : r.workers[i]? = some w) (set : r'.workers = r.workers.set i w')
    (queue : r'.queue = r.queue) : r'.pending + w.inHand = r.pending + w'.inHand := by
  have hands := crewSum_of_set Worker.inHand present set
  rw [pending, pending, queued, queued, queue, add_assoc, hands, add_assoc]

theorem pending_of_pop {r : Run} (r' : Run) {i : Nat} {w' : Worker} {job : Job}
    (idle : r.workers[i]? = some .idle) (set : r'.workers = r.workers.set i w')
    (front : r.queue = job :: r'.queue) :
    r'.pending + {(job, false)} = r.pending + w'.inHand := by
  have hands := crewSum_of_set Worker.inHand idle set
  have queue : r.queued = (job, false) ::ₘ r'.queued := by
    rw [queued, front]
    rfl
  rw [Worker.inHand, add_zero] at hands
  rw [pending, pending, hands, queue, ← Multiset.singleton_add]
  abel

theorem pending_of_drop {r : Run} (r' : Run) {i : Nat} {w w' : Worker} {entry : Job × Bool}
    (present : r.workers[i]? = some w) (set : r'.workers = r.workers.set i w')
    (queue : r'.queue = r.queue) (held : w.inHand = {entry}) (free : w'.inHand = 0) :
    r.pending = entry ::ₘ r'.pending := by
  have change := pending_of_set r' present set queue
  rw [held, free, add_zero] at change
  rw [← change, add_comm, Multiset.singleton_add]

theorem books_of_set {r r' : Run} {i : Nat} {w : Worker} (w' : Worker)
    (present : r.workers[i]? = some w) (set : r'.workers = r.workers.set i w')
    (going : w.hasEnded = false) : r'.books = (r'.success, r'.failed, r.lost + w'.lost) := by
  have change := crewSum_of_set Worker.lost present set
  have none : w.lost = 0 := by cases w <;> first | rfl | cases going
  rw [none, add_zero] at change
  simp only [books, lost, change]

theorem inHand_of_hasEnded {w : Worker} (ended : w.hasEnded = true) : w.inHand = 0 := by
  cases w <;> first | rfl | cases ended

theorem pending_of_ended {r : Run} (ended : r.workers.all Worker.hasEnded = true) :
    r.pending = r.queued := by
  rw [pending, crewSum_eq_zero, add_zero]
  intro w present
  exact inHand_of_hasEnded (List.all_eq_true.mp ended w present)

theorem answerTo_of_delivering {r : Run} {i : Nat} {job : Job}
    (delivering : r.workers[i]? = some (.delivering job)) (outcome : Except DeliveryError Unit) :
    r.answerTo (.worker i (.answered (.gave outcome))) = some (job.recipient, outcome) := by
  simp [answerTo, delivering]

private theorem deed_of_take {r : Run} {i : Nat} {job : Job} {queue : List Job}
    (idle : r.workers[i]? = some .idle) (front : r.queue = job :: queue) :
    Deed r { r.setWorker i (.waiting job) with queue } none [] := by
  have pending := pending_of_pop { r.setWorker i (.waiting job) with queue } idle rfl front
  exact .keep (add_right_cancel pending) (books_of_set (.waiting job) idle rfl rfl)

private theorem deed_of_drop {r : Run} {i : Nat} {job : Job} {queue : List Job}
    (idle : r.workers[i]? = some .idle) (front : r.queue = job :: queue)
    (cancelled : r.tally.cancelled = true) :
    Deed r { r.setWorker i .idle with queue, tally := r.tally.addFailure } none [] := by
  have pending := pending_of_pop { r.setWorker i .idle with queue, tally := r.tally.addFailure }
    idle rfl front
  rw [Worker.inHand, add_zero, add_comm, Multiset.singleton_add] at pending
  exact .skip cancelled pending.symm (books_of_set .idle idle rfl rfl)

private theorem deed_of_call {r : Run} {i : Nat} {job : Job}
    (waiting : r.workers[i]? = some (.waiting job)) (going : r.tally.cancelled = false) :
    Deed r { r.setWorker i (.delivering job) with paced := true } none
      [⟨job.recipient, r.plan.source, r.plan.mode⟩] := by
  have pending := pending_of_set { r.setWorker i (.delivering job) with paced := true }
    waiting rfl rfl
  obtain ⟨rest, before⟩ : ∃ rest, r.pending = (job, false) ::ₘ rest :=
    ⟨_, pending_of_drop (r.setWorker i .idle) waiting rfl rfl rfl rfl⟩
  refine .call going before ?_ (books_of_set (.delivering job) waiting rfl rfl)
  rw [before, Worker.inHand, Worker.inHand, ← Multiset.singleton_add] at pending
  rw [← Multiset.singleton_add]
  apply add_right_cancel (b := {(job, false)})
  rw [pending]
  abel

private theorem deed_of_postpone {r : Run} {i : Nat} {job : Job} {error : DeliveryError}
    {wait : Duration} {wakeAt : Moment} (delivering : r.workers[i]? = some (.delivering job))
    (limited : error.wait? = some wait) (spare : job.retries < r.plan.maxRetries) :
    Deed r { r.setWorker i (.resting wakeAt) with queue := r.queue ++ [job.again] }
      (some (job.recipient, .error error)) [] := by
  have dropped := pending_of_drop (r.setWorker i (.resting wakeAt)) delivering rfl rfl rfl rfl
  refine .postpone dropped ?_ limited spare (books_of_set (.resting wakeAt) delivering rfl rfl)
  have queue : queued { r.setWorker i (.resting wakeAt) with queue := r.queue ++ [job.again] } =
      (job.again, false) ::ₘ r.queued := by
    simp [queued, add_comm, ← Multiset.coe_add, ← Multiset.singleton_add]
  rw [pending, queue, Multiset.cons_add]
  rfl

private theorem deed_of_failure {r r' : Run} {i : Nat} {job : Job} {error : DeliveryError}
    (delivering : r.workers[i]? = some (.delivering job))
    (final : error.wait? = none ∨ ¬job.retries < r.plan.maxRetries)
    (set : r'.workers = r.workers.set i .idle) (queue : r'.queue = r.queue)
    (tally : r'.tally = r.tally.addFailure) :
    Deed r r' (some (job.recipient, .error error)) [] := by
  refine .fail (pending_of_drop _ delivering set queue rfl rfl) final ?_
  rw [books_of_set .idle delivering set rfl, success, failed, tally]
  rfl

/-- A turn is one of the deeds. -/
theorem Turn.deed {now : Moment} {r r' : Run} {i : Nat} {move : WorkerMove}
    {effects : List Effect} (turn : Turn now r i move r' effects) :
    Deed r r' (r.answerTo (.worker i move)) (effects.filterMap Effect.attempt?) := by
  cases turn with
  | finish idle =>
      have pending := pending_of_set (r.setWorker i .finished) idle rfl rfl
      exact .keep (add_right_cancel pending) (books_of_set .finished idle rfl rfl)
  | drop idle front cancelled => exact deed_of_drop idle front cancelled
  | take idle front => exact deed_of_take idle front
  | jam waiting =>
      exact .lose (pending_of_drop _ waiting rfl rfl rfl rfl)
        (books_of_set .broken waiting rfl rfl)
  | skip waiting _ cancelled =>
      exact .skip cancelled (pending_of_drop _ waiting rfl rfl rfl rfl)
        (books_of_set .idle waiting rfl rfl)
  | call waiting _ going => exact deed_of_call waiting going
  | crash delivering =>
      have answer : r.answerTo (.worker i (.answered .broke)) = none := rfl
      rw [answer]
      exact .lose (pending_of_drop _ delivering rfl rfl rfl rfl)
        (books_of_set .broken delivering rfl rfl)
  | succeed delivering =>
      rw [answerTo_of_delivering delivering]
      exact .succeed (pending_of_drop _ delivering rfl rfl rfl rfl)
        (books_of_set .idle delivering rfl rfl)
  | postpone delivering limited spare =>
      rw [answerTo_of_delivering delivering]
      exact deed_of_postpone delivering limited spare
  | exhaust delivering _ spent =>
      rw [answerTo_of_delivering delivering]
      exact deed_of_failure delivering (.inr spent) rfl rfl rfl
  | dismiss delivering final | refuse delivering final =>
      rw [answerTo_of_delivering delivering]
      exact deed_of_failure delivering (.inl final) rfl rfl rfl
  | wake resting =>
      have pending := pending_of_set (r.setWorker i .idle) resting rfl rfl
      exact .keep (add_right_cancel pending) (books_of_set .idle resting rfl rfl)

/-! ## Every move -/

theorem answerTo_of_not_worker {r : Run} {move : Move} (other : ∀ i m, move ≠ .worker i m) :
    r.answerTo move = none := by
  unfold answerTo
  split
  next i outcome => exact absurd rfl (other i _)
  next => rfl

private theorem crewSum_of_replicate {M : Type} [AddCommMonoid M] {f : Worker → M} {r : Run}
    {n : Nat} (fresh : r.workers = List.replicate n .idle) (zero : f .idle = 0) :
    r.crewSum f = 0 := by
  apply crewSum_eq_zero
  intro w present
  rw [fresh] at present
  rw [List.eq_of_mem_replicate present, zero]

section Crew

variable {r r' : Run} {n : Nat}

theorem pending_of_crew (staffed : r.Staffed) (announcing : r.stage = .announcing)
    (queue : r'.queue = r.queue) (fresh : r'.workers = List.replicate n .idle) :
    r'.pending = r.pending := by
  have hands : r.crewSum Worker.inHand = 0 :=
    crewSum_eq_zero (by simp [staffed.unstarted announcing])
  rw [pending, pending, hands, crewSum_of_replicate fresh rfl, queued, queued, queue]

theorem lost_of_crew (staffed : r.Staffed) (announcing : r.stage = .announcing)
    (fresh : r'.workers = List.replicate n .idle) : r'.lost = r.lost := by
  have lost : r.crewSum Worker.lost = 0 :=
    crewSum_eq_zero (by simp [staffed.unstarted announcing])
  rw [Run.lost, Run.lost, lost, crewSum_of_replicate fresh rfl]

end Crew

theorem pending_joined (now : Moment) {r : Run} (ended : r.workers.all Worker.hasEnded = true) :
    (r.joined now).1.pending = 0 := by
  rw [pending_of_ended (by rwa [joined_workers]), queued, joined_queue]
  rfl

/-- Every move of a run is one of the deeds. -/
theorem deed_of_step {now : Moment} {r r' : Run} {move : Move} {effects : List Effect}
    (made : r.step now move = some (r', effects)) (staffed : r.Staffed) :
    Deed r r' (r.answerTo move) (effects.filterMap Effect.attempt?) := by
  cases change_of_step made with
  | turn turn => exact turn.deed
  | @crew notice announcing =>
      rw [quiet_crew]
      refine .keep (pending_of_crew staffed announcing rfl rfl) ?_
      rw [books, books, lost_of_crew staffed announcing rfl]
  | join delivering ended =>
      have quiet : (r.joined now).2.filterMap Effect.attempt? = [] := rfl
      have lost : (r.joined now).1.lost = r.lost := by
        rw [Run.lost, Run.lost, crewSum, crewSum, joined_workers]
      rw [quiet]
      refine .settle delivering ended (pending_joined now ended) ?_
      rw [books, lost]
      unfold joined
      dsimp only
      split <;> rfl
  | aside aside other _ quiet =>
      rw [answerTo_of_not_worker other, quiet]
      obtain ⟨pending, lost⟩ := pending_congr aside.queue aside.workers
      exact .keep pending (by rw [books, books, aside.success, aside.failed, lost])

/-- A cancelled run begins no delivery. -/
theorem quiet_of_cancelled {r r' : Run} {events : List (Event Run Move)}
    (course : Course step r events r') (staffed : r.Staffed)
    (cancelled : r.tally.cancelled = true) : events.flatMap Event.attempts = [] := by
  have all : (r'.Staffed ∧ r'.tally.cancelled = true) ∧ events.flatMap Event.attempts = [] := by
    induction course with
    | start => exact ⟨⟨staffed, cancelled⟩, rfl⟩
    | @next events now s t move effects _ made ih =>
        obtain ⟨⟨staffed, cancelled⟩, quiet⟩ := ih
        refine ⟨⟨staffed_of_step made staffed, cancelled_of_step made cancelled⟩, ?_⟩
        have deed := deed_of_step made staffed
        generalize s.answerTo move = answer at deed
        generalize attempts : effects.filterMap Effect.attempt? = tries at deed
        rw [List.flatMap_append, quiet, List.nil_append, List.flatMap_singleton, Event.attempts,
          attempts]
        cases deed with
        | call going => cases cancelled.symm.trans going
        | keep | skip | lose | succeed | postpone | fail | settle => rfl
  exact all.2

end Broadcast.Run
