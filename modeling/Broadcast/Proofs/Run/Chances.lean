import Broadcast.Proofs.Run.Ending
import Broadcast.Proofs.Run.Queue

/-!
# How often jobs are taken

A job that waits can be taken once more than it may still be put back, and one in the hands of a
worker as often as it may be put back. Whoever takes a job uses up a chance of it; putting it back
only keeps the others. So the chances that a run has at its start bound all that its workers take.
-/

namespace Broadcast

/-- How often a job that waits can still be taken, if it may be put back as often as `cap` says. -/
def Job.chances (cap : UInt32) (job : Job) : Nat :=
  cap.toNat - job.retries.toNat + 1

namespace Run

/-- How often the job in the hands of a worker can be taken again. -/
def Worker.chances (cap : UInt32) : Worker → Nat
  | waiting job | delivering job => cap.toNat - job.retries.toNat
  | idle | resting _ | finished | broken => 0

/-- How often jobs can still be taken. -/
def chances (r : Run) : Nat :=
  (r.queue.map (Job.chances r.plan.maxRetries)).sum +
    r.crewSum (Worker.chances r.plan.maxRetries)

theorem chances_opening (plan : Plan) (now : Moment) (cancelled : Bool) :
    (opening plan now cancelled).chances =
      plan.targets.length * (plan.maxRetries.toNat + 1) := by
  have fresh : Job.chances plan.maxRetries ∘ Job.fresh =
      Function.const _ (plan.maxRetries.toNat + 1) := rfl
  simp [chances, crewSum, fresh]

section Moves

variable {now : Moment} {r r' : Run} {move : Move} {effects : List Effect}

/-- A turn that takes a job uses up a chance, and no turn brings one back. -/
private theorem Turn.chances {i : Nat} {move : WorkerMove}
    (turn : Turn now r i move r' effects) :
    (taken? ⟨now, r, .worker i move, r', effects⟩).toList.length + r'.chances ≤ r.chances := by
  obtain ⟨plan, -, -, -, -⟩ := turn.keeps
  have room {w : Worker} (w' : Worker) (present : r.workers[i]? = some w)
      (set : r'.workers = r.workers.set i w') {n : Nat}
      (room : n + (r'.queue.map (Job.chances r.plan.maxRetries)).sum +
          w'.chances r.plan.maxRetries ≤
        (r.queue.map (Job.chances r.plan.maxRetries)).sum + w.chances r.plan.maxRetries) :
      n + r'.chances ≤ r.chances := by
    have change := crewSum_of_set (Worker.chances r.plan.maxRetries) present set
    rw [Run.chances, Run.chances, plan]
    omega
  cases turn with
  | finish idle empty =>
      exact room .finished idle rfl (by simp [taken?, setWorker, empty, Worker.chances])
  | drop idle front =>
      apply room .idle idle rfl
      simp [taken?, front, Worker.chances, Job.chances]
  | @take job _ idle front =>
      apply room (.waiting job) idle rfl
      simp [taken?, front, Worker.chances, Job.chances]
      omega
  | jam present | crash present =>
      exact room .broken present rfl (by simp [taken?, setWorker, Worker.chances])
  | skip present | succeed present | wake present =>
      exact room .idle present rfl (by simp [taken?, setWorker, Worker.chances])
  | exhaust present | dismiss present | refuse present =>
      exact room .idle present rfl (by simp [taken?, fail, setWorker, Worker.chances])
  | @call job present =>
      exact room (.delivering job) present rfl (by simp [taken?, setWorker, Worker.chances])
  | @postpone job error wait present _ spare =>
      have spare := UInt32.lt_iff_toNat_lt.mp spare
      apply room (.resting (r.plan.clocks.after now wait)) present rfl
      simp [taken?, Worker.chances, Job.chances, retries_again spare]
      omega

theorem chances_of_step (made : r.step now move = some (r', effects)) :
    (taken? ⟨now, r, move, r', effects⟩).toList.length + r'.chances ≤ r.chances := by
  cases change_of_step made with
  | turn turn => exact turn.chances
  | crew => simp [taken?, chances, crewSum, Worker.chances]
  | join =>
      have plan := (joined_keeps now r).1
      simp [taken?, chances, crewSum, joined_workers, joined_queue, plan]
  | aside aside other =>
      have none : taken? ⟨now, r, move, r', effects⟩ = none := (untouched_of_not_worker other).1
      simp [none, chances, crewSum, aside.queue, aside.workers, aside.plan]

/-- A job is put back by the worker that delivered it, and its retries can be counted. -/
theorem again_of_putBack (made : r.step now move = some (r', effects)) {back : Job}
    (came : putBack? ⟨now, r, move, r', effects⟩ = some back) :
    ∃ (i : Nat) (job : Job), r.workers[i]? = some (.delivering job) ∧ job.again? = some back ∧
      back.retries.toNat = job.retries.toNat + 1 := by
  cases change_of_step made with
  | @turn i _ _ _ turn =>
      cases turn with
      | @postpone job _ _ present _ spare =>
          obtain rfl : job.again = back := by simpa [putBack?] using came
          have spare := UInt32.lt_iff_toNat_lt.mp spare
          have small := r.plan.maxRetries.toNat_lt
          exact ⟨i, job, present, if_pos (by omega), retries_again spare⟩
      | finish | drop | take | jam | skip | call | wake => cases came
      | crash | succeed | exhaust | dismiss | refuse =>
          simp [putBack?, fail, setWorker] at came
  | crew | join => cases came
  | aside _ other => cases (untouched_of_not_worker other).2.symm.trans came

end Moves

/-- The workers of a run take no more jobs than it has chances. -/
theorem chances_of_course {events : List (Event Run Move)} {r r' : Run}
    (course : Course step r events r') : (taken events).length + r'.chances ≤ r.chances := by
  induction course with
  | start => simp [taken]
  | next past made ih =>
      have step := chances_of_step made
      rw [taken_concat, List.length_append]
      omega

end Run

end Broadcast
