import Broadcast.Proofs.Run.Display
import Broadcast.Proofs.Run.Removals
import Broadcast.Proofs.Run.Turn

/-!
# The ways of a run

A run moves from its announcement to its report in legs of its own; beside them its workers, its
removals and the task that shows progress go their ways. `way_of_step` says that there are no
others.
-/

namespace Broadcast.Run

/-- The run after the answer to its announcement, as far as its display is concerned. -/
def shown (r : Run) (notice : Option Handle) : Run :=
  { r with
    notice
    display := if r.plan.progressEvery.isSome && notice.isSome then .fresh else .absent }

theorem plain_of_announced {r : Run} {answer : Answer (Option Handle)} {effect : Effect}
    (brought : effect ∈ (r.announced answer).2) :
    (∃ metric, effect = .publish metric) ∨ ∃ part, effect = .spawn part := by
  cases answer with
  | broke => simp [announced] at brought
  | gave notice =>
      unfold announced at brought
      dsimp only at brought
      split at brought <;> split at brought <;> aesop

/-- The legs of the course of a run. -/
inductive Leg (now : Moment) (r : Run) : Move → Run → List Effect → Prop
  /-- The announcement breaks down. -/
  | lost : r.stage = .announcing → Leg now r (.announced .broke) r.breakDown []
  /-- The removals that may go on at once cannot be told apart. -/
  | overrun {notice : Option Handle} :
      r.stage = .announcing → Plan.maxRemovalPermits < r.plan.removalPermits →
      Leg now r (.announced (.gave notice)) (r.shown notice).breakDown
        (r.announced (.gave notice)).2
  /-- The crew starts. -/
  | crew {notice : Option Handle} :
      r.stage = .announcing → ¬Plan.maxRemovalPermits < r.plan.removalPermits →
      Leg now r (.announced (.gave notice))
        { r.shown notice with
          stage := .delivering, workers := List.replicate r.plan.crew .idle }
        (r.announced (.gave notice)).2
  /-- The crew has ended. -/
  | join :
      r.stage = .delivering → r.workers.all Worker.hasEnded = true →
      Leg now r .joined (r.joined now).1 (r.joined now).2
  /-- The removals have ended. -/
  | drain {deadline : Moment} :
      r.stage = .draining deadline → r.removals.all Removal.hasEnded = true →
      Leg now r .drained r.stop []
  /-- The removals are not waited for any longer. -/
  | timeOut {deadline : Moment} :
      r.stage = .draining deadline → deadline ≤ now → Leg now r .timedOut r.stop []
  /-- The run edits its notice for the last time. -/
  | report {notice : Handle} :
      r.stage = .stopping → r.display.hasEnded = true → r.notice = some notice →
      Leg now r .concluded { r with stage := .editing (r.tally.report ⟨now - r.began⟩) }
        [.ask (.edit notice (Notice.complete (r.tally.report ⟨now - r.began⟩)))]
  /-- The run has no notice and sends its report. -/
  | send :
      r.stage = .stopping → r.display.hasEnded = true → r.notice = none →
      Leg now r .concluded { r with stage := .replying (r.tally.report ⟨now - r.began⟩) }
        [.ask (.reply (Notice.complete (r.tally.report ⟨now - r.began⟩)))]
  /-- The last edit breaks down. -/
  | editLost {report : Report} :
      r.stage = .editing report → Leg now r (.edited .broke) r.breakDown []
  /-- The last edit has been made. -/
  | edited {report : Report} :
      r.stage = .editing report →
      Leg now r (.edited (.gave true)) { r with stage := .finished report } []
  /-- The last edit was refused, and the report is sent instead. -/
  | resend {report : Report} :
      r.stage = .editing report →
      Leg now r (.edited (.gave false)) { r with stage := .replying report }
        [.ask (.reply (Notice.complete report))]
  /-- The report breaks down. -/
  | replyLost {report : Report} :
      r.stage = .replying report → Leg now r (.replied .broke) r.breakDown []
  /-- The report has been sent. -/
  | replied {report : Report} :
      r.stage = .replying report →
      Leg now r (.replied (.gave ())) { r with stage := .finished report } []
  /-- The run is cancelled. -/
  | cancel : Leg now r .cancel { r with tally := r.tally.cancel } []

/-- The ways in which a move of a run can go. -/
inductive Way (now : Moment) (r : Run) : Move → Run → List Effect → Prop
  /-- A worker moves. -/
  | worker {i : Nat} {move : WorkerMove} {r' : Run} {effects : List Effect} :
      Turn now r i move r' effects → Way now r (.worker i move) r' effects
  /-- A removal moves. -/
  | removal {k : Nat} {move : RemovalMove} {r' : Run} {effects : List Effect} :
      Leaving r k move r' effects → Way now r (.removal k move) r' effects
  /-- The task that shows progress moves. -/
  | display {move : DisplayMove} {r' : Run} {effects : List Effect} :
      Showing now r move r' effects → Way now r (.display move) r' effects
  /-- The run itself moves. -/
  | leg {move : Move} {r' : Run} {effects : List Effect} :
      Leg now r move r' effects → Way now r move r' effects

private theorem leg_of_announced (now : Moment) {r : Run} (announcing : r.stage = .announcing)
    (answer : Answer (Option Handle)) :
    Leg now r (.announced answer) (r.announced answer).1 (r.announced answer).2 := by
  cases answer with
  | broke => exact .lost announcing
  | gave notice =>
      by_cases tooMany : Plan.maxRemovalPermits < r.plan.removalPermits
      · have ended : Leg now r (.announced (.gave notice)) _ _ := .overrun announcing tooMany
        simpa [announced, tooMany, shown] using ended
      · have started : Leg now r (.announced (.gave notice)) _ _ := .crew announcing tooMany
        simpa [announced, tooMany, shown] using started

private theorem leg_of_concluded (now : Moment) {r : Run} (stopping : r.stage = .stopping)
    (ended : r.display.hasEnded = true) :
    Leg now r .concluded (r.concluded now).1 (r.concluded now).2 := by
  unfold concluded
  dsimp only
  split
  next notice sent => exact .report stopping ended sent
  next none => exact .send stopping ended none

/-- Every move of a run goes in one of the ways of `Way`. -/
theorem way_of_step {now : Moment} {r r' : Run} {move : Move} {effects : List Effect}
    (made : r.step now move = some (r', effects)) : Way now r move r' effects := by
  unfold step at made
  split at made
  next answer announcing =>
    have leg := leg_of_announced now announcing answer
    rw [Option.some.inj made] at leg
    exact .leg leg
  next => exact .worker (turn_of_stepWorker made)
  next => exact .removal (leaving_of_stepRemoval made)
  next => exact .display (showing_of_stepDisplay made)
  next delivering =>
    split at made
    next ended =>
      have leg : Leg now r .joined _ _ := .join delivering ended
      rw [Option.some.inj made] at leg
      exact .leg leg
    next => cases made
  next draining =>
    split at made
    next ended =>
      cases made
      exact .leg (.drain draining ended)
    next => cases made
  next draining =>
    split at made
    next late =>
      cases made
      exact .leg (.timeOut draining late)
    next => cases made
  next stopping =>
    split at made
    next ended =>
      have leg := leg_of_concluded now stopping ended
      rw [Option.some.inj made] at leg
      exact .leg leg
    next => cases made
  next editing =>
    cases made
    exact .leg (.editLost editing)
  next editing =>
    cases made
    exact .leg (.edited editing)
  next editing =>
    cases made
    exact .leg (.resend editing)
  next replying =>
    cases made
    exact .leg (.replyLost replying)
  next replying =>
    cases made
    exact .leg (.replied replying)
  next =>
    cases made
    exact .leg .cancel
  next => cases made

theorem Leg.step {now : Moment} {r r' : Run} {move : Move} {effects : List Effect}
    (leg : Leg now r move r' effects) : r.step now move = some (r', effects) := by
  cases leg with
  | lost announcing => simp [Run.step, announcing, announced]
  | overrun announcing tooMany => simp [Run.step, announcing, announced, tooMany, shown]
  | crew announcing enough => simp [Run.step, announcing, announced, enough, shown]
  | join delivering ended => simp [Run.step, delivering, ended]
  | drain draining ended => simp [Run.step, draining, ended]
  | timeOut draining late => simp [Run.step, draining, late]
  | report stopping ended sent => simp [Run.step, stopping, ended, concluded, sent]
  | send stopping ended none => simp [Run.step, stopping, ended, concluded, none]
  | editLost editing => simp [Run.step, editing]
  | edited editing => simp [Run.step, editing]
  | resend editing => simp [Run.step, editing]
  | replyLost replying => simp [Run.step, replying]
  | replied replying => simp [Run.step, replying]
  | cancel => rfl

end Broadcast.Run
