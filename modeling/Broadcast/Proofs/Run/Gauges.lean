import Broadcast.Proofs.Published
import Broadcast.Proofs.Run.Crew

/-!
# What a run that has started publishes

The counters of broadcasts and the gauges of the run as a whole are published when a run starts, and
not by any of its moves. The one gauge that its moves set is that of the active workers, which stands
at zero again once the crew has ended.
-/

namespace Broadcast

/-- The metric is one of those that the moves of a run publish. -/
def Metric.isInner : Metric → Bool
  | .count counter => !counter.isRun
  | .set gauge _ => gauge = .activeWorkers
  | .deliveryTimed => true

namespace Run

variable {now : Moment} {r r' : Run} {move : Move} {effects : List Effect}

private theorem Turn.publishes {i : Nat} {m : WorkerMove} (turn : Turn now r i m r' effects)
    {metric : Metric} (published : .publish metric ∈ effects) : metric.isInner = true := by
  cases turn with
  | finish | drop | skip =>
      obtain rfl : metric = _ := by simpa using published
      rfl
  | succeed | postpone | dismiss | refuse =>
      obtain rfl | rfl : metric = .deliveryTimed ∨ metric = _ := by simpa [ending] using published
      · rfl
      · rfl
  | exhaust =>
      obtain rfl | rfl | rfl : metric = .deliveryTimed ∨ metric = _ ∨ metric = _ := by
        simpa [ending] using published
      · rfl
      · rfl
      · rfl
  | take | jam | call | crash | wake => simp at published

private theorem publishes_of_announced {answer : Answer (Option Handle)} {metric : Metric}
    (published : .publish metric ∈ (r.announced answer).2) :
    metric = .set .activeWorkers r.plan.crew := by
  cases answer with
  | broke => simp [announced] at published
  | gave notice =>
      unfold announced at published
      dsimp only at published
      split at published
      next => split at published <;> simp at published
      next => split at published <;> simpa using published

theorem publishes_of_step (made : r.step now move = some (r', effects)) {metric : Metric}
    (published : .publish metric ∈ effects) : metric.isInner = true := by
  cases way_of_step made with
  | worker turn => exact turn.publishes published
  | removal leaving =>
      cases leaving with
      | begin | crash => simp at published
      | answer =>
          obtain rfl : metric = _ := by simpa using published
          rfl
  | display showing => cases showing <;> simp at published
  | leg leg =>
      cases leg with
      | overrun | crew =>
          rw [publishes_of_announced published]
          rfl
      | join =>
          obtain rfl : metric = .set .activeWorkers 0 := by simpa [joined] using published
          rfl
      | lost | drain | timeOut | report | send | editLost | edited | resend | replyLost | replied
      | cancel => simp at published

theorem levels_of_step (made : r.step now move = some (r', effects)) {gauge : Metric.Gauge}
    (other : gauge ≠ .activeWorkers) : effects.filterMap (Effect.level? gauge) = [] :=
  levels_eq_nil fun level published =>
    other (of_decide_eq_true (publishes_of_step made published : Metric.isInner (.set gauge level)))

/-- A run whose crew is not at work had none at work before and leaves the gauge of the active
workers alone, or has just set it to zero. -/
theorem stands_of_step (made : r.step now move = some (r', effects)) (staffed : r.Staffed)
    (rests : r'.stage ≠ .delivering) :
    r.stage ≠ .delivering ∧ effects.filterMap (Effect.level? .activeWorkers) = [] ∨
      effects.filterMap (Effect.level? .activeWorkers) = [0] := by
  cases way_of_step made with
  | worker turn =>
      obtain ⟨-, -, same, -⟩ := turn.keeps
      exact absurd (same.trans (turn.delivering staffed)) rests
  | removal leaving => cases leaving <;> exact .inl ⟨rests, rfl⟩
  | display showing => cases showing <;> exact .inl ⟨rests, rfl⟩
  | leg leg =>
      cases leg with
      | overrun announcing tooMany =>
          refine .inl ⟨by simp [announcing], levels_eq_nil fun level published => ?_⟩
          unfold announced at published
          simp [tooMany] at published
      | crew => exact absurd rfl rests
      | join => exact .inr rfl
      | lost stage | drain stage | timeOut stage | report stage | send stage | editLost stage
      | edited stage | resend stage | replyLost stage | replied stage =>
          exact .inl ⟨by simp [stage], rfl⟩
      | cancel => exact .inl ⟨rests, rfl⟩

end Run

end Broadcast
