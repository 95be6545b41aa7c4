import Broadcast.Proofs.Run.Departures

/-!
# Permits for removals

A run lets no more removals ask the directory at once than its plan permits. A removal that asks goes
on until it is answered, also when the run does not wait for it any longer.
-/

namespace Broadcast.Run

/-- A move is the answer to a removal that asks. -/
def Move.answersRemoval : Move → Bool
  | .removal _ (.answered _) => true
  | _ => false

/-- The run stops waiting although some of its removals have not ended. -/
def forsakes (e : Event Run Move) : Bool :=
  match e.move with
  | .timedOut => !e.before.removals.all Removal.hasEnded
  | _ => false

variable {now : Moment} {r r' : Run} {move : Move} {effects : List Effect}

private theorem asking_setRemoval {k : Nat} {removal : Removal}
    (present : r.removals[k]? = some removal) (stage : RemovalStage) :
    (r.setRemoval k stage).asking + (if removal.stage = .asking then 1 else 0) =
      r.asking + if stage = .asking then 1 else 0 := by
  simpa only [Run.asking, decide_eq_true_eq] using countP_setRemoval (·.stage = .asking) present stage

/-- The removals that ask are those that have begun to and have not been answered. -/
theorem asking_of_step (made : r.step now move = some (r', effects)) :
    r'.asking + (if move.answersRemoval then 1 else 0) =
      r.asking + effects.countP (·.removal?.isSome) := by
  have aside (other : ∀ k m, move ≠ .removal k m) (unanswered : move.answersRemoval = false) :
      r'.asking + (if move.answersRemoval then 1 else 0) =
        r.asking + effects.countP (·.removal?.isSome) := by
    have plain (quiet : ∀ effect ∈ effects, effect.removal? = none) :
        effects.countP (·.removal?.isSome) = 0 := by
      rw [List.countP_eq_zero]
      intro effect member
      simp [quiet effect member]
    rw [unanswered, if_neg Bool.false_ne_true, Nat.add_zero]
    cases parting_of_step made with
    | still _ _ same _ quiet => rw [plain quiet, asking, same, asking, Nat.add_zero]
    | dismiss _ _ more _ quiet =>
        rw [plain quiet, asking, more, List.countP_append, asking]
        rfl
    | leave => exact absurd rfl (other _ _)
  cases way_of_step made with
  | worker | display => exact aside (by simp) rfl
  | leg leg => cases leg <;> exact aside (by simp) rfl
  | removal leaving =>
      cases leaving with
      | begin queued =>
          simpa [Effect.removal?, Move.answersRemoval] using asking_setRemoval queued .asking
      | crash asking =>
          simpa [Effect.removal?, Move.answersRemoval] using asking_setRemoval asking .broken
      | answer left asking =>
          change (r.setRemoval _ .done).asking + 1 = _
          simpa [Effect.removal?, Move.answersRemoval] using asking_setRemoval asking .done

private theorem asking_le_of_step (made : r.step now move = some (r', effects))
    (permitted : r.asking ≤ r.plan.removalPermits) : r'.asking ≤ r.plan.removalPermits := by
  have counted := asking_of_step made
  cases parting_of_step made with
  | still _ _ same => rwa [asking, same]
  | dismiss _ _ more =>
      rw [asking, more, List.countP_append]
      exact permitted
  | leave leaving =>
      cases leaving with
      | begin _ free =>
          have more : (r.setRemoval _ .asking).asking = r.asking + 1 := counted
          rw [more]
          exact free
      | crash =>
          have less : (r.setRemoval _ .broken).asking + 1 = r.asking := counted
          omega
      | answer =>
          have less : (r.setRemoval _ .done).asking + 1 = r.asking := counted
          change (r.setRemoval _ .done).asking ≤ _
          omega

section Courses

variable {plan : Plan} {began : Moment} {cancelled : Bool} {events : List (Event Run Move)}

/-- No more removals of a run ask at once than its plan permits. -/
theorem asking_le_of_course (course : Course step (opening plan began cancelled) events r) :
    r.asking ≤ plan.removalPermits := by
  induction course with
  | start => exact Nat.zero_le _
  | next past made ih =>
      have same := (plan_of_course past).1
      rw [opening_plan] at same
      rw [← same] at ih ⊢
      exact asking_le_of_step made ih

theorem asking_of_over (course : Course step (opening plan began cancelled) events r)
    (waited : events.any forsakes = false) (isOver : r.stage.isOver = true) : r.asking = 0 := by
  have ended := ended_of_over course (fun e member timedOut => ?_) isOver
  · rw [asking, List.countP_eq_zero]
    intro removal member
    have settled := List.all_eq_true.mp ended removal member
    cases stage : removal.stage with
    | queued | asking => simp [Removal.hasEnded, stage] at settled
    | done | broken => simp
  · have kept := List.any_eq_false.mp waited e member
    simpa [forsakes, timedOut] using kept

end Courses

end Broadcast.Run
