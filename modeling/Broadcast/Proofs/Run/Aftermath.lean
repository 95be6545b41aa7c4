import Broadcast.Proofs.Run.Crew

/-!
# A run that is over

Nobody works any more for a run that is over: its crew has ended, and so has the task that shows
progress, or it has not begun and was told to stop before. Removals may go on, but no message is
delivered and no notice is edited.
-/

namespace Broadcast.Run

/-- The task that shows progress works only while it may. -/
structure Watched (r : Run) : Prop where
  /-- Nothing is shown before the announcement is answered. -/
  unstarted : r.stage = .announcing → r.display = .absent
  /-- A run that reports has waited for the task. -/
  reporting : r.stage.report?.isSome = true → r.display.hasEnded = true
  /-- The task of a run that broke down has ended, or will do so as soon as it begins. -/
  broken : r.stage = .broken →
    r.display.hasEnded = true ∨ r.display = .fresh ∧ r.stopSent = true

theorem watched_opening (plan : Plan) (now : Moment) (cancelled : Bool) :
    (opening plan now cancelled).Watched where
  unstarted _ := rfl
  reporting := by simp [Stage.report?]
  broken := by simp

private theorem Watched.congr {r r' : Run} (watched : r.Watched) (stage : r'.stage = r.stage)
    (display : r'.display = r.display) (stopSent : r'.stopSent = r.stopSent) : r'.Watched := by
  constructor
  · rw [stage, display]
    exact watched.unstarted
  · rw [stage, display]
    exact watched.reporting
  · rw [stage, display, stopSent]
    exact watched.broken

private theorem Showing.watched {now : Moment} {r r' : Run} {move : DisplayMove}
    {effects : List Effect} (showing : Showing now r move r' effects) (watched : r.Watched) :
    r'.Watched := by
  have moves (display : Display) (going : r.display.hasEnded = false)
      (ends : r.display = .fresh → r.stopSent = true → display = .ended) :
      Watched { r with display } := by
    constructor
    · intro announcing
      simp [watched.unstarted announcing, Display.hasEnded] at going
    · intro reports
      cases going.symm.trans (watched.reporting reports)
    · intro broken
      rcases watched.broken broken with ended | ⟨fresh, told⟩
      · cases going.symm.trans ended
      · exact .inl (by rw [ends fresh told]; rfl)
  cases showing with
  | begin _ _ fresh =>
      exact moves _ (by rw [fresh]; rfl) fun _ told => by rw [if_pos told]
  | pass _ _ watching | edit _ _ watching =>
      exact moves _ (by rw [watching]; rfl) fun fresh => by cases watching.symm.trans fresh
  | crash _ _ editing | answer _ _ _ editing =>
      exact moves _ (by rw [editing]; rfl) fun fresh => by cases editing.symm.trans fresh
  | halt _ _ watching =>
      exact moves _ (by rw [watching]; rfl) fun fresh => by cases watching.symm.trans fresh

private theorem Leg.watched {now : Moment} {r r' : Run} {move : Move} {effects : List Effect}
    (leg : Leg now r move r' effects) (watched : r.Watched) : r'.Watched := by
  have quiet {stage : Stage} {stopSent : Bool} (other : stage ≠ .announcing)
      (none : stage.report? = none) (whole : stage ≠ .broken) :
      Watched { r with stage, stopSent } :=
    ⟨fun same => absurd same other, fun some => by simp [none] at some,
      fun same => absurd same whole⟩
  have ended {stage : Stage} {stopSent : Bool} (other : stage ≠ .announcing)
      (ended : r.display.hasEnded = true) : Watched { r with stage, stopSent } :=
    ⟨fun same => absurd same other, fun _ => ended, fun _ => .inl ended⟩
  cases leg with
  | lost announcing =>
      exact ended (by simp) (by rw [watched.unstarted announcing]; rfl)
  | @overrun notice announcing =>
      refine ⟨by simp [breakDown], by simp [breakDown, Stage.report?], fun _ => ?_⟩
      unfold breakDown shown
      dsimp only
      split
      · exact .inr ⟨rfl, rfl⟩
      · exact .inl rfl
  | crew => exact ⟨by simp, by simp [Stage.report?], by simp⟩
  | join =>
      have closing := stage_joined now r
      have none := report_of_joined now r
      refine ⟨?_, by simp [none], ?_⟩ <;>
      · intro stage
        simp [stage, Stage.isClosing] at closing
  | drain | timeOut => exact quiet (by simp) rfl (by simp)
  | report _ shown | send _ shown => exact ended (by simp) shown
  | editLost editing | edited editing | resend editing =>
      exact ended (by simp) (watched.reporting (by rw [editing]; rfl))
  | replyLost replying | replied replying =>
      exact ended (by simp) (watched.reporting (by rw [replying]; rfl))
  | cancel => exact watched.congr rfl rfl rfl

theorem watched_of_step {now : Moment} {r r' : Run} {move : Move} {effects : List Effect}
    (made : r.step now move = some (r', effects)) (watched : r.Watched) : r'.Watched := by
  cases way_of_step made with
  | worker turn => cases turn <;> exact watched.congr rfl rfl rfl
  | removal leaving => cases leaving <;> exact watched.congr rfl rfl rfl
  | display showing => exact showing.watched watched
  | leg leg => exact leg.watched watched

theorem Staffed.over {r : Run} (staffed : r.Staffed) (ended : r.stage.isOver = true) :
    r.workers.all Worker.hasEnded = true := by
  cases stage : r.stage with
  | finished => exact (staffed.closed (by rw [stage]; rfl)).2.1
  | broken => exact staffed.broken stage
  | announcing | delivering | draining | stopping | editing | replying =>
      simp [stage, Stage.isOver] at ended

theorem Watched.over {r : Run} (watched : r.Watched) (ended : r.stage.isOver = true) :
    r.display.hasEnded = true ∨ r.display = .fresh := by
  cases stage : r.stage with
  | finished => exact .inl (watched.reporting (by rw [stage]; rfl))
  | broken => exact (watched.broken stage).imp_right And.left
  | announcing | delivering | draining | stopping | editing | replying =>
      simp [stage, Stage.isOver] at ended

theorem silent_of_step {now : Moment} {r r' : Run} {move : Move} {effects : List Effect}
    (made : r.step now move = some (r', effects)) (staffed : r.Staffed) (watched : r.Watched)
    (ended : r.stage.isOver = true) : ∀ effect ∈ effects, effect.isMessage = false := by
  cases way_of_step made with
  | worker turn => exact absurd (staffed.over ended) turn.going
  | removal leaving => cases leaving <;> simp [Effect.isMessage]
  | display showing =>
      cases showing with
      | edit _ _ watching =>
          rcases watched.over ended with shown | fresh
          · simp [watching, Display.hasEnded] at shown
          · cases watching.symm.trans fresh
      | begin | pass | crash | answer | halt => simp
  | leg leg =>
      cases leg with
      | cancel => simp
      | lost stage | overrun stage | crew stage | join stage | drain stage | timeOut stage
      | report stage | send stage | editLost stage | edited stage | resend stage
      | replyLost stage | replied stage => simp [stage, Stage.isOver] at ended

/-- Once a run is over, it delivers nothing more and edits nothing more. -/
theorem silent_of_course {r r' : Run} {events : List (Event Run Move)}
    (course : Course step r events r') (staffed : r.Staffed) (watched : r.Watched)
    (ended : r.stage.isOver = true) :
    ∀ e ∈ events, ∀ effect ∈ e.effects, effect.isMessage = false := by
  have all : (r'.Staffed ∧ r'.Watched) ∧
      ∀ e ∈ events, ∀ effect ∈ e.effects, effect.isMessage = false := by
    induction course with
    | start => exact ⟨⟨staffed, watched⟩, by simp⟩
    | next past made ih =>
        obtain ⟨⟨staffed, watched⟩, silent⟩ := ih
        have stays := over_of_course past ended
        refine ⟨⟨staffed_of_step made staffed, watched_of_step made watched⟩, ?_⟩
        intro e member
        rcases List.mem_append.mp member with early | last
        · exact silent e early
        · rw [List.mem_singleton.mp last]
          exact silent_of_step made staffed watched (by rw [stays, ended])
  exact all.2

theorem watched_of_course {plan : Plan} {began : Moment} {cancelled : Bool}
    {events : List (Event Run Move)} {r : Run}
    (course : Course step (opening plan began cancelled) events r) : r.Watched :=
  course.invariant (watched_opening plan began cancelled) watched_of_step

end Broadcast.Run
