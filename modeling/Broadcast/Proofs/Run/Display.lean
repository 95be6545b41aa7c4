import Broadcast.Run.Step

/-!
# The ways of the task that shows progress

The task looks at the counters at every tick and edits the notice if they have changed since it
tried last. It is told to stop between two ticks, never during an edit.
-/

namespace Broadcast.Run

/-- The ways in which a move of the task that shows progress can go. -/
inductive Showing (now : Moment) (r : Run) : DisplayMove → Run → List Effect → Prop
  /-- The task begins, and ends at once if it was told to stop before. -/
  | begin {every : Duration} {notice : Handle} :
      r.plan.progressEvery = some every → r.notice = some notice → r.display = .fresh →
      Showing now r .begin
        { r with
          display :=
            if r.stopSent then .ended else .watching (r.plan.clocks.after now every) .zero } []
  /-- Nothing has changed. -/
  | pass {every : Duration} {notice : Handle} {next : Moment} {last : Progress} :
      r.plan.progressEvery = some every → r.notice = some notice →
      r.display = .watching next last → next ≤ now → r.tally.progress = last →
      Showing now r .tick { r with display := .watching (r.plan.clocks.after next every) last } []
  /-- Something has changed. -/
  | edit {every : Duration} {notice : Handle} {next : Moment} {last : Progress} :
      r.plan.progressEvery = some every → r.notice = some notice →
      r.display = .watching next last → next ≤ now → r.tally.progress ≠ last →
      Showing now r .tick
        { r with display := .editing (r.plan.clocks.after next every) r.tally.progress }
        [.ask (.edit notice (Notice.underWay r.plan.announcement r.tally.progress))]
  /-- An edit breaks down, and the task with it. -/
  | crash {every : Duration} {notice : Handle} {next : Moment} {last : Progress} :
      r.plan.progressEvery = some every → r.notice = some notice →
      r.display = .editing next last →
      Showing now r (.answered .broke) { r with display := .ended } []
  /-- An edit has been made or refused. -/
  | answer {every : Duration} {notice : Handle} {next : Moment} {last : Progress} (made : Bool) :
      r.plan.progressEvery = some every → r.notice = some notice →
      r.display = .editing next last →
      Showing now r (.answered (.gave made)) { r with display := .watching next last } []
  /-- The task is told to stop. -/
  | halt {every : Duration} {notice : Handle} {next : Moment} {last : Progress} :
      r.plan.progressEvery = some every → r.notice = some notice →
      r.display = .watching next last → r.stopSent = true →
      Showing now r .halt { r with display := .ended } []

/-- A move of the task that shows progress goes in one of the ways of `Showing`. -/
theorem showing_of_stepDisplay {now : Moment} {r r' : Run} {move : DisplayMove}
    {effects : List Effect} (made : r.stepDisplay now move = some (r', effects)) :
    Showing now r move r' effects := by
  unfold stepDisplay at made
  split at made
  next every notice plan sent =>
    split at made
    next fresh =>
      cases made
      exact .begin plan sent fresh
    next next last watching =>
      split at made
      next due =>
        dsimp only at made
        split at made
        next same =>
          cases made
          exact .pass plan sent watching due same
        next changed =>
          cases made
          exact .edit plan sent watching due changed
      next => cases made
    next editing =>
      cases made
      exact .crash plan sent editing
    next editing =>
      cases made
      exact .answer _ plan sent editing
    next watching =>
      split at made
      next told =>
        cases made
        exact .halt plan sent watching told
      next => cases made
    next => cases made
  next => cases made

theorem Showing.stepDisplay {now : Moment} {r r' : Run} {move : DisplayMove}
    {effects : List Effect} (showing : Showing now r move r' effects) :
    r.stepDisplay now move = some (r', effects) := by
  cases showing with
  | begin plan sent fresh => simp [Run.stepDisplay, plan, sent, fresh]
  | pass plan sent watching due same => simp [Run.stepDisplay, plan, sent, watching, due, same]
  | edit plan sent watching due changed =>
      simp [Run.stepDisplay, plan, sent, watching, due, changed]
  | crash plan sent editing => simp [Run.stepDisplay, plan, sent, editing]
  | answer _ plan sent editing => simp [Run.stepDisplay, plan, sent, editing]
  | halt plan sent watching told => simp [Run.stepDisplay, plan, sent, watching, told]

end Broadcast.Run
