import Broadcast.Proofs.Run.Aftermath

/-!
# The report of a run

A run draws up its report once, from the counters and the flag as they are then, when its crew and
the task that shows progress have ended. Whatever comes later does not change the report.
-/

namespace Broadcast.Run

/-- A run draws up its report with an event, and asks for it to be sent: in place of its notice, if
it has one. -/
structure Reports (e : Event Run Move) (report : Report) : Prop where
  /-- The run concludes. -/
  concluded : e.move = .concluded
  /-- Nothing is waited for any more. -/
  stopping : e.before.stage = .stopping
  /-- The crew has ended. -/
  crew : e.before.workers.all Worker.hasEnded = true
  /-- The task that shows progress has ended. -/
  display : e.before.display.hasEnded = true
  /-- The report repeats the counters and the flag. -/
  made : report = e.before.tally.report ⟨e.moment - e.before.began⟩
  /-- The report is on its way. -/
  after : e.after = { e.before with
    stage := e.before.notice.elim (.replying report) fun _ => .editing report }
  /-- The text of the report is all that is asked for. -/
  asked : e.effects = [.ask (e.before.notice.elim (.reply (Notice.complete report))
    fun notice => .edit notice (Notice.complete report))]

section Moves

variable {now : Moment} {r r' : Run} {move : Move} {effects : List Effect} {report : Report}

theorem reports_of_step (made : r.step now move = some (r', effects)) (staffed : r.Staffed)
    (reported : r'.stage.report? = some report) :
    r.stage.report? = some report ∨ Reports ⟨now, r, move, r', effects⟩ report := by
  have crew (stopping : r.stage = .stopping) : r.workers.all Worker.hasEnded = true :=
    (staffed.closed (by rw [stopping]; rfl)).2.1
  cases way_of_step made with
  | worker turn => exact .inl (turn.keeps.2.2.1 ▸ reported)
  | removal leaving => cases leaving <;> exact .inl reported
  | display showing => cases showing <;> exact .inl reported
  | leg leg =>
      cases leg with
      | report stopping ended sent =>
          cases reported
          refine .inr ⟨rfl, stopping, crew stopping, ended, rfl, ?_, ?_⟩ <;>
            simp only [sent, Option.elim_some]
      | send stopping ended none =>
          cases reported
          refine .inr ⟨rfl, stopping, crew stopping, ended, rfl, ?_, ?_⟩ <;>
            simp only [none, Option.elim_none]
      | edited stage | resend stage | replied stage =>
          rw [stage]
          exact .inl reported
      | join => cases (report_of_joined now r).symm.trans reported
      | lost | overrun | crew | drain | timeOut | editLost | replyLost => cases reported
      | cancel => exact .inl reported

private theorem report_of_step (made : r.step now move = some (r', effects))
    (reported : r.stage.report? = some report) :
    r'.stage.report? = some report ∨ r'.stage = .broken := by
  cases way_of_step made with
  | worker turn => exact .inl (turn.keeps.2.2.1 ▸ reported)
  | removal leaving => cases leaving <;> exact .inl reported
  | display showing => cases showing <;> exact .inl reported
  | leg leg =>
      cases leg with
      | lost | overrun | editLost | replyLost => exact .inr rfl
      | edited stage | resend stage | replied stage =>
          rw [stage] at reported
          exact .inl reported
      | crew stage | join stage | drain stage | timeOut stage | report stage | send stage =>
          rw [stage] at reported
          cases reported
      | cancel => exact .inl reported

end Moves

section Courses

variable {events : List (Event Run Move)} {r r' : Run} {report : Report}

/-- A report stays as it is, unless the run breaks down. -/
theorem report_of_course (course : Course step r events r')
    (reported : r.stage.report? = some report) :
    r'.stage.report? = some report ∨ r'.stage = .broken := by
  induction course with
  | start => exact .inl reported
  | next _ made ih =>
      rcases ih with stays | broken
      · exact report_of_step made stays
      · exact .inr ((over_of_step made (by rw [broken]; rfl)).trans broken)

/-- Whatever has a report has drawn it up with an event. -/
theorem reports_of_course {plan : Plan} {began : Moment} {cancelled : Bool}
    (course : Course step (opening plan began cancelled) events r)
    (reported : r.stage.report? = some report) :
    ∃ past e rest, events = past ++ e :: rest ∧ Reports e report := by
  induction course with
  | start => cases reported
  | @next events now s t move effects past made ih =>
      rcases reports_of_step made (staffed_of_course past) reported with before | reports
      · obtain ⟨early, e, late, rfl, reports⟩ := ih before
        exact ⟨early, e, late ++ [⟨now, s, move, t, effects⟩], by simp, reports⟩
      · exact ⟨events, _, [], rfl, reports⟩

end Courses

end Broadcast.Run
