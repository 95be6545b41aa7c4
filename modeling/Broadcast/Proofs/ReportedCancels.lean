import Broadcast.Proofs.Dispatcher.Cancel
import Broadcast.Proofs.Dispatcher.Launch
import Broadcast.Proofs.Run.Report

/-!
# Reported cancels

A cancel that is acknowledged while a broadcast holds the slot shows in its report, if the report
has not been drawn up by then; and nothing else shows as a cancel there. The slot is held until the
report has been sent, so a cancel can also be acknowledged too late to be reported.
-/

namespace Broadcast

/-- Somebody who wishes to cancel is told that it is done. -/
def Event.Acknowledges (e : Event Dispatcher Dispatcher.Move) : Prop :=
  (∃ k, e.move = .caller k .begin ∧ e.before.callers[k]? = some ⟨.cancel, .opening⟩) ∧
    .ask (.reply Notice.cancelled) ∈ e.effects

private theorem line_of_complete (report : Report) : ∃ above below, Notice.complete report =
    above ++ s!"🛑 Cancelled: {report.cancelled}\n" ++ below := by
  unfold Notice.complete
  exact ⟨_, _, String.append_assoc⟩

section Courses

variable {settings : Settings} {directory : Directory} {clocks : Clocks} {d : Dispatcher}
  {events : List (Event Dispatcher Dispatcher.Move)} {c r : Nat} {run : Run} {report : Report}

/-- The cancels that are accepted are those that are acknowledged. -/
private theorem acknowledges_iff_cancels {e : Event Dispatcher Dispatcher.Move}
    (made : Dispatcher.step e.moment e.before e.move = some (e.after, e.effects)) :
    e.Acknowledges ↔ e.Cancels := by
  obtain ⟨now, d, move, d', effects⟩ := e
  dsimp only at made
  have answered (wish : ∃ k, move = .caller k .begin ∧
      d.callers[k]? = some ⟨.cancel, .opening⟩) :
      .ask (.reply Notice.cancelled) ∈ effects ↔ d.flight.cancel.2.isAccepted = true := by
    obtain ⟨k, rfl, wish⟩ := wish
    cases Dispatcher.change_of_step made with
    | call call =>
        cases call with
        | spare _ idle =>
            have other : Notice.cancelled ≠ Notice.nothingToCancel := by decide
            simp [idle, Flight.cancel, Flight.Cancellation.isAccepted, other]
        | park _ claimed => simp [claimed, Flight.cancel, Flight.Cancellation.isAccepted]
        | cancel _ attached => simp [attached, Flight.cancel, Flight.Cancellation.isAccepted]
        | misuse present wanted | busy present wanted | unpaced present wanted
        | overlong present wanted | claim present wanted =>
            cases present.symm.trans wish
            cases wanted
        | resolve present => cases present.symm.trans wish
  constructor
  · rintro ⟨wish, told⟩
    exact ⟨wish, (answered wish).mp told⟩
  · rintro ⟨wish, accepted⟩
    exact ⟨wish, (answered wish).mpr accepted⟩

private theorem cancelled_iff_of_starts
    (course : Course Dispatcher.step (.start settings directory clocks) events d)
    {e : Event Dispatcher Dispatcher.Move} {request : Request} {targets : Targets}
    (member : e ∈ events) (starts : e.Starts c r request targets)
    (present : d.runs[r]? = some run) :
    run.tally.cancelled = true ↔ ∃ e ∈ events, e.Cancels ∧ e.before.held c ≠ none := by
  constructor
  · intro cancelled
    by_contra spared
    have spared : Spared c events := by
      intro e member cancels
      by_contra holds
      exact spared ⟨e, member, cancels, holds⟩
    cases (going_of_spared course spared ⟨e, member, request, targets, starts⟩ present).symm.trans
      cancelled
  · rintro ⟨e', member', cancels, holds⟩
    obtain ⟨caller, holds⟩ := Option.ne_none_iff_exists'.mp holds
    obtain ⟨past, rest, rfl⟩ := List.append_of_mem member'
    exact (met_of_cancels course cancels holds member starts).cancelled run present

private theorem reports_of_starts
    (course : Course Dispatcher.step (.start settings directory clocks) events d)
    {e : Event Dispatcher Dispatcher.Move} {request : Request} {targets : Targets}
    (member : e ∈ events) (starts : e.Starts c r request targets)
    (present : d.runs[r]? = some run) (reported : run.stage.report? = some report) :
    ∃ own ∈ eventsOf r events, Run.Reports own report := by
  obtain ⟨past, own, rest, whole, reports⟩ :=
    Run.reports_of_course (own_of_starts course member starts present) reported
  exact ⟨own, by simp [whole], reports⟩

private theorem order_of_append {α : Type} {past rest early late : List α} {x y : α}
    (same : past ++ x :: rest = early ++ y :: late) :
    (∃ between, early = past ++ x :: between) ∨ x = y ∨
      ∃ between, past = early ++ y :: between := by
  rcases List.append_eq_append_iff.mp same with ⟨between, rfl, more⟩ | ⟨between, rfl, more⟩
  · cases between with
    | nil => exact .inr (.inl (List.cons.inj more).1)
    | cons z between =>
        obtain ⟨rfl, -⟩ := List.cons.inj more
        exact .inl ⟨between, rfl⟩
  · cases between with
    | nil => exact .inr (.inl (List.cons.inj more).1.symm)
    | cons z between =>
        obtain ⟨rfl, -⟩ := List.cons.inj more
        exact .inr (.inr ⟨between, rfl⟩)

private theorem reported_of_later {early between late : List (Event Dispatcher Dispatcher.Move)}
    {e x : Event Dispatcher Dispatcher.Move} {own : Event Run Run.Move}
    (course : Course Dispatcher.step (.start settings directory clocks)
      (early ++ e :: between ++ x :: late) d)
    (picked : eventOf? r e = some own) (reports : Run.Reports own report)
    (present : d.runs[r]? = some run) (reported : run.stage.report? = some report) :
    ∃ run', x.before.runs[r]? = some run' ∧ run'.stage.report? = some report := by
  obtain ⟨past, made, rest⟩ := course.around
  obtain ⟨-, there, -, -⟩ := of_eventOf picked
  obtain ⟨run', here, onward⟩ := course_of_run
    ((Course.single past.around.2.1).append past.around.2.2) there
  refine ⟨run', here, ?_⟩
  rw [List.singleton_append, eventsOf, List.filterMap_cons_some picked] at onward
  have after : own.after.stage.report? = some report := by
    rw [reports.after]
    cases own.before.notice <;> rfl
  refine (Run.report_of_course (@Course.around _ _ _ _ _ [] _ _ onward).2.2 after).resolve_right ?_
  intro broken
  obtain ⟨last, here', later⟩ := course_of_run ((Course.single made).append rest) here
  obtain rfl : last = run := Option.some.inj (here'.symm.trans present)
  rw [Run.over_of_course later (by rw [broken]; rfl), broken] at reported
  cases reported

/-- No report has been drawn up before a run that is still to draw one up. -/
private theorem unreported_of_stopping {early between : List (Event Dispatcher Dispatcher.Move)}
    {x : Event Dispatcher Dispatcher.Move}
    (course : Course Dispatcher.step (.start settings directory clocks)
      (early ++ x :: between) d)
    (present : d.runs[r]? = some run) (stopping : run.stage = .stopping) {run' : Run}
    (here : x.before.runs[r]? = some run') : run'.stage.report? = none := by
  obtain ⟨-, made, later⟩ := course.around
  obtain ⟨last, there, onward⟩ := course_of_run ((Course.single made).append later) here
  obtain rfl : last = run := Option.some.inj (there.symm.trans present)
  by_contra some
  obtain ⟨report, drawn⟩ := Option.ne_none_iff_exists'.mp some
  rcases Run.report_of_course onward drawn with stays | broken
  · rw [stopping] at stays
    cases stays
  · cases stopping.symm.trans broken

/-- A cancel that meets a run without a report comes before the event that draws it up. -/
private theorem early_of_unreported {early late past rest : List (Event Dispatcher Dispatcher.Move)}
    {drawn x : Event Dispatcher Dispatcher.Move} {own : Event Run Run.Move}
    (course : Course Dispatcher.step (.start settings directory clocks) (early ++ drawn :: late) d)
    (picked : eventOf? r drawn = some own) (reports : Run.Reports own report)
    (present : d.runs[r]? = some run) (reported : run.stage.report? = some report)
    (same : early ++ drawn :: late = past ++ x :: rest) (cancels : x.Cancels)
    (fresh : ∀ run', x.before.runs[r]? = some run' → run'.stage.report? = none) : x ∈ early := by
  rcases order_of_append same.symm with ⟨between, rfl⟩ | rfl | ⟨between, rfl⟩
  · simp
  · obtain ⟨k, wish, -⟩ := cancels.wish
    obtain ⟨-, -, moves, -⟩ := of_eventOf picked
    rw [reports.concluded] at moves
    rcases Dispatcher.source_of_runMove moves with ran | ⟨_, _, _, -, other⟩ | ⟨other, -⟩
    · cases ran.symm.trans wish
    · cases other
    · cases other
  · rw [same] at course
    obtain ⟨run', here, stays⟩ := reported_of_later course picked reports present reported
    cases (fresh run' here).symm.trans stays

/-- The report of a run shows a cancel just if one was acknowledged while the caller of the run held
the slot and the report was still to be drawn up. -/
private theorem cancelled_iff_acknowledged
    (course : Course Dispatcher.step (.start settings directory clocks) events d)
    (ran : Ran c r events) (present : d.runs[r]? = some run)
    (reported : run.stage.report? = some report) {own : Event Run Run.Move}
    (inside : own ∈ eventsOf r events) (reports : Run.Reports own report) :
    report.cancelled = true ↔ ∃ past x rest, events = past ++ x :: rest ∧
      x.Acknowledges ∧ x.before.held c ≠ none ∧
      ∀ run', x.before.runs[r]? = some run' → run'.stage.report? = none := by
  obtain ⟨past, rest, whole⟩ := List.append_of_mem inside
  obtain ⟨early, drawn, late, rfl, picked, -, -⟩ := split_eventsOf whole
  obtain ⟨before, -, -⟩ := course.around
  obtain ⟨-, there, -, -⟩ := of_eventOf picked
  -- Until the report is drawn up, the flag of the run shows the cancels.
  have flagged : report.cancelled = true ↔
      ∃ x ∈ early, x.Cancels ∧ x.before.held c ≠ none := by
    obtain ⟨k, e, member, request, targets, starts⟩ := origin_of_run before there
    obtain rfl : k = c := ran_unique course
      ⟨e, List.mem_append_left _ member, request, targets, starts⟩ ran
    rw [reports.made]
    exact cancelled_iff_of_starts before member starts there
  rw [flagged]
  constructor
  · rintro ⟨x, member, cancels, holds⟩
    obtain ⟨first, between, rfl⟩ := List.append_of_mem member
    refine ⟨first, x, between ++ drawn :: late, by simp,
      (acknowledges_iff_cancels before.around.2.1).mpr cancels, holds, fun run' => ?_⟩
    exact unreported_of_stopping before there reports.stopping
  · rintro ⟨first, x, others, same, told, holds, fresh⟩
    have cancels : x.Cancels := by
      rw [same] at course
      exact (acknowledges_iff_cancels course.around.2.1).mp told
    exact ⟨x, early_of_unreported course picked reports present reported same cancels fresh,
      cancels, holds⟩

/-- The report of a run shows a cancel just if one was acknowledged while the caller of the run held
the slot and the report was still to be drawn up. The report is what the operator is shown at last,
and what the caller gets. -/
theorem cancels_are_reported
    (course : Course Dispatcher.step (.start settings directory clocks) events d)
    {e : Event Dispatcher Dispatcher.Move} {request : Request} {targets : Targets}
    (member : e ∈ events) (starts : e.Starts c r request targets)
    (present : d.runs[r]? = some run) (reported : run.stage.report? = some report) :
    (report.cancelled = true ↔ ∃ past x rest, events = past ++ x :: rest ∧
      x.Acknowledges ∧ x.before.held c ≠ none ∧
      ∀ run', x.before.runs[r]? = some run' → run'.stage.report? = none) ∧
    (∃ own ∈ eventsOf r events, Run.Reports own report) ∧
    (∃ above below, Notice.complete report =
      above ++ s!"🛑 Cancelled: {report.cancelled}\n" ++ below) ∧
    ∀ errand report', d.callers[c]? = some ⟨errand, .done (.report report')⟩ →
      report' = report := by
  obtain ⟨own, inside, reports⟩ := reports_of_starts course member starts present reported
  have ran : Ran c r events := ⟨e, member, request, targets, starts⟩
  refine ⟨cancelled_iff_acknowledged course ran present reported inside reports,
    ⟨own, inside, reports⟩, line_of_complete report, ?_⟩
  intro errand report' told
  obtain ⟨k, run', ran', there, finished⟩ := ran_of_report course told
  obtain rfl := runs_unique course ran ran'
  obtain rfl : run' = run := Option.some.inj (there.symm.trans present)
  rw [finished] at reported
  exact Option.some.inj reported

end Courses

/-- A broadcast is cancelled when its crew has ended, while a removal is still waited for. -/
theorem cancels_are_reported_while_draining : ∃ past x rest d report,
    Course Dispatcher.step (.start { workers := 1 } (.ofUsers [⟨1⟩] (List.nodup_singleton _)))
      (past ++ x :: rest) d ∧
    x.Acknowledges ∧ x.before.held 0 = some ⟨.run { source := ⟨-42, 7⟩ }, .running 0⟩ ∧
    (∃ run deadline, x.before.runs[0]? = some run ∧ run.stage = .draining deadline) ∧
    d.callers[0]? = some ⟨.run { source := ⟨-42, 7⟩ }, .done (.report report)⟩ ∧
    report.cancelled = true ∧ ∃ own ∈ eventsOf 0 (past ++ x :: rest), Run.Reports own report := by
  obtain ⟨launch, e, early, member, starts, -⟩ := course_of_users
    (d := .start { workers := 1 } (.ofUsers [⟨1⟩] (List.nodup_singleton _))) rfl 0 rfl ⟨-42, 7⟩
    none rfl (by decide) (by simp)
  have first := course_of_replay Dispatcher.step
    (Dispatcher.launched (.start { workers := 1 } (.ofUsers [⟨1⟩] (List.nodup_singleton _)))
      { source := ⟨-42, 7⟩ } (.ofUsers [⟨1⟩]) 0)
    [(0, .run 0 (.announced (.gave none))), (0, .run 0 (.worker 0 .pop)),
      (0, .run 0 (.worker 0 .permit)),
      (1, .run 0 (.worker 0 (.answered (.gave (.error .botKicked))))),
      (1, .run 0 (.worker 0 .pop)), (1, .run 0 .joined), (1, .run 0 (.removal 0 .begin)),
      (2, .open .cancel)] rfl
  have course := (early.append first).append (course_of_replay Dispatcher.step _
    [(2, .caller 1 .begin), (3, .removed 0 0 (.gave .performed)), (3, .run 0 .drained),
      (3, .run 0 .concluded), (4, .run 0 (.replied (.gave ())))] rfl)
  obtain ⟨shown, reports, -⟩ := cancels_are_reported course
    (List.mem_append_left _ (List.mem_append_left _ member)) starts rfl rfl
  refine ⟨_, _, _, _, _, course, ⟨⟨1, rfl, rfl⟩, List.mem_singleton_self _⟩, rfl,
    ⟨_, _, rfl, rfl⟩, rfl,
    shown.mpr ⟨_, _, _, rfl, ⟨⟨1, rfl, rfl⟩, List.mem_singleton_self _⟩, nofun, ?_⟩, reports⟩
  rintro run' ⟨⟩
  rfl

/-- A cancel is acknowledged while the caller of a run holds the slot, but the text of the report is
on its way already: the operator is shown, and the caller gets, a run that was not cancelled. -/
theorem acknowledged_after_report : ∃ past x rest d report,
    Course Dispatcher.step (.start { workers := 1, progressMillis := 0 }
      (.ofUsers [⟨1⟩] (List.nodup_singleton _))) (past ++ x :: rest) d ∧
    x.Acknowledges ∧ x.before.held 0 = some ⟨.run { source := ⟨-42, 7⟩ }, .running 0⟩ ∧
    d.callers[0]? = some ⟨.run { source := ⟨-42, 7⟩ }, .done (.report report)⟩ ∧
    report.cancelled = false ∧ ∃ own ∈ eventsOf 0 (past ++ x :: rest), Run.Reports own report := by
  obtain ⟨launch, e, early, member, starts, -⟩ := course_of_users
    (d := .start { workers := 1, progressMillis := 0 } (.ofUsers [⟨1⟩] (List.nodup_singleton _)))
    rfl 0 rfl ⟨-42, 7⟩ none rfl (by decide) (by simp)
  have first := course_of_replay Dispatcher.step
    (Dispatcher.launched (.start { workers := 1, progressMillis := 0 }
      (.ofUsers [⟨1⟩] (List.nodup_singleton _))) { source := ⟨-42, 7⟩ } (.ofUsers [⟨1⟩]) 0)
    [(0, .run 0 (.announced (.gave (some 1)))), (0, .run 0 (.worker 0 .pop)),
      (0, .run 0 (.worker 0 .permit)), (1, .run 0 (.worker 0 (.answered (.gave (.ok ()))))),
      (1, .run 0 (.worker 0 .pop)), (1, .run 0 .joined), (1, .run 0 .concluded),
      (1, .open .cancel)] rfl
  have course := (early.append first).append (course_of_replay Dispatcher.step _
    [(2, .caller 1 .begin), (3, .run 0 (.edited (.gave true)))] rfl)
  obtain ⟨own, inside, reports⟩ := reports_of_starts course
    (List.mem_append_left _ (List.mem_append_left _ member)) starts rfl rfl
  exact ⟨_, _, _, _, _, course, ⟨⟨1, rfl, rfl⟩, List.mem_singleton_self _⟩, rfl, rfl, rfl,
    own, inside, reports⟩

end Broadcast
