import Broadcast.Proofs.Dispatcher.Callers
import Broadcast.Proofs.Dispatcher.Launch
import Broadcast.Proofs.Run.Ledger

/-!
# Accounts of the runs of a dispatcher

A report accounts for every target, and its deliveries are those that were really made. Until then
the counters of the run never get past its targets, and they never go down. Nothing is assumed
about the order of moves, about the outside, or about who cancels what and when.
-/

namespace Broadcast

variable {settings : Settings} {directory : Directory} {clocks : Clocks} {d : Dispatcher}
  {events : List (Event Dispatcher Dispatcher.Move)}

theorem books_of_starts
    (course : Course Dispatcher.step (.start settings directory clocks) events d)
    {e : Event Dispatcher Dispatcher.Move} {c r : Nat} {request : Request} {targets : Targets}
    (member : e ∈ events) (starts : e.Starts c r request targets) {run : Run}
    (present : d.runs[r]? = some run) :
    run.total.toNat = targets.list.length ∧
      run.success.toNat = Run.arrivals (eventsOf r events) ∧ run.Staffed ∧ run.Balanced := by
  have own := own_of_starts course member starts present
  have countable := starts.countable
  refine ⟨?_, Run.success_of_course own countable, Run.staffed_of_course own,
    Run.balanced_of_course own countable⟩
  rw [(Run.plan_of_course own).2.2]
  exact UInt64.toNat_ofNat_of_lt' countable

/-- Every report accounts for every target, and at every moment of every run the counters are
within bounds and go up only. -/
theorem accounts_balance
    (course : Course Dispatcher.step (.start settings directory clocks) events d) :
    (∀ c errand report, d.callers[c]? = some ⟨errand, .done (.report report)⟩ →
      ∃ e ∈ events, ∃ r request targets, e.Starts c r request targets ∧
        report.total.toNat = targets.list.length ∧
        report.success.toNat + report.failed.toNat = report.total.toNat ∧
        report.success.toNat = Run.arrivals (eventsOf r events)) ∧
    ∀ r run, d.runs[r]? = some run →
      (∃ e ∈ events, ∃ c request targets, e.Starts c r request targets ∧
        run.total.toNat = targets.list.length) ∧
      run.success.toNat = Run.arrivals (eventsOf r events) ∧
      run.success.toNat + run.failed.toNat ≤ run.total.toNat ∧
      (∀ report, run.stage.report? = some report →
        report.total = run.total ∧ report.success = run.success ∧ report.failed = run.failed ∧
          report.success.toNat + report.failed.toNat = report.total.toNat) ∧
      ∀ more d', Course Dispatcher.step d more d' → ∃ run', d'.runs[r]? = some run' ∧
        run'.total = run.total ∧ run.success ≤ run'.success ∧ run.failed ≤ run'.failed ∧
          run.removed ≤ run'.removed := by
  constructor
  · intro c errand report told
    obtain ⟨r, run, ⟨e, member, request, targets, starts⟩, present, finished⟩ :=
      ran_of_report course told
    obtain ⟨size, arrived, -, balanced⟩ := books_of_starts course member starts present
    have made : run.stage.report? = some report := by rw [finished]; rfl
    obtain ⟨total, success, -, sum⟩ := balanced.reported made
    exact ⟨e, member, r, request, targets, starts, by rw [total, size], sum,
      by rw [success, arrived]⟩
  · intro r run present
    obtain ⟨c, e, member, request, targets, starts⟩ := origin_of_run course present
    obtain ⟨size, arrived, staffed, balanced⟩ := books_of_starts course member starts present
    refine ⟨⟨e, member, c, request, targets, starts, size⟩, arrived, balanced.le_total,
      fun report => balanced.reported, ?_⟩
    intro more d' future
    obtain ⟨run', there, own⟩ := course_of_run future present
    obtain ⟨success, failed, removed⟩ := Run.counters_of_course own staffed balanced
    exact ⟨run', there, (Run.plan_of_course own).2.2, success, failed, removed⟩

/-- A broadcast to two users, one of whom has blocked the sender. -/
theorem accounts_balance_two : ∃ events d report,
    Course Dispatcher.step (.start { workers := 1 } (.ofUsers [⟨1⟩, ⟨2⟩] (by decide))) events d ∧
      d.callers[0]? = some ⟨.run { source := ⟨-42, 7⟩ }, .done (.report report)⟩ ∧
      report.success = 1 ∧ report.failed = 1 ∧
      ∃ e ∈ events, ∃ r request targets, e.Starts 0 r request targets ∧
        report.total.toNat = targets.list.length ∧
        report.success.toNat + report.failed.toNat = report.total.toNat ∧
        report.success.toNat = Run.arrivals (eventsOf r events) := by
  obtain ⟨past, -, early, -⟩ := course_of_users
    (d := .start { workers := 1 } (.ofUsers [⟨1⟩, ⟨2⟩] (by decide))) rfl 0 rfl ⟨-42, 7⟩
    none rfl (by decide) (by simp)
  have late := course_of_replay Dispatcher.step
    (Dispatcher.launched (.start { workers := 1 } (.ofUsers [⟨1⟩, ⟨2⟩] (by decide)))
      { source := ⟨-42, 7⟩ } (.ofUsers [⟨1⟩, ⟨2⟩]) 0)
    [(0, .run 0 (.announced (.gave none))), (0, .run 0 (.worker 0 .pop)),
      (0, .run 0 (.worker 0 .permit)), (1, .run 0 (.worker 0 (.answered (.gave (.ok ()))))),
      (1, .run 0 (.worker 0 .pop)), (2, .run 0 (.worker 0 .permit)),
      (3, .run 0 (.worker 0 (.answered (.gave (.error .peerBlocked))))),
      (3, .run 0 (.worker 0 .pop)), (3, .run 0 .joined), (3, .run 0 (.removal 0 .begin)),
      (4, .removed 0 0 (.gave .performed)), (4, .run 0 .drained), (4, .run 0 .concluded),
      (5, .run 0 (.replied (.gave ())))] rfl
  have course := early.append late
  refine ⟨_, _, _, course, rfl, rfl, rfl, ?_⟩
  exact (accounts_balance course).1 _ _ _ rfl

end Broadcast
