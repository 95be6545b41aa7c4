import Broadcast.Proofs.Dispatcher.Launch
import Broadcast.Proofs.Dispatcher.Traffic

/-!
# Notices of a broadcast

The operator of a broadcast gets its announcement first. If a notice of that could be sent, it is
edited to show how far the broadcast has come; and the report comes last, in place of the notice if
it can.
-/

namespace Broadcast

/-- The operator of a run gets to see what it should, in order. -/
structure Notified (c r : Nat) (events : List (Event Dispatcher Dispatcher.Move)) (run : Run) :
    Prop where
  /-- The run does not break down. -/
  whole : run.stage ≠ .broken
  /-- The run has the notice that its announcement was answered with. -/
  announced : Run.Announced (eventsOf r events) run
  /-- No delivery begins before the announcement is answered. -/
  first : ∀ past own rest, eventsOf r events = past ++ own :: rest → own.attempts ≠ [] →
    ∃ e ∈ past, e.move = .announced (.gave run.notice)
  /-- After the announcement the counters are shown, and the report comes last: when the crew and
  the task that shows progress have ended. -/
  order : ∃ shown early late, eventsOf r events = early ++ late ∧ Run.Shows early run shown ∧
    (late = [] ∧ run.stage.report? = none ∧
        traffic c r events = .reply run.plan.announcement :: run.progressPosts shown ∨
      ∃ own rest report, late = own :: rest ∧ Run.Reports own report ∧
        run.stage.report? = some report ∧
        traffic c r events = .reply run.plan.announcement ::
          (run.progressPosts shown ++ Run.closing run.notice (Run.refused rest) report))

/-- A broadcast that has started posts its announcement, then its counters as often as they are to
be shown, and its report at last, as long as nothing breaks down over them and the removals that may
go on at once can be told apart. -/
theorem notices_are_in_order {settings : Settings} {directory : Directory} {clocks : Clocks}
    {d : Dispatcher} {events : List (Event Dispatcher Dispatcher.Move)} {c r : Nat} {run : Run}
    (course : Course Dispatcher.step (.start settings directory clocks) events d)
    {e : Event Dispatcher Dispatcher.Move} {request : Request} {targets : Targets}
    (member : e ∈ events) (starts : e.Starts c r request targets)
    (calm : ∀ own ∈ eventsOf r events, own.move.breaks = false)
    (fits : settings.removalConcurrency.toNat ≤ Plan.maxRemovalPermits)
    (present : d.runs[r]? = some run) :
    run.plan.progressEvery = settings.progressEvery? ∧ Notified c r events run := by
  have own := own_of_starts course member starts present
  have plan : run.plan = e.before.plan request targets := (Run.plan_of_course own).1
  have enough := plan ▸ permits_of_course course fits present
  refine ⟨by rw [plan, Dispatcher.plan, settings_of_member course member]; rfl,
    Run.unbroken_of_course own enough calm (by simp), Run.announced_of_course own calm, ?_, ?_⟩
  · intro past own' rest split tried
    rw [split] at own calm
    exact Run.announced_of_attempts own calm tried
  · rw [traffic_of_starts course member starts present]
    obtain ⟨shown, early, late, split, shows, ⟨none, unreported, same⟩ |
      ⟨own', rest, report, some, reports, reported, same⟩⟩ :=
      Run.posts_of_course own starts.countable enough calm
    · exact ⟨shown, early, late, split, shows, .inl ⟨none, unreported, by rw [same]⟩⟩
    · exact ⟨shown, early, late, split, shows,
        .inr ⟨own', rest, report, some, reports, reported, by rw [same]⟩⟩

/-- The progress of a broadcast to two users is shown, though its notice cannot be edited; the
report is sent on its own then. -/
theorem notices_are_in_order_though_refused : ∃ events d start run,
    Course Dispatcher.step
      (.start { workers := 1 } (.ofUsers [⟨1⟩, ⟨2⟩] (by decide))) events d ∧
    start ∈ events ∧ start.Starts 0 0 { source := ⟨-42, 7⟩ } (.ofUsers [⟨1⟩, ⟨2⟩]) ∧
    (∀ own ∈ eventsOf 0 events, own.move.breaks = false) ∧ d.runs[0]? = some run ∧
    (∃ own ∈ eventsOf 0 events, own.move = .display .tick ∧ own.posts ≠ []) ∧
    Run.refused (eventsOf 0 events) = true ∧ run.stage.isOver = true ∧ Notified 0 0 events run := by
  have own := course_of_replay Run.step
    (.opening ((Dispatcher.start { workers := 1 }
      (.ofUsers [⟨1⟩, ⟨2⟩] (by decide))).plan { source := ⟨-42, 7⟩ } (.ofUsers [⟨1⟩, ⟨2⟩])) 0
      false)
    [(0, .announced (.gave (some 9))), (0, .display .begin), (0, .worker 0 .pop),
      (0, .worker 0 .permit), (1, .worker 0 (.answered (.gave (.ok ())))),
      (5000000000, .display .tick), (5000000000, .worker 0 .pop),
      (5000000001, .display (.answered (.gave false))), (5000000001, .worker 0 .permit),
      (5000000002, .worker 0 (.answered (.gave (.ok ())))), (5000000002, .worker 0 .pop),
      (5000000002, .joined), (5000000002, .display .halt), (5000000002, .concluded),
      (5000000003, .edited (.gave false)), (5000000004, .replied (.gave ()))] rfl
  obtain ⟨events, d, start, course, member, starts, present, same, -⟩ :=
    lone_of_users rfl (by decide) (by simp) own (by decide)
  have calm : ∀ own ∈ eventsOf 0 events, own.move.breaks = false := by
    rw [same]
    decide
  refine ⟨events, d, start, _, course, member, starts, calm, present, ?_, ?_, rfl,
    (notices_are_in_order course member starts calm (by decide) present).2⟩
  · rw [same]
    exact ⟨_, List.mem_of_getElem? (i := 5) rfl, rfl, List.cons_ne_nil _ _⟩
  · rw [same]
    rfl

/-- More removals are to go on at once than can be told apart: the broadcast is announced and breaks
down, and no report follows. -/
theorem unreported_after_announcement : ∃ events d start run,
    Course Dispatcher.step (.start { workers := 1, removalConcurrency := 2305843009213693952 }
      (.ofUsers [⟨1⟩] (List.nodup_singleton _))) events d ∧
    start ∈ events ∧ start.Starts 0 0 { source := ⟨-42, 7⟩ } (.ofUsers [⟨1⟩]) ∧
    (∀ own ∈ eventsOf 0 events, own.move.breaks = false) ∧ d.runs[0]? = some run ∧
    run.stage.isOver = true ∧ traffic 0 0 events = [.reply run.plan.announcement] ∧
    ¬Notified 0 0 events run := by
  have own := course_of_replay Run.step
    (.opening ((Dispatcher.start { workers := 1, removalConcurrency := 2305843009213693952 }
      (.ofUsers [⟨1⟩] (List.nodup_singleton _))).plan { source := ⟨-42, 7⟩ } (.ofUsers [⟨1⟩])) 0
      false)
    [(0, .announced (.gave (some 9))), (0, .display .begin)] rfl
  obtain ⟨events, d, start, course, member, starts, present, same, -⟩ :=
    lone_of_users rfl (by decide) (by simp) own (by decide)
  refine ⟨events, d, start, _, course, member, starts, ?_, present, rfl, ?_, ?_⟩
  · rw [same]
    decide
  · rw [traffic_of_starts course member starts present, same]
    rfl
  · exact fun notified => notified.whole rfl

end Broadcast
