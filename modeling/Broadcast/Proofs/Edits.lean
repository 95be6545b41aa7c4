import Broadcast.Proofs.Dispatcher.Launch
import Broadcast.Proofs.Run.Edits

/-!
# Edits change what a notice shows

No run ever asks its notice to show what it shows already: neither when its counters have not
changed, nor when an edit failed and is followed by another one, nor when it reports. So an operator
whose channel refuses such edits gets to see each of them.
-/

namespace Broadcast

/-- The channel refuses those edits that would leave the notice as it is, and no others. -/
def RefusesRepeats (events : List (Event Run Run.Move)) : Prop :=
  ∀ past e rest made, events = past ++ e :: rest → e.move.editAnswer? = some (.gave made) →
    (made = false ↔ (screen past).asked = (screen past).text)

/-- Each edit of a run changes what its notice shows. -/
structure EditsChange (events : List (Event Run Run.Move)) (run : Run) : Prop where
  /-- When an edit is asked for, the notice of the run shows another text and waits for nothing. -/
  asked : ∀ past e rest notice text, events = past ++ e :: rest → .edit notice text ∈ e.posts →
    e.before.notice = some notice ∧ ∃ shown, screen past = ⟨some shown, none⟩ ∧ shown ≠ text
  /-- When it is answered, the notice still shows another text. -/
  answered : ∀ past e rest answer, events = past ++ e :: rest → e.move.editAnswer? = some answer →
    ∃ shown text, screen past = ⟨some shown, some text⟩ ∧ shown ≠ text
  /-- Even an edit that fails is not asked for again. -/
  distinct : (run.plan.announcement :: edits events).Nodup
  /-- A channel that refuses edits for changing nothing refuses none. -/
  accepted : RefusesRepeats events → ∀ e ∈ events, e.move.editAnswer? ≠ some (.gave false)

private theorem editsChange_of_course {plan : Plan} {began : Moment} {cancelled : Bool}
    {events : List (Event Run Run.Move)} {run : Run}
    (course : Course Run.step (.opening plan began cancelled) events run)
    (countable : plan.targets.length < 2 ^ 64) : EditsChange events run := by
  constructor
  · rintro past e rest notice text rfl asked
    exact Run.changes_of_asked course countable asked
  · rintro past e rest answer rfl answered
    exact Run.changes_of_answered course countable answered
  · exact (Run.tried_of_course course countable).distinct
  · intro refuses e member refused
    obtain ⟨past, rest, rfl⟩ := List.append_of_mem member
    obtain ⟨shown, text, screen, other⟩ := Run.changes_of_answered course countable refused
    have repeated := (refuses past e rest false rfl refused).mp rfl
    rw [screen] at repeated
    exact other (Option.some.inj repeated).symm

/-- Whatever happens to a run, to its edits and to the runs beside it, each edit of its notice
changes what the notice shows. -/
theorem edits_change_notices {settings : Settings} {directory : Directory} {clocks : Clocks}
    {d : Dispatcher} {events : List (Event Dispatcher Dispatcher.Move)}
    (course : Course Dispatcher.step (.start settings directory clocks) events d) :
    ∀ r run, d.runs[r]? = some run → EditsChange (eventsOf r events) run := by
  intro r run present
  obtain ⟨c, e, member, request, targets, starts⟩ := origin_of_run course present
  exact editsChange_of_course (own_of_starts course member starts present) starts.countable

/-- The first edit that shows progress fails, the second one and the report are accepted; and in
another run, whose channel refuses edits that change nothing, all of them are. -/
theorem edits_change_notices_though_refused :
    (∃ events d run,
      Course Dispatcher.step (.start { workers := 1 } (.ofUsers [⟨1⟩, ⟨2⟩] (by decide))) events d ∧
      d.runs[0]? = some run ∧ (edits (eventsOf 0 events)).length = 3 ∧
      (∃ e ∈ eventsOf 0 events, e.move = .display (.answered (.gave false))) ∧
      (∃ report, run.stage = .finished report) ∧ EditsChange (eventsOf 0 events) run) ∧
    ∃ events d run,
      Course Dispatcher.step (.start { workers := 1 } (.ofUsers [⟨1⟩] (by decide))) events d ∧
      d.runs[0]? = some run ∧ (edits (eventsOf 0 events)).length = 2 ∧
      RefusesRepeats (eventsOf 0 events) ∧ EditsChange (eventsOf 0 events) run ∧
      ∀ e ∈ eventsOf 0 events, e.move.editAnswer? ≠ some (.gave false) := by
  constructor
  · have own := course_of_replay Run.step
      (.opening ((Dispatcher.start { workers := 1 } (.ofUsers [⟨1⟩, ⟨2⟩] (by decide))).plan
        { source := ⟨-42, 7⟩ } (.ofUsers [⟨1⟩, ⟨2⟩])) 0 false)
      [(0, .announced (.gave (some 9))), (0, .display .begin), (0, .worker 0 .pop),
        (0, .worker 0 .permit), (1, .worker 0 (.answered (.gave (.ok ())))),
        (5000000000, .display .tick), (5000000000, .worker 0 .pop),
        (5000000001, .display (.answered (.gave false))), (5000000001, .worker 0 .permit),
        (5000000002, .worker 0 (.answered (.gave (.ok ())))), (10000000000, .display .tick),
        (10000000001, .display (.answered (.gave true))), (10000000001, .worker 0 .pop),
        (10000000001, .joined), (10000000001, .display .halt), (10000000001, .concluded),
        (10000000002, .edited (.gave true))] rfl
    obtain ⟨events, d, e, course, -, -, present, same, -⟩ :=
      lone_of_users rfl (by decide) (by simp) own (by decide)
    refine ⟨events, d, _, course, present, ?_, ?_, ⟨_, rfl⟩,
      edits_change_notices course 0 _ present⟩
    · rw [same]
      rfl
    · rw [same]
      exact ⟨_, List.mem_of_getElem? (i := 7) rfl, rfl⟩
  · have own := course_of_replay Run.step
      (.opening ((Dispatcher.start { workers := 1 } (.ofUsers [⟨1⟩] (by decide))).plan
        { source := ⟨-42, 7⟩ } (.ofUsers [⟨1⟩])) 0 false)
      [(0, .announced (.gave (some 9))), (0, .display .begin), (0, .worker 0 .pop),
        (0, .worker 0 .permit), (5000000000, .display .tick),
        (5000000001, .display (.answered (.gave true))),
        (5000000001, .worker 0 (.answered (.gave (.ok ())))), (5000000001, .worker 0 .pop),
        (5000000001, .joined), (5000000001, .display .halt), (5000000001, .concluded),
        (5000000002, .edited (.gave true))] rfl
    obtain ⟨events, d, e, course, -, -, present, same, -⟩ :=
      lone_of_users rfl (by decide) (by simp) own (by decide)
    have change := edits_change_notices course 0 _ present
    have made : ∀ e ∈ eventsOf 0 events, e.move.editAnswer? ≠ some (.gave false) := by
      have none : ∀ e ∈ eventsOf 0 events,
          e.move.editAnswer?.any (fun | .gave made => !made | .broke => false) = false := by
        rw [same]
        decide
      intro e member refused
      have unrefused := none e member
      rw [refused] at unrefused
      cases unrefused
    have refuses : RefusesRepeats (eventsOf 0 events) := by
      intro past e rest made' split answered
      obtain ⟨shown, text, screen, other⟩ := change.answered past e rest _ split answered
      refine iff_of_false ?_ ?_
      · rintro rfl
        exact made e (by rw [split]; simp) answered
      · rw [screen]
        exact fun repeated => other (Option.some.inj repeated).symm
    refine ⟨events, d, _, course, present, ?_, refuses, change, change.accepted refuses⟩
    rw [same]
    rfl

end Broadcast
