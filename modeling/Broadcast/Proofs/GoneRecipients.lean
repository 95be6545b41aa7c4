import Broadcast.Proofs.Dispatcher.Filing
import Broadcast.Proofs.Dispatcher.Launch

/-!
# Gone recipients leave the directory

Once a run is over whose removals could all be carried out, whoever turned out to be gone is out of
the listing that goes with the sign of its number, and no later run targets it. The other listing
is not looked into: whoever was filed there stays, and is a target again.
-/

namespace Broadcast

section Courses

variable {settings : Settings} {directory : Directory} {clocks : Clocks} {d : Dispatcher}
  {past rest : List (Event Dispatcher Dispatcher.Move)} {e : Event Dispatcher Dispatcher.Move}
  {c r : Nat} {request : Request} {targets : Targets} {run : Run} {x : Recipient}

/-- Whoever is to be removed by a run that is over is contained in the directory just if it was
filed in the wrong listing. -/
private theorem contains_of_over
    (course : Course Dispatcher.step (.start settings directory clocks) (past ++ e :: rest) d)
    (starts : e.Starts c r request targets) (serves : Serves r rest)
    (present : d.runs[r]? = some run) (isOver : run.stage.isOver = true)
    (removed : x ∈ run.removals.map Run.Removal.recipient) :
    d.directory.contains x = true ↔ x ∈ e.after.directory.astray x := by
  have out := unlisted_of_over course starts serves present isOver removed
  rw [Directory.contains_iff, or_iff_right out]
  exact (sheds_of_course course.around.2.2 serves.alone).astray x

/-- Once a run is over whose removals have all been carried out, whoever turned out to be gone is in
the directory only if it was filed in the wrong listing. If not, no later run has it as a target. -/
theorem gone_recipients_leave
    (course : Course Dispatcher.step (.start settings directory clocks) (past ++ e :: rest) d)
    (starts : e.Starts c r request targets) (serves : Serves r rest)
    (present : d.runs[r]? = some run) (isOver : run.stage.isOver = true)
    (dismissed : Run.Dismissed x (eventsOf r (past ++ e :: rest))) :
    x ∈ targets.list ∧ x ∉ d.directory.proper x ∧
    (d.directory.contains x = true ↔ x ∈ e.after.directory.astray x) ∧
    (x ∉ e.after.directory.astray x → ∀ e' ∈ rest, ∀ c' r' request' targets',
      e'.Starts c' r' request' targets' → x ∉ targets'.list) := by
  have member : e ∈ past ++ e :: rest := List.mem_append_right _ (List.mem_cons_self ..)
  have own := own_of_starts course member starts present
  have tracked := Run.tracked_of_course own starts.distinct
  have target : x ∈ targets.list := by
    have planned := tracked.target_of_dismissed dismissed
    rwa [(Run.plan_of_course own).1] at planned
  have removed : x ∈ run.removals.map Run.Removal.recipient := by
    rcases tracked.requests own x with ⟨-, once, -⟩ | ⟨stays, -⟩
    · exact List.count_pos_iff.mp (by omega)
    · exact absurd dismissed stays
  refine ⟨target, unlisted_of_over course starts serves present isOver removed,
    contains_of_over course starts serves present isOver removed, fun filed => ?_⟩
  have guarded : e.after.Guarded :=
    Dispatcher.guarded_of_step course.around.2.1 (Dispatcher.guarded_of_course course.around.1)
  obtain ⟨errand, running⟩ := starts.running
  refine untargeted_of_course course.around.2.2 guarded starts.opens (guarded.attached running) ?_
  -- Whenever the run is over, it has the removals that it has at last.
  intro e' member' run' there isOver'
  obtain ⟨between, later, rfl⟩ := List.append_of_mem member'
  rw [← List.cons_append, ← List.append_assoc] at course
  obtain ⟨early, made, late⟩ := course.around
  have same := removals_of_serves early starts serves.before there isOver'
    ((Course.single made).append late) present
  rw [← Bool.not_eq_true, contains_of_over early starts serves.before there isOver'
    (same ▸ removed)]
  exact filed

end Courses

/-- With the move, nobody is added, and no removal is refused or given up. -/
def Dispatcher.Move.serves : Dispatcher.Move → Bool
  | .addUser _ | .addChat _ | .run _ .timedOut | .removed _ _ .broke
  | .removed _ _ (.gave (.unavailable _)) => false
  | .open _ | .caller _ _ | .run _ _ | .removed _ _ (.gave .performed) => true

private theorem serves_of_moves {events : List (Event Dispatcher Dispatcher.Move)}
    (moves : ∀ e ∈ events, e.move.serves = true) (r : Nat) : Serves r events where
  alone e member := by
    have serves := moves e member
    cases move : e.move with
    | addUser | addChat => simp [move, Dispatcher.Move.serves] at serves
    | «open» | caller | run | removed => rfl
  answered e member k answer move := by
    have serves := moves e member
    rw [move] at serves
    cases answer with
    | broke => cases serves
    | gave reach =>
        cases reach with
        | performed => rfl
        | unavailable => cases serves
  waited own member timedOut := by
    obtain ⟨e, member', picked⟩ := List.mem_filterMap.mp member
    obtain ⟨-, -, mine, -⟩ := of_eventOf picked
    have serves := moves e member'
    rw [timedOut] at mine
    rcases Dispatcher.source_of_runMove mine with same | ⟨k, answer, given, -, same⟩ | ⟨same, -⟩
    · rw [same] at serves
      cases serves
    · cases same
    · cases same

/-- A broadcast whose removals were carried out is followed by another one. -/
private theorem course_of_two {settings : Settings} {directory : Directory} {clocks : Clocks}
    {request : Request} (first second : Targets)
    {middle : List (Event Dispatcher Dispatcher.Move)} {d : Dispatcher} {run : Run} {pacer : Pacer}
    (paced : Pacer.ofInterval ((Dispatcher.start settings directory clocks).pause request) =
      .ok pacer)
    (collected : first = Targets.collect settings.channelThreshold request (.ok directory.chats)
      (.ok directory.users)) (nonempty : first.list ≠ [])
    (course : Course Dispatcher.step
      (Dispatcher.launched (.start settings directory clocks) request first 0) middle d)
    (serves : ∀ e ∈ middle, e.move.serves = true) (present : d.runs[0]? = some run)
    (idle : d.flight = .idle)
    (collected' : second = Targets.collect settings.channelThreshold request
      (.ok d.directory.chats) (.ok d.directory.users)) (nonempty' : second.list ≠ []) :
    ∃ past e rest d',
      Course Dispatcher.step (.start settings directory clocks) (past ++ e :: rest) d' ∧
      e.Starts 0 0 request first ∧ e.after.directory = directory ∧ Serves 0 rest ∧
      d'.runs[0]? = some run ∧ eventsOf 0 (past ++ e :: rest) = eventsOf 0 middle ∧
      d'.directory = d.directory ∧
      ∃ e' ∈ rest, e'.Starts d.callers.length d.runs.length request second := by
  obtain ⟨early, e, launch⟩ :=
    launch_of_idle (d := .start settings directory clocks) rfl 0 paced collected nonempty
  obtain ⟨past, rfl⟩ := List.getLast?_eq_some_iff.mp launch.last
  have starts : e.Starts 0 0 request first := launch.starts
  have same : d.settings = settings := settings_of_course course
  obtain ⟨late, e', launch'⟩ := launch_of_idle (d := d) idle 0
    (by rw [Dispatcher.pause, same]; exact paced) (by rw [same]; exact collected') nonempty'
  have whole := (launch.course.append course).append launch'.course
  rw [List.append_assoc, List.append_assoc, List.singleton_append] at whole
  refine ⟨past, e, middle ++ late, _, whole, starts, ?_, ?_, ?_, ?_, rfl, e',
    List.mem_append_right _ (List.mem_of_getLast? launch'.last), launch'.starts⟩
  · rw [launch.course.of_concat.2.2]
    rfl
  · refine serves_of_moves (fun e member => ?_) 0
    rcases List.mem_append.mp member with there | new
    · exact serves e there
    · rcases launch'.moves e new with move | ⟨m, move⟩ <;> rw [move] <;> rfl
  · exact (List.getElem?_append_left (List.getElem?_eq_some_iff.mp present).1).trans present
  · rw [eventsOf_of_starts whole starts, eventsOf_append, launch'.quiet, List.append_nil]

/-- One of two users has blocked the sender; the next broadcast goes to the other one. -/
theorem gone_recipients_leave_two : ∃ past e rest d run,
    Course Dispatcher.step (.start { workers := 1 } (.ofUsers [⟨1⟩, ⟨2⟩] (by decide)))
      (past ++ e :: rest) d ∧
    e.Starts 0 0 { source := ⟨-42, 7⟩ } (.ofUsers [⟨1⟩, ⟨2⟩]) ∧ Serves 0 rest ∧
    d.runs[0]? = some run ∧ (∃ report, run.stage = .finished report) ∧
    Run.Dismissed ⟨1⟩ (eventsOf 0 (past ++ e :: rest)) ∧
    (∃ e' ∈ rest, e'.Starts 1 1 { source := ⟨-42, 7⟩ } (.ofUsers [⟨2⟩])) ∧
    d.directory.contains ⟨1⟩ = false ∧
    ∀ e' ∈ rest, ∀ c' r' request' targets', e'.Starts c' r' request' targets' →
      ⟨1⟩ ∉ targets'.list := by
  have late := course_of_replay Dispatcher.step
    (Dispatcher.launched (.start { workers := 1 } (.ofUsers [⟨1⟩, ⟨2⟩] (by decide)))
      { source := ⟨-42, 7⟩ } (.ofUsers [⟨1⟩, ⟨2⟩]) 0)
    [(0, .run 0 (.announced (.gave none))), (0, .run 0 (.worker 0 .pop)),
      (0, .run 0 (.worker 0 .permit)),
      (1, .run 0 (.worker 0 (.answered (.gave (.error .peerBlocked))))),
      (1, .run 0 (.removal 0 .begin)), (1, .run 0 (.worker 0 .pop)),
      (2, .run 0 (.worker 0 .permit)), (2, .run 0 (.worker 0 (.answered (.gave (.ok ()))))),
      (2, .run 0 (.worker 0 .pop)), (2, .run 0 .joined), (3, .removed 0 0 (.gave .performed)),
      (3, .run 0 .drained), (3, .run 0 .concluded), (4, .run 0 (.replied (.gave ())))] rfl
  have paced : Pacer.ofInterval
      ((Dispatcher.start { workers := 1 } (.ofUsers [⟨1⟩, ⟨2⟩] (by decide))).pause
        { source := ⟨-42, 7⟩ }) = .ok ⟨⟨40000000⟩, by decide, by decide⟩ := rfl
  obtain ⟨past, e, rest, d, course, starts, first, serves, present, same, -, next⟩ :=
    course_of_two (.ofUsers [⟨1⟩, ⟨2⟩]) (.ofUsers [⟨2⟩]) paced
      (Targets.collect_ofUsers (by decide) (by decide) ⟨-42, 7⟩ none).symm (by decide)
      late (by decide) rfl rfl
      (Targets.collect_ofUsers (by decide) (by decide) ⟨-42, 7⟩ none).symm (by decide)
  have dismissed : Run.Dismissed ⟨1⟩ (eventsOf 0 (past ++ e :: rest)) := by
    rw [same]
    exact ⟨[], .peerBlocked, rfl, by decide⟩
  obtain ⟨-, -, contained, untargeted⟩ :=
    gone_recipients_leave course starts serves present rfl dismissed
  rw [first] at contained untargeted
  have filed : (⟨1⟩ : Recipient) ∉ (Directory.ofUsers [⟨1⟩, ⟨2⟩] (by decide)).astray ⟨1⟩ := by
    decide
  exact ⟨past, e, rest, d, _, course, starts, serves, present, ⟨_, rfl⟩, dismissed, next,
    Bool.eq_false_iff.mpr (mt contained.mp filed), untargeted filed⟩

/-- A recipient whose number is that of a user is listed with the chats. It turns out to be gone,
and its removal is carried out; the directory contains it still, and the next broadcast goes to it
again. -/
theorem misfiled_recipient_stays : ∃ past e rest d run,
    Course Dispatcher.step (.start { workers := 1 } ⟨[], [⟨5⟩], .nil, by decide⟩)
      (past ++ e :: rest) d ∧
    e.Starts 0 0 { source := ⟨-42, 7⟩ } (.ofUsers [⟨5⟩]) ∧ Serves 0 rest ∧
    d.runs[0]? = some run ∧ (∃ report, run.stage = .finished report) ∧
    Run.Dismissed ⟨5⟩ (eventsOf 0 (past ++ e :: rest)) ∧ ⟨⟨5⟩, .done⟩ ∈ run.removals ∧
    d.directory.contains ⟨5⟩ = true ∧
    ∃ e' ∈ rest, e'.Starts 1 1 { source := ⟨-42, 7⟩ } (.ofUsers [⟨5⟩]) := by
  have late := course_of_replay Dispatcher.step
    (Dispatcher.launched (.start { workers := 1 } ⟨[], [⟨5⟩], .nil, by decide⟩)
      { source := ⟨-42, 7⟩ } (.ofUsers [⟨5⟩]) 0)
    [(0, .run 0 (.announced (.gave none))), (0, .run 0 (.worker 0 .pop)),
      (0, .run 0 (.worker 0 .permit)),
      (1, .run 0 (.worker 0 (.answered (.gave (.error .peerBlocked))))),
      (1, .run 0 (.worker 0 .pop)), (1, .run 0 .joined), (1, .run 0 (.removal 0 .begin)),
      (2, .removed 0 0 (.gave .performed)), (2, .run 0 .drained), (2, .run 0 .concluded),
      (3, .run 0 (.replied (.gave ())))] rfl
  have paced : Pacer.ofInterval
      ((Dispatcher.start { workers := 1 } ⟨[], [⟨5⟩], .nil, by decide⟩).pause
        { source := ⟨-42, 7⟩ }) = .ok ⟨⟨40000000⟩, by decide, by decide⟩ := rfl
  have found : Targets.ofUsers [⟨5⟩] = Targets.collect Recipient.defaultThreshold
      { source := ⟨-42, 7⟩ } (.ok [⟨5⟩]) (.ok []) :=
    (@Targets.collect_of_users _ [⟨5⟩] [] (by decide) (by decide) ⟨-42, 7⟩ none).symm
  obtain ⟨past, e, rest, d, course, starts, -, serves, present, same, last, next⟩ :=
    course_of_two (.ofUsers [⟨5⟩]) (.ofUsers [⟨5⟩]) paced found (by decide) late (by decide) rfl
      rfl found (by decide)
  refine ⟨past, e, rest, d, _, course, starts, serves, present, ⟨_, rfl⟩, ?_,
    List.mem_singleton_self _, ?_, next⟩
  · rw [same]
    exact ⟨[], .peerBlocked, rfl, by decide⟩
  · rw [last]
    rfl

end Broadcast
