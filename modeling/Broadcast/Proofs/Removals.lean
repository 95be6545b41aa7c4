import Broadcast.Proofs.Dispatcher.Launch
import Broadcast.Proofs.Dispatcher.Listings

/-!
# Removals of the runs of a dispatcher

A directory that is left to the removals of one run loses none but targets whose deliveries ended
because they are gone. Each of them is asked to leave once, whatever becomes of the other removals;
the run counts those who did leave; and its report counts all of them, if it could wait for them.
It waits at least until the drain timeout has passed since the end of its crew.
-/

namespace Broadcast

/-- What has become of a directory that was left to the removals of a run. -/
structure Purged (targets : List Recipient) (original now : Directory)
    (events : List (Event Run Run.Move)) (run : Run) : Prop where
  /-- Some users have left, and the others have kept their order. -/
  users : now.users.Sublist original.users
  /-- Some chats have left, and the others have kept their order. -/
  chats : now.chats.Sublist original.chats
  /-- Whoever has left is gone, and was asked to leave once. -/
  deleted : ∀ x, x ∈ original.users ∧ x ∉ now.users ∨ x ∈ original.chats ∧ x ∉ now.chats →
    Run.Dismissed x events ∧ Run.requestsTo x events = 1
  /-- Whoever is gone is a target with one removal, which asks once, as soon as it has a permit. -/
  dismissed : ∀ x, Run.Dismissed x events →
    x ∈ targets ∧ (run.removals.map Run.Removal.recipient).count x = 1 ∧
      Run.requestsTo x events = if ⟨x, .queued⟩ ∈ run.removals then 0 else 1
  /-- Nobody else is asked to leave. -/
  spared : ∀ x, ¬Run.Dismissed x events → Run.requestsTo x events = 0
  /-- The run counts those who have left. -/
  removed : run.removed.toNat + now.users.length + now.chats.length =
    original.users.length + original.chats.length
  /-- Not more have left than could not be reached. -/
  bound : run.removed ≤ run.failed
  /-- If the removals have ended by the time the run stops waiting for them, its report counts
  all that were carried out. -/
  report : (∀ e ∈ events, e.move = .timedOut →
      e.before.removals.all Run.Removal.hasEnded = true) →
    ∀ report, run.stage.report? = some report →
      report.removed.toNat = events.countP (·.move.departs)

/-- From the start of a run on, a directory that is left to its removals stands as it should. -/
private theorem purged_of_starts {settings : Settings} {directory : Directory} {clocks : Clocks}
    {d : Dispatcher}
    {past rest : List (Event Dispatcher Dispatcher.Move)} {e : Event Dispatcher Dispatcher.Move}
    {c r : Nat} {request : Request} {targets : Targets} {run : Run}
    (course : Course Dispatcher.step (.start settings directory clocks) (past ++ e :: rest) d)
    (starts : e.Starts c r request targets) (left : ∀ e' ∈ rest, e'.LeavesDirectoryTo r)
    (present : d.runs[r]? = some run) :
    Purged targets.list e.after.directory d.directory (eventsOf r (past ++ e :: rest)) run := by
  have member : e ∈ past ++ e :: rest := List.mem_append_right _ (List.mem_cons_self ..)
  have own := own_of_starts course member starts present
  have tracked := Run.tracked_of_course own starts.distinct
  have balanced := Run.balanced_of_course own starts.countable
  have thinned := thinned_of_starts course starts left present
  have same : run.plan.targets = targets.list := by
    rw [(Run.plan_of_course own).1]
    rfl
  refine ⟨thinned.users, thinned.chats, ?_, ?_, ?_, thinned.size, ?_, ?_⟩
  · intro x gone
    have done := thinned.done x gone
    have asked : 1 ≤ Run.requestsTo x (eventsOf r (past ++ e :: rest)) := by
      rw [Run.requests_of_course own, Nat.one_le_iff_ne_zero, ← Nat.pos_iff_ne_zero,
        Run.requested, List.countP_pos_iff]
      exact ⟨_, done, by simp⟩
    rcases tracked.requests own x with ⟨dismissed, -, once⟩ | ⟨-, -, none⟩
    · refine ⟨dismissed, ?_⟩
      split_ifs at once
      · omega
      · exact once
    · omega
  · intro x dismissed
    rcases tracked.requests own x with ⟨-, once, asked⟩ | ⟨stays, -⟩
    · exact ⟨same ▸ tracked.target_of_dismissed dismissed, once, asked⟩
    · exact absurd dismissed stays
  · intro x stays
    rcases tracked.requests own x with ⟨dismissed, -⟩ | ⟨-, -, none⟩
    · exact absurd dismissed stays
    · exact none
  · rw [UInt64.le_iff_toNat_le]
    calc run.removed.toNat ≤ run.gone := balanced.removed
      _ ≤ run.removals.length := List.countP_le_length
      _ ≤ run.failed.toNat := balanced.removals
  · intro waited report made
    have drained := Run.drained_of_course own waited
    rw [drained.report report made]
    exact Run.removed_of_course own starts.countable

/-- From the start of a run on, a directory that is left to its removals loses none but those who
turned out to be gone. Wherever the run stands, moves of the removals alone, whatever the directory
answers, lead to where each of them has been asked to leave once. -/
theorem removals_are_sound {settings : Settings} {directory : Directory} {clocks : Clocks}
    {d : Dispatcher}
    {past rest : List (Event Dispatcher Dispatcher.Move)} {e : Event Dispatcher Dispatcher.Move}
    {c r : Nat} {request : Request} {targets : Targets}
    (course : Course Dispatcher.step (.start settings directory clocks) (past ++ e :: rest) d)
    (starts : e.Starts c r request targets) (left : ∀ e' ∈ rest, e'.LeavesDirectoryTo r) :
    (∃ run, d.runs[r]? = some run ∧
      Purged targets.list e.after.directory d.directory (eventsOf r (past ++ e :: rest)) run) ∧
    ∀ (now : Moment) (answers : Nat → Answer Reach), ∃ more d',
      Course Dispatcher.step d more d' ∧
      (∀ e' ∈ more, e'.moment = now ∧
        ∃ k, e'.move = .run r (.removal k .begin) ∨ e'.move = .removed r k (answers k)) ∧
      ∀ x, Run.Dismissed x (eventsOf r (past ++ e :: rest)) →
        Run.requestsTo x (eventsOf r (past ++ e :: rest ++ more)) = 1 := by
  have member : e ∈ past ++ e :: rest := List.mem_append_right _ (List.mem_cons_self ..)
  obtain ⟨run, present, -⟩ := course_of_starts course member starts
  refine ⟨⟨run, present, purged_of_starts course starts left present⟩, ?_⟩
  intro now answers
  obtain ⟨more, d', run', future, present', ended, kinds⟩ :=
    ends_of_removals now answers present
  refine ⟨more, d', future, kinds, ?_⟩
  intro x dismissed
  have tracked := Run.tracked_of_course (own_of_starts course member starts present)
    starts.distinct
  have own' := own_of_starts (course.append future) (List.mem_append_left _ member) starts present'
  have tracked' := Run.tracked_of_course own' starts.distinct
  have waits : ⟨x, .queued⟩ ∉ run'.removals := fun queued => by
    cases List.all_eq_true.mp ended _ queued
  rcases tracked'.requests own' x with ⟨-, -, asked⟩ | ⟨stays, -⟩
  · rw [asked, if_neg waits]
  · rw [eventsOf_append] at tracked' stays
    exact absurd (tracked.dismissed_append tracked' dismissed) stays

/-- Two of three users have left the service; the removal of one of them breaks down. -/
theorem removals_are_sound_three : ∃ past e rest d run,
    Course Dispatcher.step
      (.start { workers := 1 } (.ofUsers [⟨1⟩, ⟨2⟩, ⟨3⟩] (by decide))) (past ++ e :: rest) d ∧
    e.Starts 0 0 { source := ⟨-42, 7⟩ } (.ofUsers [⟨1⟩, ⟨2⟩, ⟨3⟩]) ∧
    (∀ e' ∈ rest, e'.LeavesDirectoryTo 0) ∧ d.runs[0]? = some run ∧
    run.failed = 2 ∧ run.removed = 1 ∧ d.directory.users = [⟨1⟩, ⟨3⟩] ∧
    Purged [⟨1⟩, ⟨2⟩, ⟨3⟩] e.after.directory d.directory (eventsOf 0 (past ++ e :: rest)) run := by
  obtain ⟨events, e, early, -, starts, -, -, -, last⟩ := course_of_users
    (d := .start { workers := 1 } (.ofUsers [⟨1⟩, ⟨2⟩, ⟨3⟩] (by decide))) rfl 0 rfl ⟨-42, 7⟩
    none rfl (by decide) (by simp)
  obtain ⟨past, rfl⟩ := List.getLast?_eq_some_iff.mp last
  obtain ⟨rest, d, late, left, run, present, failed, removed, users⟩ : ∃ rest d,
      Course Dispatcher.step
        (Dispatcher.launched (.start { workers := 1 } (.ofUsers [⟨1⟩, ⟨2⟩, ⟨3⟩] (by decide)))
          { source := ⟨-42, 7⟩ } (.ofUsers [⟨1⟩, ⟨2⟩, ⟨3⟩]) 0) rest d ∧
      rest.Forall (·.LeavesDirectoryTo 0) ∧ ∃ run, d.runs[0]? = some run ∧
        run.failed = 2 ∧ run.removed = 1 ∧ d.directory.users = [⟨1⟩, ⟨3⟩] := by
    refine ⟨_, _, course_of_replay Dispatcher.step _
      [(0, .run 0 (.announced (.gave none))), (0, .run 0 (.worker 0 .pop)),
        (0, .run 0 (.worker 0 .permit)), (1, .run 0 (.worker 0 (.answered (.gave (.ok ()))))),
        (1, .run 0 (.worker 0 .pop)), (2, .run 0 (.worker 0 .permit)),
        (3, .run 0 (.worker 0 (.answered (.gave (.error .peerBlocked))))),
        (3, .run 0 (.removal 0 .begin)), (3, .run 0 (.worker 0 .pop)),
        (4, .run 0 (.worker 0 .permit)), (4, .removed 0 0 (.gave .performed)),
        (5, .run 0 (.worker 0 (.answered (.gave (.error .peerDeactivated))))),
        (5, .run 0 (.removal 1 .begin)), (6, .removed 0 1 .broke)] rfl, ?_, _, rfl, rfl, rfl, rfl⟩
    exact ⟨.inl rfl, .inl rfl, .inl rfl, .inl rfl, .inl rfl, .inl rfl, .inl rfl, .inl rfl,
      .inl rfl, .inl rfl, .inr ⟨0, _, rfl⟩, .inl rfl, .inl rfl, .inl rfl⟩
  have course := early.append late
  rw [List.append_assoc] at course
  have left := List.forall_iff_forall_mem.mp left
  obtain ⟨⟨run', present', purged⟩, -⟩ := removals_are_sound course starts left
  cases present.symm.trans present'
  exact ⟨past, e, rest, d, run, course, starts, left, present, failed, removed, users, purged⟩

/-- A run gives up waiting for its removals no earlier than the configured drain timeout after the
end of its crew. So it does not while removals go on if all of them have ended by then. -/
theorem drain_timeout_is_kept {settings : Settings} {directory : Directory} {clocks : Clocks}
    {d : Dispatcher} {events : List (Event Dispatcher Dispatcher.Move)}
    {e : Event Dispatcher Dispatcher.Move} {c r : Nat} {request : Request} {targets : Targets}
    (course : Course Dispatcher.step (.start settings directory clocks) events d)
    (member : e ∈ events) (starts : e.Starts c r request targets) :
    (∀ past own rest, eventsOf r events = past ++ own :: rest → own.move = .timedOut →
      ∃ j ∈ past, j.move = .joined ∧
        clocks.after j.moment settings.drainTimeout ≤ own.moment) ∧
    ((∀ j ∈ eventsOf r events, j.move = .joined → ∀ own ∈ eventsOf r events,
        clocks.after j.moment settings.drainTimeout ≤ own.moment →
        own.before.removals.all Run.Removal.hasEnded = true) →
      ∀ own ∈ eventsOf r events, own.move = .timedOut →
        own.before.removals.all Run.Removal.hasEnded = true) := by
  obtain ⟨run, -, course'⟩ := course_of_starts course member starts
  have same : e.before.settings = settings := settings_of_member course member
  have sameClocks : e.before.clocks = clocks := clocks_of_member course member
  have patient (past : List (Event Run Run.Move)) (own : Event Run Run.Move)
      (rest : List (Event Run Run.Move)) (split : eventsOf r events = past ++ own :: rest)
      (timedOut : own.move = .timedOut) : ∃ j ∈ past, j.move = .joined ∧
        clocks.after j.moment settings.drainTimeout ≤ own.moment := by
    rw [← same, ← sameClocks]
    exact Run.deadline_of_timedOut course' (by simp) split timedOut
  refine ⟨patient, fun prompt own member timedOut => ?_⟩
  obtain ⟨past, rest, split⟩ := List.append_of_mem member
  obtain ⟨j, before, joined, late⟩ := patient past own rest split timedOut
  exact prompt j (split ▸ List.mem_append_left _ before) joined own member late

end Broadcast
