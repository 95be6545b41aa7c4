import Broadcast.Config
import Broadcast.Proofs.Dispatcher.Launch
import Broadcast.Proofs.Dispatcher.Underway
import Broadcast.Proofs.Pace

/-!
# Completion of a broadcast

A broadcast that finds the slot free comes to its report, provided that there are targets, that
nobody breaks down over its listings and notices, and that the settings ask for no more deliveries a
second and no more removals at once than can be handled. That a configuration keeps all rules is
not enough.
-/

namespace Broadcast

/-- A broadcast is not refused and does not break down: it is on its way to its report or has got
it, it can always go on until it has, and its run cannot go on for ever. -/
theorem broadcasts_complete {settings : Settings} {directory : Directory} {clocks : Clocks}
    {d : Dispatcher} {events past rest : List (Event Dispatcher Dispatcher.Move)}
    {e : Event Dispatcher Dispatcher.Move} {c : Nat} {errand : Errand} {source : SourceMessage}
    {args : String} {request : Request}
    (course : Course Dispatcher.step (.start settings directory clocks) events d)
    (split : events = past ++ e :: rest) (begins : e.move = .caller c .begin)
    (present : e.before.callers[c]? = some ⟨errand, .opening⟩)
    (wanted : errand.wanted = .ok (some request)) (read : Request.ofArgs source args = .ok request)
    (free : e.before.flight = .idle)
    (slow : request.delay = none → settings.ratePerSecond.toNat ≤ 1000000000)
    (fits : settings.removalConcurrency.toNat ≤ Plan.maxRemovalPermits)
    (calm : ∀ x ∈ rest, x.move.breaks = false) (finds : ∀ x ∈ rest, x.Finds c) :
    d.Underway c errand ∧
    (d.Offers c → ∀ now, ∃ more d', Completes now d c errand more d') ∧
    ∀ (r : Nat) (run : Run), d.runs[r]? = some run → ∃ bound, ∀ more d',
      Course Dispatcher.step d more d' → (eventsOf r more).countP (·.move.isWork) ≤ bound := by
  have broadcast : errand.isResolve = false := by
    cases errand with
    | resolve => cases wanted
    | broadcast | cancel | run => rfl
  have way : d.Underway c errand := by
    rw [split] at course
    obtain ⟨before, made, future⟩ := course.around
    obtain ⟨pacer, paced⟩ : ∃ pacer, Pacer.ofInterval (e.before.pause request) = .ok pacer := by
      rw [Dispatcher.pause, settings_of_course before]
      exact Pacer.ofInterval_of_paces ((Request.paced_of_ofArgs read).getD slow)
    exact underway_of_course (before.append (Course.single made)) future fits calm finds broadcast
      (Dispatcher.underway_of_begin (begins ▸ made) present wanted free paced)
  exact ⟨way, completes_of_underway course fits broadcast way, fun r run present =>
    ⟨run.effort, fun more d' => bounded_of_run course present⟩⟩

/-- A broadcast to one user is announced: its caller finds the slot free, and nobody breaks down. -/
private theorem announced_of_settings (settings : Settings) {pacer : Pacer}
    (paced : Pacer.ofInterval ((Dispatcher.start settings
      (.ofUsers [⟨1⟩] (List.nodup_singleton _))).pause { source := ⟨-42, 7⟩ }) = .ok pacer)
    {after : Dispatcher} {effects : List Run.Effect} {now : Moment} {notice : Option Handle}
    (made : Dispatcher.step now (Dispatcher.launched
      (.start settings (.ofUsers [⟨1⟩] (List.nodup_singleton _))) { source := ⟨-42, 7⟩ }
      (.ofUsers [⟨1⟩]) 0) (.run 0 (.announced (.gave notice))) = some (after, effects)) :
    ∃ past e rest, Course Dispatcher.step
        (.start settings (.ofUsers [⟨1⟩] (List.nodup_singleton _))) (past ++ e :: rest) after ∧
      e.move = .caller 0 .begin ∧
      e.before.callers[0]? = some ⟨.run { source := ⟨-42, 7⟩ }, .opening⟩ ∧
      e.before.flight = .idle ∧ (∀ x ∈ rest, x.move.breaks = false) ∧ ∀ x ∈ rest, x.Finds 0 := by
  have collected : Targets.ofUsers [⟨1⟩] = Targets.collect settings.channelThreshold
      { source := ⟨-42, 7⟩ } (.ok []) (.ok [⟨1⟩]) :=
    (Targets.collect_ofUsers (List.nodup_singleton _) (List.forall_mem_singleton.mpr rfl) _ _).symm
  obtain ⟨_, start, launch⟩ := launch_of_idle
    (d := .start settings (.ofUsers [⟨1⟩] (List.nodup_singleton _))) rfl 0 paced
    collected (List.cons_ne_nil _ _)
  obtain ⟨first, e, listed, rfl, begins, opening, free, chats⟩ := launch.steps
  obtain ⟨_, _, reach, users, -⟩ := launch.starts.listed
  refine ⟨[first], e, [listed, start, ⟨now, _, .run 0 (.announced (.gave notice)), after, effects⟩],
    launch.course.next made, begins, opening, free, ?_, ?_⟩
  · simp only [List.forall_mem_cons, chats, users]
    exact ⟨rfl, rfl, rfl, by simp⟩
  · simp only [List.forall_mem_cons]
    refine ⟨fun _ _ _ _ move => ?_, launch.starts.finds, fun _ _ _ _ move => ?_, by simp⟩
    · cases chats.symm.trans move
    · cases move

/-- A broadcast to one user has been announced, and can be completed. -/
theorem broadcasts_complete_once_announced : ∃ past e rest d,
    Course Dispatcher.step (.start {} (.ofUsers [⟨1⟩] (List.nodup_singleton _)))
      (past ++ e :: rest) d ∧
    e.move = .caller 0 .begin ∧
    e.before.callers[0]? = some ⟨.run { source := ⟨-42, 7⟩ }, .opening⟩ ∧
    Request.ofArgs ⟨-42, 7⟩ "" = .ok { source := ⟨-42, 7⟩ } ∧ e.before.flight = .idle ∧
    (∀ x ∈ rest, x.move.breaks = false) ∧ (∀ x ∈ rest, x.Finds 0) ∧
    d.callers[0]? = some ⟨.run { source := ⟨-42, 7⟩ }, .running 0⟩ ∧
    d.Underway 0 (.run { source := ⟨-42, 7⟩ }) ∧
    ∃ more d', Completes 1 d 0 (.run { source := ⟨-42, 7⟩ }) more d' := by
  obtain ⟨d, effects, made, there⟩ : ∃ d effects, Dispatcher.step 1 (Dispatcher.launched
      (.start {} (.ofUsers [⟨1⟩] (List.nodup_singleton _))) { source := ⟨-42, 7⟩ }
      (.ofUsers [⟨1⟩]) 0) (.run 0 (.announced (.gave none))) = some (d, effects) ∧
      d.callers[0]? = some ⟨.run { source := ⟨-42, 7⟩ }, .running 0⟩ := ⟨_, _, rfl, rfl⟩
  obtain ⟨past, e, rest, course, begins, opening, free, calm, finds⟩ :=
    announced_of_settings {} rfl made
  have read : Request.ofArgs ⟨-42, 7⟩ "" = .ok { source := ⟨-42, 7⟩ } := rfl
  obtain ⟨way, completes, -⟩ := broadcasts_complete course rfl begins opening rfl read free
    (by decide) (by decide) calm finds
  have offers : d.Offers 0 := by
    constructor
    · rintro _ _ listing
      cases there.symm.trans listing
    · rintro _ _ _ listing
      cases there.symm.trans listing
  exact ⟨past, e, rest, d, course, begins, opening, read, free, calm, finds, there, way,
    completes offers 1⟩

/-- Two configurations keep all rules, and yet broadcasts fail under them: one asks for so many
deliveries a second that no pause is left, and the other one allows for more removals at once than
can be told apart. -/
theorem accepted_settings_fail :
    (∃ config past e d, Config.brokenRule? config = none ∧
      Course Dispatcher.step (.start config.broadcast (.ofUsers [⟨1⟩] (List.nodup_singleton _)))
        (past ++ [e]) d ∧
      e.move = .caller 0 .begin ∧
      e.before.callers[0]? = some ⟨.run { source := ⟨-42, 7⟩ }, .opening⟩ ∧
      Request.ofArgs ⟨-42, 7⟩ "" = .ok { source := ⟨-42, 7⟩ } ∧ e.before.flight = .idle ∧
      d.callers[0]? = some
        ⟨.run { source := ⟨-42, 7⟩ }, .done (.refused (.invalidPacing .zero))⟩) ∧
    ∃ config past e rest d, Config.brokenRule? config = none ∧
      Course Dispatcher.step (.start config.broadcast (.ofUsers [⟨1⟩] (List.nodup_singleton _)))
        (past ++ e :: rest) d ∧
      e.move = .caller 0 .begin ∧
      e.before.callers[0]? = some ⟨.run { source := ⟨-42, 7⟩ }, .opening⟩ ∧
      Request.ofArgs ⟨-42, 7⟩ "" = .ok { source := ⟨-42, 7⟩ } ∧ e.before.flight = .idle ∧
      (∀ x ∈ rest, x.move.breaks = false) ∧ (∀ x ∈ rest, x.Finds 0) ∧
      d.callers[0]? = some ⟨.run { source := ⟨-42, 7⟩ }, .broken⟩ := by
  constructor
  · have course := course_of_replay Dispatcher.step
      (.start { ratePerSecond := 1000000001 } (.ofUsers [⟨1⟩] (List.nodup_singleton _)))
      [(0, .open (.run { source := ⟨-42, 7⟩ })), (0, .caller 0 .begin)] rfl
    exact ⟨{ broadcast := { ratePerSecond := 1000000001 } }, [_], _, _, by decide, course, rfl, rfl,
      rfl, rfl, rfl⟩
  · obtain ⟨d, effects, made, there⟩ : ∃ d effects, Dispatcher.step 1 (Dispatcher.launched
        (.start { removalConcurrency := 2305843009213693952 }
          (.ofUsers [⟨1⟩] (List.nodup_singleton _))) { source := ⟨-42, 7⟩ }
        (.ofUsers [⟨1⟩]) 0) (.run 0 (.announced (.gave (some 9)))) = some (d, effects) ∧
        d.callers[0]? = some ⟨.run { source := ⟨-42, 7⟩ }, .broken⟩ := ⟨_, _, rfl, rfl⟩
    obtain ⟨past, e, rest, course, begins, opening, free, calm, finds⟩ :=
      announced_of_settings { removalConcurrency := 2305843009213693952 } rfl made
    exact ⟨{ broadcast := { removalConcurrency := 2305843009213693952 } }, past, e, rest, d,
      by decide, course, begins, opening, rfl, free, calm, finds, there⟩

end Broadcast
