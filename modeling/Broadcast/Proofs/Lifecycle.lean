import Broadcast.Proofs.Dispatcher.Launch
import Broadcast.Proofs.Dispatcher.Release

/-!
# The broadcasts of a dispatcher, one at a time

Calls come in any order, and everything outside may break down at any moment. Still at most one
broadcast is under way; whoever wants another one meanwhile is turned away; and when a broadcast
comes to its end, in whatever way, the slot is free, and nothing of it goes on.
-/

namespace Broadcast

/-- At most one broadcast is under way. -/
structure OneAtATime (d : Dispatcher) : Prop where
  /-- The slot is busy as long as somebody finds out the targets of a broadcast, or runs it. -/
  busy : d.flight.isBusy = true ↔ ∃ c caller, d.held c = some caller
  /-- No two callers do so. -/
  alone : ∀ c c' caller caller', d.held c = some caller → d.held c' = some caller' → c = c'
  /-- A run that is not over is the one that is attached. -/
  attached : ∀ (r : Nat) (run : Run), d.runs[r]? = some run → run.stage.isOver = false →
    d.flight = .attached r

/-- A caller is turned away with an event: another broadcast is under way. -/
structure TurnedAway (c : Nat) (errand : Errand) (e : Event Dispatcher Dispatcher.Move)
    (rest : List (Event Dispatcher Dispatcher.Move)) : Prop where
  /-- The caller is told so, and neither slot nor runs nor directory change. -/
  told : e.after = e.before.setStage c (Dispatcher.refusal errand .alreadyRunning)
  /-- Nothing is listed. -/
  asks : ∀ ask, .ask ask ∈ e.effects → ask = .reply DispatchError.alreadyRunning.notice
  /-- Whatever the caller does later changes nothing else either, and asks for nothing. -/
  later : ∀ e' ∈ rest, ∀ move, e'.move = .caller c move →
    ∃ stage, e'.after = e'.before.setStage c stage ∧ e'.effects = []

/-- The broadcast of a caller has come to its end with an event, and leaves nothing behind. -/
structure Concluded (c : Nat) (errand : Errand) (e : Event Dispatcher Dispatcher.Move)
    (rest : List (Event Dispatcher Dispatcher.Move)) : Prop where
  /-- The slot is free: nobody holds it, no run is attached, and no cancel is parked. -/
  idle : e.after.flight = .idle
  /-- The caller has a report, or a reason why there was no run, or has broken down. -/
  ended : e.after.HasEnded c errand
  /-- All runs are over. -/
  stopped : ∀ (r : Nat) (run : Run), e.after.runs[r]? = some run → run.stage.isOver = true
  /-- Whatever is delivered or edited later is so by a run that starts later. -/
  silent : ∀ e' ∈ rest, ∀ effect ∈ e'.effects, effect.isMessage = true →
    ∃ r own, e.after.runs.length ≤ r ∧ eventOf? r e' = some own ∧ effect ∈ own.effects

/-- At most one broadcast is under way at a time; others are turned away meanwhile, and it leaves
nothing behind. -/
theorem one_broadcast_at_a_time {settings : Settings} {directory : Directory} {clocks : Clocks}
    {d : Dispatcher} {events : List (Event Dispatcher Dispatcher.Move)}
    (course : Course Dispatcher.step (.start settings directory clocks) events d) :
    OneAtATime d ∧ ∀ past e rest, events = past ++ e :: rest → ∀ c errand,
      (e.Begins c errand → e.before.flight.isBusy = true → TurnedAway c errand e rest) ∧
      ((∃ caller, e.before.held c = some caller ∧ caller.errand = errand) ∨
          e.Begins c errand ∧ e.before.flight = .idle →
        e.after.held c = none → Concluded c errand e rest) := by
  have guarded := Dispatcher.guarded_of_course course
  refine ⟨⟨guarded.slot.busy, fun c c' caller caller' => guarded.slot.alone,
    fun r run present => (guarded.ends r run present).mp⟩, ?_⟩
  rintro past e rest rfl c errand
  obtain ⟨before, made, future⟩ := course.around
  constructor
  · intro begins busy
    obtain ⟨told, asks⟩ := Dispatcher.refused_of_begin made begins busy
    have present : e.after.callers[c]? =
        some ⟨errand, Dispatcher.refusal errand .alreadyRunning⟩ := by
      rw [told, Dispatcher.setStage_callers _ _ _ begins.2.1, if_pos rfl]
    refine ⟨told, asks, told_of_course future present ?_⟩
    cases errand <;> simp [Dispatcher.refusal, Caller.Stage.rank]
  · intro acquires gone
    have released : e.after.flight = .idle ∧ e.after.HasEnded c errand := by
      rcases acquires with ⟨caller, holds, rfl⟩ | ⟨begins, idle⟩
      · exact Dispatcher.released_of_step made (Dispatcher.guarded_of_course before) holds gone
      · exact Dispatcher.released_of_begin made begins idle gone
    obtain ⟨stopped, silent⟩ := messages_of_idle (before.next made) released.1 future
    exact ⟨released.1, released.2, stopped, silent⟩

/-- While the announcement of a broadcast is under way a second one is turned away; then the
announcement breaks down, and the slot is free. -/
theorem one_broadcast_at_a_time_until_crash : ∃ past e e' d,
    Course Dispatcher.step (.start {} (.ofUsers [⟨1⟩] (List.nodup_singleton _)))
      (past ++ [e, e']) d ∧
    e.Begins 1 (.run { source := ⟨-42, 7⟩ }) ∧ e.before.flight = .attached 0 ∧
    TurnedAway 1 (.run { source := ⟨-42, 7⟩ }) e [e'] ∧
    Concluded 0 (.run { source := ⟨-42, 7⟩ }) e' [] := by
  obtain ⟨past, -, early, -⟩ := course_of_users
    (d := .start {} (.ofUsers [⟨1⟩] (List.nodup_singleton _))) rfl 0 rfl ⟨-42, 7⟩ none rfl
    (by decide) (by simp)
  have course := (early.append (course_of_replay Dispatcher.step _
    [(0, .open (.run { source := ⟨-42, 7⟩ }))] rfl)).append (course_of_replay Dispatcher.step _
    [(0, .caller 1 .begin), (0, .run 0 (.announced .broke))] rfl)
  have result := (one_broadcast_at_a_time course).2
  refine ⟨_, _, _, _, course, ⟨rfl, rfl, _, rfl⟩, rfl, ?_, ?_⟩
  · exact (result _ _ _ rfl 1 _).1 ⟨rfl, rfl, _, rfl⟩ rfl
  · exact (result (_ ++ [_]) _ [] (List.append_cons _ _ _) 0 _).2 (.inl ⟨_, rfl, rfl⟩) rfl

end Broadcast
