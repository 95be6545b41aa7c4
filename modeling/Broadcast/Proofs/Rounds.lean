import Broadcast.Proofs.Deliveries
import Broadcast.Proofs.Run.Rounds

/-!
# Deliveries one after the other

A run with a crew of one, which is left alone and gets permits for its deliveries, tries its targets
in rounds: all of them first, and then again and again those that have met nothing but rate limits,
always in the order of targets. While a rate limit makes the worker wait nobody is tried, unless the
wait is longer than the timer can wait.
-/

namespace Broadcast

/-- What a crew of one does for its targets, given the clocks, the number of retries and the
outcomes of the deliveries. -/
structure DeliversInRounds (clocks : Clocks) (targets : List Recipient) (retries : Nat)
    (outcome : Recipient → Nat → Except DeliveryError Unit) (events : List (Event Run Run.Move))
    (run : Run) : Prop where
  /-- At every moment the deliveries so far are the first ones of the rounds. -/
  begun : Run.calls events <+: Run.rounds targets retries outcome
  /-- Once the crew has ended, all rounds are over. -/
  ended : run.stage.isClosing = true → Run.calls events = Run.rounds targets retries outcome
  /-- Nobody is tried during the wait for a rate limit whose job is put back. -/
  rests : events.Pairwise fun e f => ∀ wait, Run.Postpones e wait → f.attempts ≠ [] →
    clocks.after e.moment wait ≤ f.moment

section Courses

variable {settings : Settings} {directory : Directory} {clocks : Clocks} {d : Dispatcher}
  {events : List (Event Dispatcher Dispatcher.Move)}

/-- A crew of one that is left alone and gets its permits tries its targets in rounds, and rests in
between whenever a rate limit puts a job back. -/
theorem deliveries_go_in_rounds
    (course : Course Dispatcher.step (.start settings directory clocks) events d)
    (inOrder : InOrder events) {start : Event Dispatcher Dispatcher.Move} {c r : Nat}
    {request : Request} {targets : Targets} (member : start ∈ events)
    (starts : start.Starts c r request targets)
    (lone : settings.workers.toNat ≤ 1 ∨ targets.list.length ≤ 1) {run : Run}
    (present : d.runs[r]? = some run) {outcome : Recipient → Nat → Except DeliveryError Unit}
    (alone : LeftAlone outcome events r run)
    (paced : ∀ e ∈ eventsOf r events, Run.jams e = false) :
    DeliversInRounds clocks targets.list settings.maxRetries.toNat outcome (eventsOf r events)
      run := by
  have own := own_of_starts course member starts present
  have same : start.before.settings = settings := settings_of_member course member
  have crew : (start.before.plan request targets).crew = 1 := by
    rw [← same] at lone
    exact Run.crew_eq_one lone
  have retries : run.plan.maxRetries = settings.maxRetries := by
    rw [(Run.plan_of_course own).1, ← same]
    rfl
  have list : run.plan.targets = targets.list := by
    rw [(Run.plan_of_course own).1]
    rfl
  have rests := Run.rests_of_lone own crew (inOrder.eventsOf r)
  rw [show (start.before.plan request targets).clocks = clocks from
    clocks_of_member course member] at rests
  have inRounds := Run.inRounds_of_course own starts.distinct crew alone.follows alone.going
    alone.calm paced
  rw [← retries, ← list]
  exact ⟨inRounds.begun, inRounds.ended, rests⟩

end Courses

/-- The first attempt for the first user meets a rate limit; all others succeed. -/
def limitedOnce (wait : Duration) (x : Recipient) (i : Nat) : Except DeliveryError Unit :=
  if x = ⟨1⟩ ∧ i = 0 then .error (.rateLimited wait) else .ok ()

private theorem follows_limitedOnce {wait : Duration} {events : List (Event Run Run.Move)}
    (answers : events.filterMap Run.answer? =
      [(⟨1⟩, .error (.rateLimited wait)), (⟨2⟩, .ok ()), (⟨1⟩, .ok ())]) :
    Run.Follows (limitedOnce wait) events := by
  intro x i o answered
  rw [Run.outcomesOf, answers] at answered
  by_cases first : x = ⟨1⟩
  · subst first
    rcases i with _ | _ | i <;> simp [limitedOnce] at answered ⊢ <;> exact answered.symm
  · by_cases second : x = ⟨2⟩
    · subst second
      rcases i with _ | i <;> simp [limitedOnce] at answered ⊢
      exact answered.symm
    · simp [Ne.symm first, Ne.symm second] at answered

/-- The only worker of a broadcast to two users meets a rate limit with the first of them, tries the
second one after its rest, and then the first one again. -/
theorem deliveries_go_in_rounds_of_two : ∃ events d start run,
    Course Dispatcher.step (.start { workers := 1 } (.ofUsers [⟨1⟩, ⟨2⟩] (by decide))) events d ∧
    InOrder events ∧ start ∈ events ∧
    start.Starts 0 0 { source := ⟨-42, 7⟩ } (.ofUsers [⟨1⟩, ⟨2⟩]) ∧ d.runs[0]? = some run ∧
    run.stage.isClosing = true ∧ Run.calls (eventsOf 0 events) = [⟨1⟩, ⟨2⟩, ⟨1⟩] ∧
    DeliversInRounds .usual [⟨1⟩, ⟨2⟩] 2 (limitedOnce (.ofSecs 1)) (eventsOf 0 events) run := by
  have own := course_of_replay Run.step
    (.opening ((Dispatcher.start { workers := 1 } (.ofUsers [⟨1⟩, ⟨2⟩] (by decide))).plan
      { source := ⟨-42, 7⟩ } (.ofUsers [⟨1⟩, ⟨2⟩])) 0 false)
    [(0, .announced (.gave none)), (0, .worker 0 .pop), (0, .worker 0 .permit),
      (1, .worker 0 (.answered (.gave (.error (.rateLimited (.ofSecs 1)))))),
      (1000000001, .worker 0 .wake), (1000000001, .worker 0 .pop),
      (1000000001, .worker 0 .permit), (1000000002, .worker 0 (.answered (.gave (.ok ())))),
      (1000000002, .worker 0 .pop), (1050000001, .worker 0 .permit),
      (1050000002, .worker 0 (.answered (.gave (.ok ())))), (1050000002, .worker 0 .pop),
      (1050000002, .joined)] rfl
  obtain ⟨events, d, start, course, member, starts, present, same, moments⟩ :=
    lone_of_users rfl (by decide) (by simp) own
      (by decide)
  have inOrder : InOrder events := by
    apply List.pairwise_map.mp
    rw [moments]
    decide
  have follows : Run.Follows (limitedOnce (.ofSecs 1)) (eventsOf 0 events) := by
    rw [same]
    exact follows_limitedOnce rfl
  exact ⟨events, d, start, _, course, inOrder, member, starts, present, rfl, by rw [same]; rfl,
    deliveries_go_in_rounds course inOrder member starts (.inl (by decide)) present
      ⟨rfl, by rw [same]; decide, follows⟩ (paced_of_pause course member starts (by decide))⟩

/-- After thirty years the only worker tries the second user, though the rate limit of the first one
asks for a second more. -/
theorem wait_is_cut_short : ∃ events d start run,
    Course Dispatcher.step (.start { workers := 1 } (.ofUsers [⟨1⟩, ⟨2⟩] (by decide))) events d ∧
    InOrder events ∧ start ∈ events ∧
    start.Starts 0 0 { source := ⟨-42, 7⟩ } (.ofUsers [⟨1⟩, ⟨2⟩]) ∧ d.runs[0]? = some run ∧
    LeftAlone (limitedOnce (.ofSecs 946080001)) events 0 run ∧
    (∀ e ∈ eventsOf 0 events, Run.jams e = false) ∧
    ¬(eventsOf 0 events).Pairwise fun e f => ∀ wait, Run.Postpones e wait → f.attempts ≠ [] →
      e.moment + wait.nanos ≤ f.moment := by
  have own := course_of_replay Run.step
    (.opening ((Dispatcher.start { workers := 1 } (.ofUsers [⟨1⟩, ⟨2⟩] (by decide))).plan
      { source := ⟨-42, 7⟩ } (.ofUsers [⟨1⟩, ⟨2⟩])) 0 false)
    [(0, .announced (.gave none)), (0, .worker 0 .pop), (0, .worker 0 .permit),
      (0, .worker 0 (.answered (.gave (.error (.rateLimited (.ofSecs 946080001)))))),
      (946080000000000000, .worker 0 .wake), (946080000000000000, .worker 0 .pop),
      (946080000000000000, .worker 0 .permit),
      (946080000000000000, .worker 0 (.answered (.gave (.ok ())))),
      (946080000000000000, .worker 0 .pop), (946080000050000000, .worker 0 .permit),
      (946080000050000000, .worker 0 (.answered (.gave (.ok ()))))] rfl
  obtain ⟨events, d, start, course, member, starts, present, same, moments⟩ :=
    lone_of_users rfl (by decide) (by simp) own
      (by decide)
  have follows : Run.Follows (limitedOnce (.ofSecs 946080001)) (eventsOf 0 events) := by
    rw [same]
    exact follows_limitedOnce rfl
  refine ⟨events, d, start, _, course, ?_, member, starts, present,
    ⟨rfl, by rw [same]; decide, follows⟩, paced_of_pause course member starts (by decide),
    fun keeps => ?_⟩
  · apply List.pairwise_map.mp
    rw [moments]
    decide
  · rw [same] at keeps
    have tooEarly := List.pairwise_iff_getElem.mp keeps 3 6 (by decide) (by decide) (by decide)
      (.ofSecs 946080001) ⟨⟨⟨1⟩, 1⟩, _, rfl, rfl, rfl⟩
      (List.ne_nil_of_mem (a := ⟨⟨2⟩, ⟨-42, 7⟩, .forward⟩) (by decide))
    revert tooEarly
    decide

end Broadcast
