import Broadcast.Proofs.Dispatcher.Launch
import Broadcast.Proofs.Run.Rest

/-!
# Waits of the runs of a dispatcher

A rate limit makes its worker wait, but not the job: it goes to the back of the queue, and another
worker may try the same recipient before the wait is over. A run with a crew of one keeps all waits
that the timer has no shorter limit for.
-/

namespace Broadcast

/-- Whoever met a rate limit during some events is not tried again before the wait is over. -/
def KeepsWaits (events : List (Event Run Run.Move)) : Prop :=
  events.Pairwise fun e f => ∀ wait, Run.Retries wait e f → e.moment + wait.nanos ≤ f.moment

section Courses

variable {settings : Settings} {directory : Directory} {clocks : Clocks} {d : Dispatcher}
  {events : List (Event Dispatcher Dispatcher.Move)}

/-- A recipient that met a rate limit is tried again by another worker, or after the wait; the
latter if there is no other worker. So a crew of one keeps all waits that are not cut short. -/
theorem waits_are_kept
    (course : Course Dispatcher.step (.start settings directory clocks) events d)
    (inOrder : InOrder events) {start : Event Dispatcher Dispatcher.Move} {c r : Nat}
    {request : Request} {targets : Targets} (member : start ∈ events)
    (starts : start.Starts c r request targets) :
    ((eventsOf r events).Pairwise fun e f => ∀ wait, Run.Retries wait e f →
      ∃ i j answer, e.move = .worker i (.answered answer) ∧ f.move = .worker j .permit ∧
        (j = i ∨ settings.workers.toNat ≤ 1 ∨ targets.list.length ≤ 1 →
          clocks.after e.moment wait ≤ f.moment)) ∧
    (settings.workers.toNat ≤ 1 ∨ targets.list.length ≤ 1 →
      (∀ e ∈ eventsOf r events, ∀ x error wait, Run.answer? e = some (x, .error error) →
        error.wait? = some wait → wait.nanos ≤ clocks.longestWait.nanos) →
      KeepsWaits (eventsOf r events)) := by
  obtain ⟨run, -, own⟩ := course_of_starts course member starts
  have rests := Run.rest_of_course own starts.distinct (inOrder.eventsOf r)
  have same : start.before.settings = settings := settings_of_member course member
  have sameClocks : (start.before.plan request targets).clocks = clocks :=
    clocks_of_member course member
  rw [sameClocks] at rests
  have one (lone : settings.workers.toNat ≤ 1 ∨ targets.list.length ≤ 1) :
      (start.before.plan request targets).crew = 1 := by
    rw [← same] at lone
    exact Run.crew_eq_one lone
  constructor
  · apply rests.imp
    intro e f rest wait retries
    obtain ⟨i, j, answer, move, move', inside, inside', patient⟩ := rest wait retries
    refine ⟨i, j, answer, move, move', ?_⟩
    rintro (mine | lone)
    · exact patient mine
    · have := one lone
      exact patient (by omega)
  · intro lone short
    apply rests.imp_of_mem
    intro e f here _ rest wait retries
    obtain ⟨i, j, answer, -, -, inside, inside', patient⟩ := rest wait retries
    obtain ⟨a, -, error, answered, limited⟩ := retries
    have := one lone
    rw [← Clocks.after_of_le (short _ here _ _ _ answered limited)]
    exact patient (by omega)

end Courses

/-- The only worker of a broadcast to one user meets a rate limit and keeps the wait. -/
theorem waits_are_kept_alone : ∃ events d start,
    Course Dispatcher.step
      (.start { workers := 1 } (.ofUsers [⟨1⟩] (List.nodup_singleton _))) events d ∧
    InOrder events ∧ start ∈ events ∧
    start.Starts 0 0 { source := ⟨-42, 7⟩ } (.ofUsers [⟨1⟩]) ∧
    attemptsTo ⟨1⟩ (eventsOf 0 events) = 2 ∧ KeepsWaits (eventsOf 0 events) := by
  have own := course_of_replay Run.step
    (.opening ((Dispatcher.start { workers := 1 }
      (.ofUsers [⟨1⟩] (List.nodup_singleton _))).plan { source := ⟨-42, 7⟩ } (.ofUsers [⟨1⟩])) 0
      false)
    [(0, .announced (.gave none)), (0, .worker 0 .pop), (0, .worker 0 .permit),
      (1, .worker 0 (.answered (.gave (.error (.rateLimited (.ofSecs 1)))))),
      (1000000001, .worker 0 .wake), (1000000001, .worker 0 .pop),
      (1000000001, .worker 0 .permit)] rfl
  obtain ⟨events, d, start, course, member, starts, -, same, moments⟩ :=
    lone_of_users rfl (by decide) (by simp) own
      (by decide)
  have inOrder : InOrder events := by
    apply List.pairwise_map.mp
    rw [moments]
    decide
  refine ⟨events, d, start, course, inOrder, member, starts, by rw [same]; rfl, ?_⟩
  apply (waits_are_kept course inOrder member starts).2 (.inl (by decide))
  intro e here x error wait answered limited
  rw [same] at here
  have known : (x, .error error) ∈
      ([(⟨1⟩, .error (.rateLimited (.ofSecs 1)))] : List (Recipient × Except DeliveryError Unit)) :=
    List.mem_filterMap.mpr ⟨e, here, answered⟩
  cases List.mem_singleton.mp known
  cases limited
  decide

/-- Of two workers, one meets a rate limit and rests for an hour; the other one tries the same user
again at once. -/
theorem wait_is_passed_over : ∃ events d start run,
    Course Dispatcher.step (.start { workers := 2 } (.ofUsers [⟨1⟩, ⟨2⟩] (by decide))) events d ∧
    InOrder events ∧ start ∈ events ∧
    start.Starts 0 0 { source := ⟨-42, 7⟩ } (.ofUsers [⟨1⟩, ⟨2⟩]) ∧ d.runs[0]? = some run ∧
    ¬KeepsWaits (eventsOf 0 events) := by
  have own := course_of_replay Run.step
    (.opening ((Dispatcher.start { workers := 2 } (.ofUsers [⟨1⟩, ⟨2⟩] (by decide))).plan
      { source := ⟨-42, 7⟩ } (.ofUsers [⟨1⟩, ⟨2⟩])) 0 false)
    [(0, .announced (.gave none)), (0, .worker 0 .pop), (0, .worker 1 .pop),
      (0, .worker 0 .permit), (40000000, .worker 1 .permit),
      (41000000, .worker 0 (.answered (.gave (.error (.rateLimited (.ofSecs 3600)))))),
      (42000000, .worker 1 (.answered (.gave (.ok ())))), (42000000, .worker 1 .pop),
      (80000000, .worker 1 .permit)] rfl
  obtain ⟨events, d, start, course, member, starts, present, same, moments⟩ :=
    lone_of_users rfl (by decide) (by simp) own
      (by decide)
  refine ⟨events, d, start, _, course, ?_, member, starts, present, fun keeps => ?_⟩
  · apply List.pairwise_map.mp
    rw [moments]
    decide
  · rw [same] at keeps
    have tooEarly := List.pairwise_iff_getElem.mp keeps 5 8 (by decide) (by decide) (by decide)
      (.ofSecs 3600) ⟨⟨⟨1⟩, ⟨-42, 7⟩, .forward⟩, by decide, _, rfl, rfl⟩
    revert tooEarly
    decide

end Broadcast
