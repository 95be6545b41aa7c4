import Broadcast.Proofs.Dispatcher.Launch
import Broadcast.Proofs.Dispatcher.Slot
import Broadcast.Proofs.Dispatcher.Sources
import Broadcast.Proofs.Run.Permits

/-!
# Removals at once

Each run has permits of its own for its removals. As long as every run waits for its removals, those
of one run at most are under way; but a run that does not wait any longer leaves them to go on beside
the removals of the runs that follow.
-/

namespace Broadcast

/-- The calls to the directory to remove somebody that begin during some events. -/
def removalsAsked (events : List (Event Dispatcher Dispatcher.Move)) : Nat :=
  (events.flatMap Event.effects).countP (·.removal?.isSome)

/-- The move is the answer to a call to remove somebody. -/
def Dispatcher.Move.answersRemoval : Dispatcher.Move → Bool
  | .removed _ _ _ => true
  | .open _ | .caller _ _ | .run _ _ | .addUser _ | .addChat _ => false

/-- The calls to the directory to remove somebody that end during some events. -/
def removalsAnswered (events : List (Event Dispatcher Dispatcher.Move)) : Nat :=
  events.countP (·.move.answersRemoval)

/-- How many of the first runs have stopped waiting though their removals had not all ended. -/
def forsaken (runs : Nat) (events : List (Event Dispatcher Dispatcher.Move)) : Nat :=
  (List.range runs).countP fun r => (eventsOf r events).any Run.forsakes

/-- The removals of all runs that ask the directory. -/
def Dispatcher.asking (d : Dispatcher) : Nat :=
  (d.runs.map Run.asking).sum

/-- The removals after some events keep to a number of permits. -/
structure Permitted (permits : Nat) (events : List (Event Dispatcher Dispatcher.Move))
    (d : Dispatcher) : Prop where
  /-- The calls that are in progress are those of removals that ask. -/
  calls : removalsAsked events = removalsAnswered events + d.asking
  /-- Each run keeps to the permits. -/
  each : ∀ run ∈ d.runs, run.asking ≤ permits
  /-- All runs together do so, but for those before the last one that left removals to themselves. -/
  all : d.asking ≤ permits * (1 + forsaken (d.runs.length - 1) events)

/-! ## Calls in progress -/

private theorem answers_of_eventOf {e : Event Dispatcher Dispatcher.Move} {r : Nat}
    {own : Event Run Run.Move} (made : e.before.step e.moment e.move = some (e.after, e.effects))
    (picked : eventOf? r e = some own) :
    own.move.answersRemoval = e.move.answersRemoval := by
  obtain ⟨-, -, moves, -⟩ := of_eventOf picked
  rcases Dispatcher.source_of_runMove moves with ran | ⟨k, answer, given, removed, same⟩ |
    ⟨same, -, c, cancels, -⟩
  · rw [ran] at made ⊢
    cases m : own.move with
    | removal k removal =>
        cases removal with
        | begin => rfl
        | answered => simp [m, Dispatcher.step] at made
    | announced | worker | display | joined | drained | timedOut | concluded | edited | replied
    | cancel => rfl
  · rw [removed, same]
    rfl
  · rw [cancels, same]
    rfl

/-- The calls that are in progress are those that were before, with those that begin and without
those that end. -/
private theorem asking_of_event {e : Event Dispatcher Dispatcher.Move}
    (made : e.before.step e.moment e.move = some (e.after, e.effects)) :
    e.after.asking + (if e.move.answersRemoval then 1 else 0) =
      e.before.asking + e.effects.countP (·.removal?.isSome) := by
  have silent {effects : List Run.Effect} (quiet : ∀ effect ∈ effects, effect.isOfCall = true) :
      effects.countP (·.removal?.isSome) = 0 := by
    rw [List.countP_eq_zero]
    intro effect member asks
    unfold Run.Effect.removal? at asks
    split at asks
    · cases quiet _ member
    · cases asks
  cases Dispatcher.source_of_step made with
  | call own called =>
      rw [own]
      cases called with
      | start more brings =>
          have none : e.effects.countP (·.removal?.isSome) = 0 := by
            rw [brings]
            rfl
          rw [none, Dispatcher.asking, more, Dispatcher.withRun, List.map_append, List.sum_append]
          rfl
      | aside same quiet =>
          rw [silent quiet, Dispatcher.asking, Dispatcher.asking]
          rcases same with same | ⟨r, same⟩
          · rw [same]
            rfl
          · rw [same, Dispatcher.map_cancelRun fun run => rfl]
            rfl
  | @run r own mine picked _ changed brings =>
      obtain ⟨-, present, -, moved⟩ := of_eventOf picked
      have one := Run.asking_of_step moved
      have cleared : (e.before.clearing r own.after.stage).countP (·.removal?.isSome) = 0 := by
        rcases e.before.clearing_eq r own.after.stage with none | clears
        · rw [none]
          rfl
        · rw [clears]
          rfl
      have total := Run.sum_map_set Run.asking own.after present
      rw [← changed] at total
      rw [answers_of_eventOf made picked] at one
      rw [brings, List.countP_append, cleared, Dispatcher.asking, Dispatcher.asking]
      omega
  | none quiet same absent there =>
      have other : e.move.answersRemoval = false := by
        cases move : e.move with
        | removed r => simpa [move, Dispatcher.Move.isOf] using there r
        | «open» | caller | run | addUser | addChat => rfl
      rw [other, quiet, Dispatcher.asking, same, Dispatcher.asking]
      rfl

section Courses

variable {settings : Settings} {directory : Directory} {clocks : Clocks} {d : Dispatcher}
  {events : List (Event Dispatcher Dispatcher.Move)}

/-- The calls that have begun have ended, or they are those of the removals that ask. -/
theorem removalsAsked_eq
    (course : Course Dispatcher.step (.start settings directory clocks) events d) :
    removalsAsked events = removalsAnswered events + d.asking := by
  induction course with
  | start => rfl
  | @next events now s t move effects _ made ih =>
      have one := asking_of_event (e := ⟨now, s, move, t, effects⟩) made
      rw [removalsAsked, removalsAnswered] at ih ⊢
      rw [List.flatMap_append, List.countP_append, List.flatMap_singleton, List.countP_append,
        List.countP_singleton]
      dsimp only at one ⊢
      omega

/-! ## Permits -/

private theorem asking_le_of_run
    (course : Course Dispatcher.step (.start settings directory clocks) events d)
    {r : Nat} {run : Run}
    (present : d.runs[r]? = some run) : run.asking ≤ max settings.removalConcurrency.toNat 1 := by
  obtain ⟨plan, began, cancelled, permits, own⟩ := own_of_run course present
  rw [← permits]
  exact Run.asking_le_of_course own

private theorem asking_of_earlier
    (course : Course Dispatcher.step (.start settings directory clocks) events d)
    {r : Nat} {run : Run} (present : d.runs[r]? = some run) (earlier : r + 1 ≠ d.runs.length)
    (waited : (eventsOf r events).any Run.forsakes = false) : run.asking = 0 := by
  obtain ⟨plan, began, cancelled, -, own⟩ := own_of_run course present
  exact Run.asking_of_over own waited (Dispatcher.over_of_earlier course present earlier)

private theorem sum_le_mul_countP {bound : Nat} {f : Nat → Nat} {p : Nat → Bool} {l : List Nat}
    (le : ∀ i ∈ l, f i ≤ if p i then bound else 0) : (l.map f).sum ≤ bound * l.countP p := by
  induction l with
  | nil => exact Nat.zero_le _
  | cons i l ih =>
      have here := le i List.mem_cons_self
      have there := ih fun j member => le j (List.mem_cons_of_mem _ member)
      calc
        ((i :: l).map f).sum = (l.map f).sum + f i := by
          rw [List.map_cons, List.sum_cons, Nat.add_comm]
        _ ≤ bound * l.countP p + if p i then bound else 0 := Nat.add_le_add there here
        _ = bound * (i :: l).countP p := by
          rw [List.countP_cons, Nat.mul_add]
          split <;> simp

/-- Beside the last run only those ask that have left removals to themselves. -/
private theorem asking_le_of_course
    (course : Course Dispatcher.step (.start settings directory clocks) events d) :
    d.asking ≤
      max settings.removalConcurrency.toNat 1 * (1 + forsaken (d.runs.length - 1) events) := by
  have runs : d.runs.map Run.asking = (List.range d.runs.length).map fun r =>
      (d.runs[r]?.map Run.asking).getD 0 := by
    refine List.ext_getElem (by simp) fun r inside _ => ?_
    have inside' : r < d.runs.length := by simpa using inside
    simp [List.getElem?_eq_getElem inside']
  rw [Dispatcher.asking, runs, forsaken]
  -- The last run is the only one that may be under way, so it is taken apart from the others.
  cases length : d.runs.length with
  | zero => exact Nat.zero_le _
  | succ m =>
      have earlier : ∀ r ∈ List.range m, (d.runs[r]?.map Run.asking).getD 0 ≤
          if (eventsOf r events).any Run.forsakes then
            max settings.removalConcurrency.toNat 1 else 0 := by
        intro r member
        have before : r < m := List.mem_range.mp member
        have present := List.getElem?_eq_getElem (l := d.runs) (i := r) (by omega)
        rw [present, Option.map_some, Option.getD_some]
        split
        next => exact asking_le_of_run course present
        next waits =>
          exact Nat.le_of_eq (asking_of_earlier course present (by omega)
            (Bool.eq_false_of_not_eq_true waits))
      have last : (d.runs[m]?.map Run.asking).getD 0 ≤
          max settings.removalConcurrency.toNat 1 := by
        have present := List.getElem?_eq_getElem (l := d.runs) (i := m) (by omega)
        rw [present]
        exact asking_le_of_run course present
      rw [List.range_succ, List.map_append, List.sum_append, Nat.mul_add, Nat.mul_one, Nat.add_comm]
      exact Nat.add_le_add (by simpa using last) (sum_le_mul_countP earlier)

/-- No run lets more removals ask the directory at once than its permits allow. All runs together
keep to these permits as well, as long as each run waits for its removals; each one before the last
that does not adds as many. -/
theorem removals_keep_to_permits
    (course : Course Dispatcher.step (.start settings directory clocks) events d) :
    Permitted (max settings.removalConcurrency.toNat 1) events d where
  calls := removalsAsked_eq course
  each run member := by
    obtain ⟨r, present⟩ := List.mem_iff_getElem?.mp member
    exact asking_le_of_run course present
  all := asking_le_of_course course

end Courses

/-- Of two users who have blocked the sender one is being removed, and the other one waits for the
only permit. -/
theorem removals_keep_to_one_permit : ∃ events d,
    Course Dispatcher.step
      (.start { workers := 1, removalConcurrency := 1 } (.ofUsers [⟨1⟩, ⟨2⟩] (by decide)))
      events d ∧
    d.asking = 1 ∧ d.step 3 (.run 0 (.removal 1 .begin)) = none ∧ Permitted 1 events d := by
  obtain ⟨past, e, early, -⟩ := course_of_users
    (d := .start { workers := 1, removalConcurrency := 1 } (.ofUsers [⟨1⟩, ⟨2⟩] (by decide)))
    rfl 0 rfl ⟨-42, 7⟩ none rfl (by decide) (by simp)
  have late := course_of_replay Dispatcher.step
    (Dispatcher.launched
      (.start { workers := 1, removalConcurrency := 1 } (.ofUsers [⟨1⟩, ⟨2⟩] (by decide)))
      { source := ⟨-42, 7⟩ } (.ofUsers [⟨1⟩, ⟨2⟩]) 0)
    [(0, .run 0 (.announced (.gave none))), (0, .run 0 (.worker 0 .pop)),
      (0, .run 0 (.worker 0 .permit)),
      (1, .run 0 (.worker 0 (.answered (.gave (.error .peerBlocked))))),
      (1, .run 0 (.worker 0 .pop)), (1, .run 0 (.removal 0 .begin)),
      (1, .run 0 (.worker 0 .permit)),
      (2, .run 0 (.worker 0 (.answered (.gave (.error .peerBlocked)))))] rfl
  exact ⟨_, _, early.append late, rfl, rfl, removals_keep_to_permits (early.append late)⟩

/-- There is one permit, and yet two removals go on at once: one that a broadcast has left to itself,
and one of the broadcast that follows. -/
theorem permits_exceeded_by_two_broadcasts : ∃ events d,
    Course Dispatcher.step
      (.start { workers := 1, removalConcurrency := 1 } (.ofUsers [⟨1⟩] (List.nodup_singleton _)))
      events d ∧
    d.flight = .attached 1 ∧ d.asking = 2 ∧
    removalsAsked events = removalsAnswered events + 2 := by
  obtain ⟨past, e, early, -⟩ := course_of_users
    (d := .start { workers := 1, removalConcurrency := 1 } (.ofUsers [⟨1⟩] (List.nodup_singleton _)))
    rfl 0 rfl ⟨-42, 7⟩ none rfl (by decide) (by simp)
  have late := course_of_replay Dispatcher.step
    (Dispatcher.launched
      (.start { workers := 1, removalConcurrency := 1 } (.ofUsers [⟨1⟩] (List.nodup_singleton _)))
      { source := ⟨-42, 7⟩ } (.ofUsers [⟨1⟩]) 0)
    [(0, .run 0 (.announced (.gave none))), (0, .run 0 (.worker 0 .pop)),
      (0, .run 0 (.worker 0 .permit)),
      (1, .run 0 (.worker 0 (.answered (.gave (.error .peerBlocked))))),
      (1, .run 0 (.removal 0 .begin)), (1, .run 0 (.worker 0 .pop)), (1, .run 0 .joined),
      (2 ^ 64, .run 0 .timedOut), (2 ^ 64, .run 0 .concluded),
      (2 ^ 64, .run 0 (.replied (.gave ())))] rfl
  have again {events : List (Event Dispatcher Dispatcher.Move)} {d : Dispatcher}
      (first : Course Dispatcher.step
        (.start { workers := 1, removalConcurrency := 1 }
          (.ofUsers [⟨1⟩] (List.nodup_singleton _))) events d)
      (idle : d.flight = .idle)
      (known : d.directory = .ofUsers [⟨1⟩] (List.nodup_singleton _)) :
      ∃ more, Course Dispatcher.step
        (.start { workers := 1, removalConcurrency := 1 }
          (.ofUsers [⟨1⟩] (List.nodup_singleton _))) (events ++ more)
        (d.launched { source := ⟨-42, 7⟩ } (.ofUsers [⟨1⟩]) (2 ^ 64)) := by
    have settings := settings_of_course first
    obtain ⟨more, -, launch, -⟩ := course_of_users idle (2 ^ 64) known ⟨-42, 7⟩ none
      (by rw [Dispatcher.pause, settings]; rfl) (by rw [settings]; decide) (by simp)
    exact ⟨more, first.append launch⟩
  obtain ⟨more, second⟩ := again (early.append late) rfl rfl
  have course := second.append (course_of_replay Dispatcher.step _
    [(2 ^ 64, .run 1 (.announced (.gave none))), (2 ^ 64, .run 1 (.worker 0 .pop)),
      (2 ^ 64, .run 1 (.worker 0 .permit)),
      (2 ^ 64, .run 1 (.worker 0 (.answered (.gave (.error .peerBlocked))))),
      (2 ^ 64, .run 1 (.removal 0 .begin))] rfl)
  exact ⟨_, _, course, rfl, rfl, (removalsAsked_eq course).trans rfl⟩

end Broadcast
