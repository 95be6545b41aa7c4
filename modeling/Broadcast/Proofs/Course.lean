import Broadcast.Run.Step
import Mathlib.Data.List.Induction

/-!
# Courses of events

A course is a finite sequence of moves that a system really makes, each with the states around it.
A statement about every course is one about every order of moves and every behaviour of the outside.
The moments of a course are arbitrary here; a clock that never goes back is a condition of its own.
-/

namespace Broadcast

/-- A delivery that is tried. -/
structure Attempt where
  /-- Whom the message is to reach. -/
  recipient : Recipient
  /-- The message. -/
  source : SourceMessage
  /-- How it is to arrive. -/
  mode : DeliveryMode
deriving DecidableEq, Repr

/-- The delivery that begins with an effect. -/
def Run.Effect.attempt? : Run.Effect → Option Attempt
  | .ask (.deliver recipient source mode) => some ⟨recipient, source, mode⟩
  | _ => none

/-- The effect is a delivery, or an edit of a notice. -/
def Run.Effect.isMessage : Run.Effect → Bool
  | .ask (.deliver _ _ _) | .ask (.edit _ _) => true
  | .ask .listChats | .ask .listUsers | .ask (.remove _ _) | .ask (.reply _) => false
  | .publish _ | .spawn _ => false

/-- A move that was made. -/
structure Event (σ μ : Type) where
  /-- When it was made. -/
  moment : Moment
  /-- The state in which it was made. -/
  before : σ
  /-- What was done. -/
  move : μ
  /-- The state to which it led. -/
  after : σ
  /-- What it brought about outside. -/
  effects : List Run.Effect

/-- The deliveries that begin with an event. -/
def Event.attempts {σ μ : Type} (e : Event σ μ) : List Attempt :=
  e.effects.filterMap Run.Effect.attempt?

/-- The deliveries to one recipient that begin during some events. -/
def attemptsTo {σ μ : Type} (recipient : Recipient) (events : List (Event σ μ)) : Nat :=
  (events.flatMap Event.attempts).countP (·.recipient = recipient)

/-- The clock never goes back during some events. -/
def InOrder {σ μ : Type} (events : List (Event σ μ)) : Prop :=
  events.Pairwise fun e f => e.moment ≤ f.moment

theorem attemptsTo_append {σ μ : Type} (recipient : Recipient) (left right : List (Event σ μ)) :
    attemptsTo recipient (left ++ right) =
      attemptsTo recipient left + attemptsTo recipient right := by
  simp [attemptsTo]

theorem attemptsTo_singleton {σ μ : Type} (recipient : Recipient) (e : Event σ μ) :
    attemptsTo recipient [e] = e.attempts.countP (·.recipient = recipient) := by
  simp [attemptsTo]

/-- The events lead from one state to another, each beginning where the one before it ended. -/
inductive Course {σ μ : Type} (step : Moment → σ → μ → Option (σ × List Run.Effect)) (first : σ) :
    List (Event σ μ) → σ → Prop
  | start : Course step first [] first
  | next {events : List (Event σ μ)} {now : Moment} {s t : σ} {move : μ}
      {effects : List Run.Effect} :
      Course step first events s →
      step now s move = some (t, effects) →
      Course step first (events ++ [⟨now, s, move, t, effects⟩]) t

namespace Course

variable {σ μ : Type} {step : Moment → σ → μ → Option (σ × List Run.Effect)}

theorem single {now : Moment} {s t : σ} {move : μ} {effects : List Run.Effect}
    (made : step now s move = some (t, effects)) :
    Course step s [⟨now, s, move, t, effects⟩] t :=
  start.next made

theorem eq_of_nil {first last : σ} (course : Course step first [] last) : last = first := by
  generalize none : ([] : List (Event σ μ)) = events at course
  cases course with
  | start => rfl
  | next => simp at none

theorem append {first middle last : σ} {events more : List (Event σ μ)}
    (past : Course step first events middle) (future : Course step middle more last) :
    Course step first (events ++ more) last := by
  induction future with
  | start => simpa using past
  | next _ made ih =>
      rw [← List.append_assoc]
      exact ih.next made

theorem of_concat {first last : σ} {events : List (Event σ μ)} {e : Event σ μ}
    (course : Course step first (events ++ [e]) last) :
    Course step first events e.before ∧
      step e.moment e.before e.move = some (e.after, e.effects) ∧ e.after = last := by
  generalize whole : events ++ [e] = all at course
  cases course with
  | start => simp at whole
  | next past made =>
      obtain ⟨rfl, same⟩ := List.append_inj' whole rfl
      obtain rfl : e = _ := by simpa using same
      exact ⟨past, made, rfl⟩

/-- A course can be cut anywhere. -/
theorem split {first last : σ} {events more : List (Event σ μ)}
    (course : Course step first (events ++ more) last) :
    ∃ middle, Course step first events middle ∧ Course step middle more last := by
  induction more using List.reverseRecOn generalizing last with
  | nil => exact ⟨last, by simpa using course, start⟩
  | append_singleton more e ih =>
      rw [← List.append_assoc] at course
      obtain ⟨past, made, rfl⟩ := of_concat course
      obtain ⟨middle, early, late⟩ := ih past
      exact ⟨middle, early, late.next made⟩

theorem around {first last : σ} {past rest : List (Event σ μ)} {e : Event σ μ}
    (course : Course step first (past ++ e :: rest) last) :
    Course step first past e.before ∧
      step e.moment e.before e.move = some (e.after, e.effects) ∧
      Course step e.after rest last := by
  rw [List.append_cons] at course
  obtain ⟨middle, early, late⟩ := split course
  obtain ⟨before, made, rfl⟩ := of_concat early
  exact ⟨before, made, late⟩

/-- What the first state has and each step keeps, the last state has. -/
theorem invariant {P : σ → Prop} {first last : σ} {events : List (Event σ μ)}
    (course : Course step first events last) (holds : P first)
    (keeps : ∀ {now s move t effects}, step now s move = some (t, effects) → P s → P t) :
    P last := by
  induction course with
  | start => exact holds
  | next _ made ih => exact keeps made ih

end Course

/-- The events of given moves in order, and the state after them. -/
def replay {σ μ : Type} (step : Moment → σ → μ → Option (σ × List Run.Effect)) :
    σ → List (Moment × μ) → Option (List (Event σ μ) × σ)
  | s, [] => some ([], s)
  | s, (now, move) :: moves =>
    match step now s move with
    | some (t, effects) =>
      (replay step t moves).map fun (events, last) => (⟨now, s, move, t, effects⟩ :: events, last)
    | none => none

private theorem course_of_replay_eq {σ μ : Type}
    {step : Moment → σ → μ → Option (σ × List Run.Effect)} {s last : σ}
    {moves : List (Moment × μ)} {events : List (Event σ μ)}
    (played : replay step s moves = some (events, last)) : Course step s events last := by
  induction moves generalizing s events with
  | nil =>
      obtain ⟨rfl, rfl⟩ : [] = events ∧ s = last := by simpa [replay] using played
      exact .start
  | cons m moves ih =>
      obtain ⟨now, move⟩ := m
      unfold replay at played
      split at played
      next t effects made =>
        obtain ⟨⟨later, last⟩, rest, same⟩ := Option.map_eq_some_iff.mp played
        obtain ⟨rfl, rfl⟩ := Prod.mk.inj same
        exact (Course.single made).append (ih rest)
      next => cases played

/-- What can be replayed is a course. -/
theorem course_of_replay {σ μ : Type} (step : Moment → σ → μ → Option (σ × List Run.Effect))
    (s : σ) (moves : List (Moment × μ)) (possible : (replay step s moves).isSome = true) :
    Course step s ((replay step s moves).get possible).1
      ((replay step s moves).get possible).2 :=
  course_of_replay_eq (Option.eq_some_iff_get_eq.mpr ⟨possible, rfl⟩)

end Broadcast
