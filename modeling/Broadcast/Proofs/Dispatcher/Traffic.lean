import Broadcast.Proofs.Dispatcher.Release
import Broadcast.Proofs.Dispatcher.Sources
import Broadcast.Proofs.Run.Posts

/-!
# What the operator of a run gets to see

The caller of a run posts nothing before the run starts, and nothing on its own afterwards: its
operator gets the announcement, and then what the run posts.
-/

namespace Broadcast

/-- The move is one of a caller, or of a run. -/
def Dispatcher.Move.concerns (c r : Nat) : Dispatcher.Move → Bool
  | .caller k _ => k = c
  | .run k _ | .removed k _ _ => k = r
  | .open _ | .addUser _ | .addChat _ => false

/-- What a caller and a run post during some events, in order. -/
def traffic (c r : Nat) (events : List (Event Dispatcher Dispatcher.Move)) : List Post :=
  posts (events.filter (·.move.concerns c r))

@[simp] theorem traffic_append (c r : Nat)
    (left right : List (Event Dispatcher Dispatcher.Move)) :
    traffic c r (left ++ right) = traffic c r left ++ traffic c r right := by
  simp [traffic]

namespace Dispatcher

section Moves

variable {now : Moment} {d d' : Dispatcher} {effects : List Run.Effect} {c r : Nat}

/-- With an event a caller and a run post what the run posts, unless the caller does so itself. -/
private theorem traffic_of_step {move : Move} (made : d.step now move = some (d', effects))
    (mute : ∀ m, move = .caller c m → effects.filterMap Run.Effect.post? = []) :
    traffic c r [⟨now, d, move, d', effects⟩] =
      posts (eventsOf r [⟨now, d, move, d', effects⟩]) := by
  have alone : traffic c r [⟨now, d, move, d', effects⟩] =
      if move.concerns c r then effects.filterMap Run.Effect.post? else [] := by
    cases concerned : move.concerns c r <;> simp [traffic, concerned, Event.posts]
  rw [alone]
  cases source_of_step (e := ⟨now, d, move, d', effects⟩) made with
  | @call k m mine _ quiet =>
      obtain rfl : move = .caller k m := mine
      have silent : posts (eventsOf r [⟨now, d, .caller k m, d', effects⟩]) = [] := by
        cases picked : eventOf? r ⟨now, d, .caller k m, d', effects⟩ with
        | none => rw [eventsOf_of_none picked, posts_nil]
        | some own => simp [eventsOf_of_some picked, Event.posts, quiet r own picked]
      rw [silent]
      by_cases same : k = c
      · subst same
        simp [mute m rfl]
      · simp [Move.concerns, same]
  | @run k own mine picked others _ same =>
      have concerned : move.concerns c r = decide (k = r) := by
        cases move with
        | run | removed =>
            obtain rfl : _ = k := of_decide_eq_true mine
            rfl
        | «open» | caller | addUser | addChat => cases mine
      have posted : effects.filterMap Run.Effect.post? = own.posts := filterMap_clearing rfl same
      rw [concerned, posted]
      by_cases here : k = r
      · subst here
        simp [eventsOf_of_some picked]
      · simp [here, eventsOf_of_none (others r (Ne.symm here))]
  | none quiet _ absent =>
      have none : effects = [] := quiet
      rw [eventsOf_of_none (absent r), none]
      simp

end Moves

end Dispatcher

section Courses

variable {d d' : Dispatcher} {events : List (Event Dispatcher Dispatcher.Move)} {c r : Nat}

private theorem traffic_of_course (course : Course Dispatcher.step d events d')
    (mute : ∀ e ∈ events, ∀ m, e.move = .caller c m → e.posts = []) :
    traffic c r events = posts (eventsOf r events) := by
  induction course with
  | start => rfl
  | next _ made ih =>
      rw [traffic_append, eventsOf_append, posts_append,
        ih fun e member => mute e (List.mem_append_left _ member),
        Dispatcher.traffic_of_step made
          (mute _ (List.mem_append_right _ (List.mem_singleton_self _)))]

/-- The operator of a run gets its announcement, and then what the run posts. -/
theorem traffic_of_starts (course : Course Dispatcher.step d events d')
    {e : Event Dispatcher Dispatcher.Move} {request : Request} {targets : Targets} {run : Run}
    (member : e ∈ events) (starts : e.Starts c r request targets)
    (present : d'.runs[r]? = some run) :
    traffic c r events = .reply run.plan.announcement :: posts (eventsOf r events) := by
  have plan : run.plan = e.before.plan request targets :=
    (Run.plan_of_course (own_of_starts course member starts present)).1
  obtain ⟨past, rest, rfl⟩ := List.append_of_mem member
  obtain ⟨early, made, late⟩ := course.around
  obtain ⟨errand, chats, reach, move, going, listing, collected⟩ := starts.listed
  have absent : e.before.runs[r]? = none := by
    rw [List.getElem?_eq_none_iff, starts.number]
  have before : traffic c r past = [] := by
    have mute (x) (member : x ∈ past) (m) (own : x.move = .caller c m) : x.posts = [] := by
      have lists : Caller.Stage.rank (.listingUsers request chats) ≤ 2 := Nat.le_refl _
      rcases asked_of_course early listing lists x member m own with asks | asks | asks <;>
        rw [Event.posts, asks] <;> rfl
    rw [traffic_of_course early mute, eventsOf_of_absent early absent, posts_nil]
  have after : traffic c r rest = posts (eventsOf r rest) := by
    refine traffic_of_course late fun x member m own => ?_
    obtain ⟨errand, running⟩ := starts.running
    obtain ⟨stage, -, silent⟩ := told_of_course late running (by simp [Caller.Stage.rank]) x member
      m own
    rw [Event.posts, silent, List.filterMap_nil]
  have announces : traffic c r [e] = [.reply run.plan.announcement] := by
    have posted : e.posts = [.reply run.plan.announcement] := by
      rw [plan, Event.posts, starts.effects made]
      rfl
    simp [traffic, move, Dispatcher.Move.concerns, posted]
  rw [eventsOf_of_starts course starts, List.append_cons, traffic_append, traffic_append, before,
    announces, after]
  rfl

end Courses

end Broadcast
