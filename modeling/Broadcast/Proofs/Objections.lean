import Broadcast.Proofs.Dispatcher.Launch
import Broadcast.Proofs.Dispatcher.Objections

/-!
# What is left of a command that starts no run

A command that is not understood, that finds the slot taken, that has no pause to pace by, or that
reaches nobody, is answered by one notice. Nothing else comes of it, whatever goes on meanwhile.
-/

namespace Broadcast

/-- There is an objection to a command with an event, and nothing comes of the command. -/
structure Declined (c : Nat) (errand : Errand) (objection : Objection)
    (past : List (Event Dispatcher Dispatcher.Move)) (e : Event Dispatcher Dispatcher.Move)
    (rest : List (Event Dispatcher Dispatcher.Move)) (d : Dispatcher) : Prop where
  /-- All that is ever asked for is the listings before the objection, and one notice. -/
  asks : asksOf c (past ++ e :: rest) = objection.listings ++ [.reply objection.notice]
  /-- No run starts. -/
  idle : ∀ r, ¬Ran c r (past ++ e :: rest)
  /-- Settings, directory, runs and other callers stay as they are, and so does a slot that somebody
  else holds. -/
  keeps : ∀ e' ∈ past ++ e :: rest, e'.move.isOfCaller c = true → e'.KeepsTo c
  /-- The slot stays as it is, whoever holds it, unless recipients have been listed. -/
  slot : objection.listings = [] → ∀ e' ∈ past ++ e :: rest, e'.move.isOfCaller c = true →
    ∃ stage, e'.after = e'.before.setStage c stage
  /-- Whoever had claimed the slot leaves it free. -/
  free : objection.claims = true → e.after.flight = .idle
  /-- The command is handled. -/
  answered : d.Answered c errand rest

section Courses

variable {settings : Settings} {directory : Directory} {clocks : Clocks} {d : Dispatcher}
  {events past rest : List (Event Dispatcher Dispatcher.Move)}
  {e : Event Dispatcher Dispatcher.Move} {c : Nat} {replyTo : Option SourceMessage}
  {args : String} {objection : Objection}

private theorem not_starts_of_keepsTo {r : Nat} {request : Request} {targets : Targets}
    (keeps : e.KeepsTo c) : ¬e.Starts c r request targets := by
  intro starts
  obtain ⟨flight, stage, after, -⟩ := keeps
  have there := starts.opens
  have none : e.before.runs[r]? = none := by
    rw [← starts.number, List.getElem?_length]
  rw [after] at there
  cases none.symm.trans there

private theorem stays_of_replying (future : Course Dispatcher.step e.after rest d) {errand : Errand}
    (told : e.after.callers[c]? = some ⟨errand, .replying⟩) {e' : Event Dispatcher Dispatcher.Move}
    (member : e' ∈ rest) (own : e'.move.isOfCaller c = true) :
    ∃ stage, e'.after = e'.before.setStage c stage ∧ e'.effects = [] := by
  obtain ⟨m, move⟩ := Dispatcher.Move.exists_of_isOfCaller own
  exact told_of_course future told (by simp [Caller.Stage.rank]) e' member m move

/-- Nothing comes of a command to which there is an objection. -/
private theorem declined_of_objects
    (course : Course Dispatcher.step (.start settings directory clocks) (past ++ e :: rest) d)
    (objects : e.Objects c (.broadcast replyTo args) objection) :
    Declined c (.broadcast replyTo args) objection past e rest d := by
  obtain ⟨before, made, future⟩ := course.around
  obtain ⟨own, stage, there, lists, opening, prepared⟩ := Dispatcher.prepared_of_objects objects
  obtain ⟨asks, after⟩ := Dispatcher.step_of_objects objects made
  have told : e.after.callers[c]? = some ⟨.broadcast replyTo args, .replying⟩ := by
    rw [after]
    split <;> exact (Dispatcher.setStage_callers _ c _ there c).trans (if_pos rfl)
  have keeps : ∀ e' ∈ past ++ e :: rest, e'.move.isOfCaller c = true → e'.KeepsTo c := by
    intro e' member mine
    rcases List.mem_append.mp member with early | late
    · exact keepsTo_of_preparing before there lists e' early mine
    · rcases List.mem_cons.mp late with rfl | late
      · exact Dispatcher.keepsTo_of_objects objects made
      · obtain ⟨stage, after, -⟩ := stays_of_replying future told late mine
        exact ⟨e'.before.flight, stage, after, .inl rfl⟩
  refine ⟨?_, ?_, keeps, ?_, Dispatcher.idle_of_objects objects made,
    Dispatcher.answered_of_course future told⟩
  · obtain ⟨m, move⟩ := Dispatcher.Move.exists_of_isOfCaller own
    have silent : asksOf c rest = [] := asksOf_eq_nil fun e' member mine => by
      obtain ⟨-, -, silent⟩ := stays_of_replying future told member mine
      rw [Event.asks, silent, List.filterMap_nil]
    rw [List.append_cons, asksOf_append, asksOf_append, asksOf_own move, asks, silent,
      List.append_nil, prepared _ (preparing_of_course before there lists)]
  · rintro r ⟨e', member, request, targets, starts⟩
    obtain ⟨_, _, _, move, -⟩ := starts.listed
    have mine : e'.move.isOfCaller c = true := by
      rw [move]
      exact decide_eq_true rfl
    exact not_starts_of_keepsTo (keeps e' member mine) starts
  · intro untouched e' member mine
    obtain rfl := opening untouched
    rcases List.mem_append.mp member with early | late
    · cases mine.symm.trans (unmoved_of_opening before there e' early)
    · rcases List.mem_cons.mp late with rfl | late
      · exact ⟨.replying, by rw [after, if_pos untouched]⟩
      · obtain ⟨stage, after, -⟩ := stays_of_replying future told late mine
        exact ⟨stage, after⟩

/-- A command that is told something without a run is so because of an objection, and nothing comes
of it but one notice, whatever goes on meanwhile. One that is not understood is told so even while a
broadcast is under way. -/
theorem objections_change_nothing
    (course : Course Dispatcher.step (.start settings directory clocks) events d)
    {stage : Caller.Stage} (present : d.callers[c]? = some ⟨.broadcast replyTo args, stage⟩) :
    (stage.hasReturned = true → (∀ r, ¬Ran c r events) →
      ∃ e ∈ events, ∃ objection, e.Objects c (.broadcast replyTo args) objection) ∧
    (∀ past e rest objection, events = past ++ e :: rest →
      e.Objects c (.broadcast replyTo args) objection →
      Declined c (.broadcast replyTo args) objection past e rest d) ∧
    ∀ e ∈ events, e.move = .caller c .begin → ∀ error,
      (Errand.broadcast replyTo args).wanted = .error error →
      e.Objects c (.broadcast replyTo args) (.usage error) := by
  refine ⟨objects_of_course course present, ?_, ?_⟩
  · rintro past e rest objection rfl objects
    exact declined_of_objects course objects
  · intro e member begins error usage
    obtain ⟨past, rest, rfl⟩ := List.append_of_mem member
    obtain ⟨-, made, future⟩ := course.around
    have made' := made
    rw [begins] at made'
    cases Dispatcher.change_of_step made' with
    | call call =>
        obtain ⟨errand, there⟩ := call.opening
        obtain ⟨middle, here, -⟩ := Dispatcher.rises_of_step made there
        obtain ⟨last, there', -⟩ := rises_of_course future here
        cases there'.symm.trans present
        exact .misuse begins there usage

end Courses

/-- While a broadcast is under way somebody gives a command that replies to no message. -/
theorem objections_change_nothing_meanwhile : ∃ past e rest d,
    Course Dispatcher.step (.start {} (.ofUsers [⟨1⟩] (List.nodup_singleton _)))
      (past ++ e :: rest) d ∧
    e.before.flight = .attached 0 ∧
    d.callers[1]? = some ⟨.broadcast none "", .done .handled⟩ ∧
    e.Objects 1 (.broadcast none "") (.usage .missingSource) ∧
    Declined 1 (.broadcast none "") (.usage .missingSource) past e rest d := by
  obtain ⟨past, -, early, -⟩ := course_of_users
    (d := .start {} (.ofUsers [⟨1⟩] (List.nodup_singleton _))) rfl 0 rfl ⟨-42, 7⟩ none rfl
    (by decide) (by simp)
  have course := (early.append (course_of_replay Dispatcher.step _
    [(0, .open (.broadcast none ""))] rfl)).append (course_of_replay Dispatcher.step _
    [(0, .caller 1 .begin), (1, .caller 1 (.replied (.gave ())))] rfl)
  obtain ⟨-, declined, misused⟩ := objections_change_nothing course (c := 1) rfl
  have objects := misused _ (List.mem_append_right _ (List.mem_cons_self)) rfl _ rfl
  exact ⟨_, _, _, _, course, rfl, rfl, objects, declined _ _ _ _ rfl objects⟩

end Broadcast
