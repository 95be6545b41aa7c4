import Broadcast.Proofs.Dispatcher.Callers
import Broadcast.Proofs.Run.Aftermath

/-!
# How broadcasts end

Whoever gives up the slot leaves it free, at a stage that ends the broadcast. Then no run is under
way: what is delivered or edited later is so by runs that start later. Whoever finds the slot taken
is told so, and does nothing more.
-/

namespace Broadcast

/-- A caller begins a broadcast. -/
def Event.Begins (e : Event Dispatcher Dispatcher.Move) (c : Nat) (errand : Errand) : Prop :=
  e.move = .caller c .begin ∧ e.before.callers[c]? = some ⟨errand, .opening⟩ ∧
    ∃ request, errand.wanted = .ok (some request)

namespace Dispatcher

section Moves

variable {now : Moment} {d d' : Dispatcher} {move : Move} {effects : List Run.Effect} {c : Nat}
  {errand : Errand}

/-- Whoever gives up the slot leaves it free, and has come to the end of a broadcast. -/
theorem released_of_step (made : d.step now move = some (d', effects)) {caller : Caller}
    (guarded : d.Guarded) (holds : d.held c = some caller) (gone : d'.held c = none) :
    d'.flight = .idle ∧ d'.HasEnded c caller.errand := by
  have keeps {k : Nat} {other : Caller}
      (held : d'.held = Function.update d.held k (some other)) : False := by
    rw [held] at gone
    by_cases mine : c = k
    · rw [mine, Function.update_self] at gone
      cases gone
    · rw [Function.update_of_ne mine, holds] at gone
      cases gone
  cases shift_of_step made with
  | still _ held | park _ _ _ held | cancel _ _ _ held | run _ _ _ _ _ held =>
      rw [held, holds] at gone
      cases gone
  | relist _ _ _ _ held | claim _ _ _ held | attach _ _ _ held => exact (keeps held).elim
  | free holds' _ flight _ _ ended =>
      obtain rfl := guarded.slot.alone holds holds'
      cases holds.symm.trans holds'
      exact ⟨flight, ended⟩
  | finish _ holds' _ _ _ flight _ _ ended =>
      obtain rfl := guarded.slot.alone holds holds'
      cases holds.symm.trans holds'
      exact ⟨flight, ended⟩

theorem released_of_begin (made : d.step now move = some (d', effects))
    (begins : Event.Begins ⟨now, d, move, d', effects⟩ c errand) (idle : d.flight = .idle)
    (gone : d'.held c = none) : d'.flight = .idle ∧ d'.HasEnded c errand := by
  obtain ⟨rfl, present, request, wanted⟩ := begins
  cases change_of_step made with
  | call call =>
      cases call with
      | misuse there usage =>
          cases there.symm.trans present
          cases usage.symm.trans wanted
      | busy _ _ busy => simp [idle, Flight.isBusy] at busy
      | unpaced there =>
          cases there.symm.trans present
          rw [refuse_eq]
          exact ⟨idle, hasEnded_of_setStage present (.invalidPacing _)⟩
      | overlong there =>
          cases there.symm.trans present
          exact ⟨idle, hasEnded_of_setStage present .broken⟩
      | @claim _ request _ there wanted =>
          cases there.symm.trans present
          have holds : Caller.holds ⟨errand, .listingChats request⟩ = true := by
            cases errand with
            | broadcast | run => rfl
            | cancel | resolve => cases wanted
          rw [held_setStage (d := { d with flight := .claimed false }) present, holds,
            if_pos rfl, Function.update_self] at gone
          cases gone
      | spare there | park there | cancel there | resolve there =>
          cases there.symm.trans present
          cases wanted

/-- Whoever finds the slot taken is told so, and nothing else changes. -/
theorem refused_of_begin (made : d.step now move = some (d', effects))
    (begins : Event.Begins ⟨now, d, move, d', effects⟩ c errand)
    (busy : d.flight.isBusy = true) :
    d' = d.setStage c (refusal errand .alreadyRunning) ∧
      ∀ ask, .ask ask ∈ effects → ask = .reply DispatchError.alreadyRunning.notice := by
  obtain ⟨rfl, present, request, wanted⟩ := begins
  have taken : d.flight ≠ .idle := by
    intro idle
    simp [idle, Flight.isBusy] at busy
  cases change_of_step made with
  | call call =>
      cases call with
      | misuse there usage =>
          cases there.symm.trans present
          cases usage.symm.trans wanted
      | busy there =>
          cases there.symm.trans present
          refine ⟨refuse_eq d c errand .alreadyRunning, fun ask asked => ?_⟩
          cases errand with
          | broadcast => simpa [refuse, reply] using asked
          | cancel | run | resolve => simp [refuse] at asked
      | unpaced _ _ idle | overlong _ _ idle | claim _ _ idle => exact absurd idle taken
      | spare there | park there | cancel there | resolve there =>
          cases there.symm.trans present
          cases wanted

theorem told_of_step {m : Caller.Move} (made : d.step now (.caller c m) = some (d', effects))
    {stage : Caller.Stage} (present : d.callers[c]? = some ⟨errand, stage⟩)
    (told : 2 < stage.rank) : ∃ stage, d' = d.setStage c stage ∧ effects = [] := by
  cases change_of_step made with
  | call call =>
      cases call with
      | replyLost | replied => exact ⟨_, rfl, rfl⟩
      | misuse there | busy there | unpaced there | overlong there | claim there | spare there
      | park there | cancel there | resolve there | chatsLost there | chats there
      | usersLost there | resolved there | noTargets there | start there =>
          cases there.symm.trans present
          simp [Caller.Stage.rank] at told

end Moves

end Dispatcher

section Courses

variable {settings : Settings} {directory : Directory} {clocks : Clocks} {d d' : Dispatcher}
  {past rest : List (Event Dispatcher Dispatcher.Move)}

/-- Whoever has started a run, or is told how it went, does nothing more. -/
theorem told_of_course (future : Course Dispatcher.step d rest d') {c : Nat} {errand : Errand}
    {stage : Caller.Stage} (present : d.callers[c]? = some ⟨errand, stage⟩)
    (told : 2 < stage.rank) :
    ∀ e ∈ rest, ∀ move, e.move = .caller c move →
      ∃ stage, e.after = e.before.setStage c stage ∧ e.effects = [] := by
  intro e member move own
  obtain ⟨early, late, rfl⟩ := List.append_of_mem member
  obtain ⟨before, made, -⟩ := future.around
  obtain ⟨stage', there, later⟩ := rises_of_course before present
  refine Dispatcher.told_of_step (own ▸ made) there ?_
  rcases later with rfl | later
  · exact told
  · exact Nat.lt_trans told later

/-- Whatever is delivered or edited once the slot is free is so by a run that starts later. -/
theorem messages_of_idle (course : Course Dispatcher.step (.start settings directory clocks) past d)
    (idle : d.flight = .idle) (future : Course Dispatcher.step d rest d') :
    (∀ (r : Nat) (run : Run), d.runs[r]? = some run → run.stage.isOver = true) ∧
    ∀ e ∈ rest, ∀ effect ∈ e.effects, effect.isMessage = true →
      ∃ r own, d.runs.length ≤ r ∧ eventOf? r e = some own ∧ effect ∈ own.effects := by
  have stopped (r : Nat) (run : Run) (present : d.runs[r]? = some run) :
      run.stage.isOver = true := by
    by_contra goesOn
    have attached := ((Dispatcher.guarded_of_course course).ends r run present).mp
      (Bool.eq_false_of_not_eq_true goesOn)
    cases idle.symm.trans attached
  refine ⟨stopped, fun e member effect asked message => ?_⟩
  have picks := member
  obtain ⟨early, late, rfl⟩ := List.append_of_mem member
  obtain ⟨r, own, picked, there⟩ := Dispatcher.message_of_step future.around.2.1 asked message
  refine ⟨r, own, ?_, picked, there⟩
  by_contra before
  have present := List.getElem?_eq_getElem (Nat.lt_of_not_le before)
  obtain ⟨plan, began, cancelled, -, first⟩ := own_of_run course present
  obtain ⟨run', -, last⟩ := course_of_run future present
  have silent := Run.silent_of_course last (Run.staffed_of_course first)
    (Run.watched_of_course first) (stopped r _ present)
  have member : own ∈ eventsOf r (early ++ e :: late) :=
    List.mem_filterMap.mpr ⟨e, picks, picked⟩
  cases (silent own member effect there).symm.trans message

end Courses

end Broadcast
