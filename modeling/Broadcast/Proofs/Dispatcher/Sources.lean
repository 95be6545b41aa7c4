import Broadcast.Proofs.Dispatcher.Runs

/-!
# Where the effects of a dispatcher come from

Whatever happens outside is brought about by a call, or by one run that moves. All that a dispatcher
adds to what a run brings about is the gauge that it clears when the run has reported.
-/

namespace Broadcast

/-- An event is one of a run, or of its removals. -/
def Dispatcher.Move.isOf (r : Nat) : Dispatcher.Move → Bool
  | .run k _ | .removed k _ _ => k = r
  | .open _ | .caller _ _ | .addUser _ | .addChat _ => false

/-- What a dispatcher adds to what a run brings about: it clears the gauge if the run has reported to
its caller. -/
def Dispatcher.clearing (d : Dispatcher) (r : Nat) (stage : Run.Stage) : List Run.Effect :=
  match stage, d.callerOf? r with
  | .finished _, some _ => [.publish (.set .runInProgress 0)]
  | _, _ => []

/-- What a call brings about as long as no run starts: it asks for a listing or for a notice, or it
counts a broadcast that does not start. -/
def Run.Effect.isOfCall : Run.Effect → Bool
  | .ask .listChats | .ask .listUsers | .ask (.reply _) => true
  | .publish (.count (.runsRejected _)) => true
  | .ask (.deliver _ _ _) | .ask (.remove _ _) | .ask (.edit _ _) => false
  | .publish _ | .spawn _ => false

/-- What a call does to the runs, and what it brings about. -/
inductive Dispatcher.Called (now : Moment) (d d' : Dispatcher) (effects : List Run.Effect) : Prop
  /-- The runs stay as they are, or one of them is cancelled. -/
  | aside :
      (d'.runs = d.runs ∨ ∃ r, d'.runs = (d.cancelRun r).runs) →
      (∀ effect ∈ effects, effect.isOfCall = true) → Called now d d' effects
  /-- A run starts. -/
  | start {request : Request} {targets : Targets} :
      d'.runs = (d.withRun now request targets).runs →
      effects = (Run.start (d.plan request targets) now).2 → Called now d d' effects

/-- Where the effects of an event come from. -/
inductive Source (e : Event Dispatcher Dispatcher.Move) : Prop
  /-- From a call; a run that is cancelled by it does nothing by itself. -/
  | call {c : Nat} {move : Caller.Move} :
      e.move = .caller c move → Dispatcher.Called e.moment e.before e.after e.effects →
      (∀ r own, eventOf? r e = some own → own.effects = []) → Source e
  /-- From one run that moves, and no other one does. -/
  | run {r : Nat} {own : Event Run Run.Move} :
      e.move.isOf r = true → eventOf? r e = some own → (∀ k, k ≠ r → eventOf? k e = none) →
      e.after.runs = e.before.runs.set r own.after →
      e.effects = own.effects ++ e.before.clearing r own.after.stage → Source e
  /-- There are none. -/
  | none :
      e.effects = [] → e.after.runs = e.before.runs → (∀ r, eventOf? r e = none) →
      (∀ r, e.move.isOf r = false) → Source e

section

variable {r : Nat} {e : Event Dispatcher Dispatcher.Move} {own : Event Run Run.Move}

theorem eventsOf_of_some (picked : eventOf? r e = some own) : eventsOf r [e] = [own] := by
  rw [eventsOf, List.filterMap_cons_some picked, List.filterMap_nil]

theorem eventsOf_of_none (passed : eventOf? r e = none) : eventsOf r [e] = [] := by
  rw [eventsOf, List.filterMap_cons_none passed, List.filterMap_nil]

end

namespace Dispatcher

variable {now : Moment} {d d' : Dispatcher} {move : Move} {effects : List Run.Effect}

theorem map_cancelRun {α : Type} {f : Run → α}
    (keeps : ∀ run : Run, f { run with tally := run.tally.cancel } = f run) (d : Dispatcher)
    (r : Nat) : (d.cancelRun r).runs.map f = d.runs.map f := by
  refine List.ext_getElem? fun k => ?_
  simp only [cancelRun, List.getElem?_map, List.getElem?_modify]
  cases d.runs[k]? with
  | none => rfl
  | some run =>
      by_cases mine : r = k
      · simp [mine, keeps]
      · simp [mine]

private theorem Call.called {c : Nat} {m : Caller.Move} (call : Call now d c m d' effects) :
    Called now d d' effects := by
  cases call with
  | @busy errand | @unpaced errand | @noTargets errand =>
      refine .aside (.inl (by rw [refuse_eq]; rfl)) ?_
      cases errand <;> simp [refuse, reply, Run.Effect.isOfCall]
  | start => exact .start (by rw [startRun_eq]; rfl) rfl
  | chatsLost | usersLost =>
      refine .aside (.inl ?_) (by simp)
      rw [breakDown_eq]
      split <;> rfl
  | cancel => exact .aside (.inr ⟨_, rfl⟩) (by simp [Run.Effect.isOfCall])
  | misuse | overlong | claim | spare | park | resolve | chats | resolved | replyLost | replied =>
      exact .aside (.inl rfl) (by simp [Run.Effect.isOfCall])

private theorem effects_of_call {c r : Nat} {m : Caller.Move} {own : Event Run Run.Move}
    (picked : eventOf? r ⟨now, d, .caller c m, d', effects⟩ = some own) : own.effects = [] := by
  obtain ⟨-, -, moves, made⟩ := of_eventOf picked
  rcases source_of_runMove moves with ran | ⟨_, _, _, removed, -⟩ | ⟨cancels, -⟩
  · cases ran
  · cases removed
  · rw [cancels] at made
    exact (Prod.mk.inj (Option.some.inj made)).2.symm

theorem clearing_eq (d : Dispatcher) (r : Nat) (stage : Run.Stage) :
    d.clearing r stage = [] ∨ d.clearing r stage = [.publish (.set .runInProgress 0)] := by
  unfold clearing
  split
  · exact .inr rfl
  · exact .inl rfl

theorem filterMap_clearing {α : Type} {f : Run.Effect → Option α} {own : List Run.Effect}
    {r : Nat} {stage : Run.Stage} (unset : f (.publish (.set .runInProgress 0)) = none)
    (brings : effects = own ++ d.clearing r stage) : effects.filterMap f = own.filterMap f := by
  rcases d.clearing_eq r stage with none | clears
  · rw [brings, none, List.append_nil]
  · rw [brings, clears, List.filterMap_append, List.filterMap_cons_none unset,
      List.filterMap_nil, List.append_nil]

private theorem Advance.brings {k : Nat} {m : Run.Move} (advance : Advance now d k m d' effects) :
    ∃ run after asked, d.runs[k]? = some run ∧ run.step now m = some (after, asked) ∧
      d'.runs = d.runs.set k after ∧ effects = asked ++ d.clearing k after.stage := by
  cases advance with
  | @on run run' _ present moved goesOn =>
      have none : d.clearing k run'.stage = [] := by
        unfold clearing
        split
        next report _ finished caller =>
          rcases goesOn with ⟨notFinished, -⟩ | alone
          · exact absurd finished (notFinished report)
          · cases alone.symm.trans caller
        next => rfl
      exact ⟨run, run', effects, present, moved, rfl, by rw [none, List.append_nil]⟩
  | @fail run run' _ c errand present moved broken =>
      have none : d.clearing k run'.stage = [] := by
        rw [broken]
        rfl
      exact ⟨run, run', effects, present, moved, rfl, by rw [none, List.append_nil]⟩
  | @finish run run' asked report c errand present moved finished caller =>
      have clears : d.clearing k run'.stage = [.publish (.set .runInProgress 0)] := by
        unfold clearing
        rw [finished, caller]
      exact ⟨run, run', asked, present, moved, rfl, by rw [clears]⟩

private theorem source_of_advance {k : Nat} {m : Run.Move} {mid : Dispatcher}
    (advance : Advance now d k m mid effects) (runs : d'.runs = mid.runs)
    (mine : move.isOf k = true) (own : ∀ r, d.runMove? r move = if k = r then some m else none) :
    Source ⟨now, d, move, d', effects⟩ := by
  obtain ⟨run, after, asked, present, moved, changed, same⟩ := advance.brings
  have picked : eventOf? k ⟨now, d, move, d', effects⟩ = some ⟨now, run, m, after, asked⟩ := by
    simp [eventOf?, present, own, moved]
  exact .run mine picked (fun r other => by simp [eventOf?, own, other.symm])
    (runs.trans changed) same

/-- The effects of an event come from a call or from a run. -/
theorem source_of_step {e : Event Dispatcher Move}
    (made : e.before.step e.moment e.move = some (e.after, e.effects)) : Source e := by
  obtain ⟨now, d, move, d', effects⟩ := e
  dsimp only at made
  cases change_of_step made with
  | arrive | addUser | addChat =>
      exact .none rfl rfl (fun r => by simp [eventOf?, runMove?]) fun _ => rfl
  | call call => exact .call rfl call.called fun _ _ => effects_of_call
  | run _ advance => exact source_of_advance advance rfl (by simp [Move.isOf]) fun _ => rfl
  | removed there asked advance =>
      exact source_of_advance advance rfl (by simp [Move.isOf])
        fun _ => by simp [runMove?, there, asked]

end Dispatcher

end Broadcast
