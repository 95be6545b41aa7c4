import Broadcast.Proofs.Dispatcher.Slot
import Broadcast.Proofs.Dispatcher.Sources
import Broadcast.Proofs.Run.Gauges

/-!
# Where the gauges of a dispatcher stand

The gauge of broadcasts in progress tells whether the last run has reported, and not whether it goes
on: it is still set when a run has broken down. The gauge of active workers stands at zero whenever
no crew is at work.
-/

namespace Broadcast

/-- The run has come to its end with a report. -/
def Run.Stage.hasReported : Run.Stage → Bool
  | finished _ => true
  | announcing | delivering | draining _ | stopping | editing _ | replying _ | broken => false

theorem Run.Stage.isOver_of_hasReported {stage : Run.Stage} (reported : stage.hasReported = true) :
    stage.isOver = true := by
  cases stage <;> first | rfl | cases reported

namespace Dispatcher

/-- How far the runs have come. -/
def stages (d : Dispatcher) : List Run.Stage :=
  d.runs.map Run.stage

/-- There is a run, and the last one has not reported. -/
def isUnreported (d : Dispatcher) : Bool :=
  d.stages.getLast?.any fun stage => !stage.hasReported

/-- What an event does to the gauges of the runs and to their stages. -/
inductive Gauging (e : Event Dispatcher Move) : Prop
  /-- Nothing. -/
  | still : e.after.stages = e.before.stages → (∀ gauge, e.levels gauge = []) → Gauging e
  /-- A run starts. -/
  | start : e.after.stages = e.before.stages ++ [.announcing] →
      e.levels .runInProgress = [1] → e.levels .activeWorkers = [] → Gauging e
  /-- A run moves. -/
  | run {r : Nat} {own : Event Run Run.Move} :
      e.before.runs[r]? = some own.before →
      own.before.step own.moment own.move = some (own.after, own.effects) →
      e.after.stages = e.before.stages.set r own.after.stage →
      e.effects = own.effects ++ e.before.clearing r own.after.stage → Gauging e

private theorem Called.gauging {e : Event Dispatcher Move}
    (called : Called e.moment e.before e.after e.effects) : Gauging e := by
  cases called with
  | start more brings =>
      refine .start ?_ (by rw [Event.levels, brings]; rfl) (by rw [Event.levels, brings]; rfl)
      simp [stages, more, withRun]
  | aside same quiet =>
      refine .still ?_ fun gauge => levels_eq_nil fun level published => ?_
      · rcases same with same | ⟨r, same⟩
        · rw [stages, same, stages]
        · rw [stages, same, map_cancelRun fun run => rfl, stages]
      · cases quiet _ published

/-- Every event does to the gauges what `Gauging` lists. -/
theorem gauging_of_step {e : Event Dispatcher Move}
    (made : e.before.step e.moment e.move = some (e.after, e.effects)) : Gauging e := by
  cases source_of_step made with
  | call _ called => exact called.gauging
  | @run r own _ picked _ changed brings =>
      obtain ⟨moment, present, -, moved⟩ := of_eventOf picked
      refine .run present (moment ▸ moved) ?_ brings
      rw [stages, changed, List.map_set, stages]
  | none quiet same =>
      exact .still (by rw [stages, same, stages]) fun gauge => by rw [Event.levels, quiet]; rfl

/-! ## Broadcasts in progress -/

section Steps

variable {d : Dispatcher} {r : Nat} {run : Run}

private theorem clearing_of_over (guarded : d.Guarded) (present : d.runs[r]? = some run)
    (isOver : run.stage.isOver = true) (stage : Run.Stage) : d.clearing r stage = [] := by
  unfold clearing
  split
  next c caller =>
    obtain ⟨errand, running⟩ := running_of_callerOf caller
    have goesOn := (guarded.ends r run present).mpr (guarded.attached running)
    cases isOver.symm.trans goesOn
  next => rfl

private theorem clearing_of_going (guarded : d.Guarded) (present : d.runs[r]? = some run)
    (goesOn : run.stage.isOver = false) (stage : Run.Stage) :
    d.clearing r stage =
      if stage.hasReported then [.publish (.set .runInProgress 0)] else [] := by
  obtain ⟨c, errand, running⟩ := guarded.runner ((guarded.ends r run present).mp goesOn)
  obtain ⟨k, caller⟩ := Option.ne_none_iff_exists'.mp (callerOf_ne_none running)
  unfold clearing
  rw [caller]
  cases stage <;> rfl

private theorem stages_set (present : d.runs[r]? = some run) :
    d.stages.set r run.stage = d.stages := by
  obtain ⟨inside, rfl⟩ := List.getElem?_eq_some_iff.mp present
  rw [stages, ← List.map_set, List.set_getElem_self]

private theorem isUnreported_of_last {d' : Dispatcher} {stage : Run.Stage}
    (changed : d'.stages = d.stages.set r stage) (last : r + 1 = d.runs.length) :
    d'.isUnreported = !stage.hasReported := by
  have ends : d'.stages.getLast? = some stage := by
    have length : d.stages.length = r + 1 := by rw [stages, List.length_map, last]
    rw [changed, List.getLast?_eq_getElem?, List.length_set, length, Nat.add_sub_cancel,
      List.getElem?_set_self (by omega)]
  rw [isUnreported, ends]
  rfl

private theorem Gauging.inProgress {e : Event Dispatcher Move} (gauging : Gauging e)
    (guarded : e.before.Guarded)
    (earlier : ∀ r run, e.before.runs[r]? = some run → r + 1 ≠ e.before.runs.length →
      run.stage.isOver = true) :
    (e.levels .runInProgress).getLast?.getD e.before.isUnreported.toNat =
      e.after.isUnreported.toNat := by
  cases gauging with
  | still same quiet =>
      rw [quiet, isUnreported, isUnreported, same]
      rfl
  | start more sets =>
      have after : e.after.isUnreported = true := by
        rw [isUnreported, more, List.getLast?_concat]
        rfl
      rw [sets, after]
      rfl
  | @run r own present moved changed brings =>
      have levels : e.levels .runInProgress = (e.before.clearing r own.after.stage).filterMap
          (Run.Effect.level? .runInProgress) := by
        rw [Event.levels, brings, List.filterMap_append,
          Run.levels_of_step moved (by decide), List.nil_append]
      -- A run that was over may still be answered by the directory; the gauge is no longer its own.
      cases isOver : own.before.stage.isOver with
      | true =>
          have same : e.after.stages = e.before.stages := by
            rw [changed, Run.over_of_step moved isOver, stages_set present]
          rw [levels, clearing_of_over guarded present isOver, isUnreported, isUnreported, same]
          rfl
      | false =>
          have last : r + 1 = e.before.runs.length := by
            by_contra other
            cases isOver.symm.trans (earlier r own.before present other)
          have going : own.before.stage.hasReported = false := by
            by_contra reported
            cases isOver.symm.trans
              (Run.Stage.isOver_of_hasReported (Bool.eq_true_of_not_eq_false reported))
          have before : e.before.isUnreported = true := by
            rw [isUnreported_of_last (stages_set present).symm last, going]
            rfl
          rw [levels, clearing_of_going guarded present isOver, before,
            isUnreported_of_last changed last]
          cases own.after.stage.hasReported <;> rfl

/-- The crew of no run is at work: none was before and the gauge of the active workers is left
alone, or it has just been set to zero. -/
private theorem Gauging.rests {e : Event Dispatcher Move} (gauging : Gauging e)
    (staffed : ∀ run ∈ e.before.runs, run.Staffed) (rests : .delivering ∉ e.after.stages) :
    .delivering ∉ e.before.stages ∧ e.levels .activeWorkers = [] ∨
      e.levels .activeWorkers = [0] := by
  cases gauging with
  | still same quiet => exact .inl ⟨same ▸ rests, quiet _⟩
  | start more _ silent =>
      rw [more] at rests
      exact .inl ⟨fun member => rests (List.mem_append_left _ member), silent⟩
  | @run r own present moved changed brings =>
      have levels : e.levels .activeWorkers =
          own.effects.filterMap (Run.Effect.level? .activeWorkers) := filterMap_clearing rfl brings
      have inside : r < e.before.stages.length := by
        rw [stages, List.length_map]
        exact (List.getElem?_eq_some_iff.mp present).1
      have here : own.after.stage ≠ .delivering := fun delivering =>
        rests (changed ▸ delivering ▸ List.mem_set inside _)
      rw [levels]
      refine (Run.stands_of_step moved (staffed _ (List.mem_of_getElem? present)) here).imp_left ?_
      rintro ⟨before, silent⟩
      refine ⟨fun member => ?_, silent⟩
      obtain ⟨k, there⟩ := List.mem_iff_getElem?.mp member
      have other : r ≠ k := by
        rintro rfl
        rw [stages, List.getElem?_map, present] at there
        exact before (Option.some.inj there)
      refine rests (changed ▸ List.mem_iff_getElem?.mpr ⟨k, ?_⟩)
      rw [List.getElem?_set_ne other, there]

end Steps

section Courses

variable {settings : Settings} {directory : Directory} {clocks : Clocks} {d : Dispatcher}
  {events : List (Event Dispatcher Move)}

/-- The gauge of broadcasts in progress is set as long as the last run has not reported. -/
theorem inProgress_of_course (course : Course step (.start settings directory clocks) events d) :
    level .runInProgress events = d.isUnreported.toNat := by
  induction course with
  | start => rfl
  | next past made ih =>
      rw [level_concat, ih]
      exact (gauging_of_step made).inProgress (guarded_of_course past)
        fun r run present => over_of_earlier past present

/-- The gauge of active workers stands at zero as long as no crew is at work. -/
theorem activeWorkers_of_course (course : Course step (.start settings directory clocks) events d)
    (rests : .delivering ∉ d.stages) : level .activeWorkers events = 0 := by
  induction course with
  | start => rfl
  | @next events now s t move effects past made ih =>
      have staffed (run) (member : run ∈ s.runs) : run.Staffed := by
        obtain ⟨r, present⟩ := List.mem_iff_getElem?.mp member
        obtain ⟨plan, began, cancelled, -, own⟩ := own_of_run past present
        exact Run.staffed_of_course own
      rw [level_concat]
      rcases (gauging_of_step (e := ⟨now, s, move, t, effects⟩) made).rests staffed rests with
        ⟨before, silent⟩ | zero
      · rw [silent]
        exact ih before
      · rw [zero]
        rfl

end Courses

end Dispatcher

end Broadcast
