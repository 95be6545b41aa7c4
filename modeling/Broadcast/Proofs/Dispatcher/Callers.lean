import Broadcast.Proofs.Dispatcher.Slot

/-!
# How far a caller has come

A caller only goes on, one stage after the other. It runs at most one run, which is the one that it
started, and the report that it gets is the report of this run.
-/

namespace Broadcast

/-- How far a caller has come, as a number. -/
def Caller.Stage.rank : Caller.Stage → Nat
  | opening => 0
  | listingChats _ => 1
  | listingUsers _ _ => 2
  | running _ => 3
  | replying => 4
  | done _ | broken => 5

namespace Dispatcher

/-- What brings a caller from one stage to another. -/
structure Onward (now : Moment) (d : Dispatcher) (move : Move) (d' : Dispatcher)
    (effects : List Run.Effect) (c : Nat) (errand : Errand) (old stage : Caller.Stage) : Prop where
  /-- No caller goes back. -/
  later : old.rank < stage.rank
  /-- It moves by itself as long as it has no run. -/
  own : old.rank < 3 → ∃ m, move = .caller c m
  /-- The directory tells it of the chats. -/
  listed : ∀ request chats, stage = .listingUsers request chats →
    old = .listingChats request ∧ ∃ reach, chats = listed d.directory.chats reach
  /-- Its run starts just now. -/
  starts : ∀ r, stage = .running r → ∃ request targets,
    Event.Starts ⟨now, d, move, d', effects⟩ c r request targets
  /-- Its run has just reported. -/
  report : ∀ report, stage = .done (.report report) → ∃ r run, old = .running r ∧
    d'.runs[r]? = some run ∧ run.stage = .finished report
  /-- It learns how its run has ended. -/
  ended : ∀ r, old = .running r → ∃ run, d'.runs[r]? = some run ∧
    ((∃ report, run.stage = .finished report ∧ stage = .done (errand.outcome report)) ∨
      run.stage = .broken ∧ stage = .broken)

/-- What a move does to the stages of the callers. -/
inductive Touch (now : Moment) (d : Dispatcher) (move : Move) (d' : Dispatcher)
    (effects : List Run.Effect) : Prop
  /-- Everybody is where they were. -/
  | nobody : d'.callers = d.callers → Touch now d move d' effects
  /-- Somebody is new. -/
  | arrive {errand : Errand} :
      d'.callers = d.callers ++ [⟨errand, .opening⟩] → Touch now d move d' effects
  /-- One caller goes on. -/
  | one {c : Nat} {errand : Errand} {old stage : Caller.Stage} :
      d.callers[c]? = some ⟨errand, old⟩ → d'.callers = (d.setStage c stage).callers →
      Onward now d move d' effects c errand old stage → Touch now d move d' effects

private theorem Call.touch {now : Moment} {d d' : Dispatcher} {c : Nat} {move : Caller.Move}
    {effects : List Run.Effect} (call : Call now d c move d' effects) :
    Touch now d (.caller c move) d' effects := by
  cases call with
  | misuse present | overlong present | claim present | spare present | park present
  | cancel present | resolve present | resolved present | replyLost present | replied present =>
      exact .one present rfl ⟨by simp [Caller.Stage.rank], fun _ => ⟨_, rfl⟩, by simp, by simp,
        by simp, by simp⟩
  | @chats errand request reach present =>
      refine .one present rfl ⟨by simp [Caller.Stage.rank], fun _ => ⟨_, rfl⟩, ?_, by simp, by simp,
        by simp⟩
      intro _ _ same
      cases same
      exact ⟨rfl, reach, rfl⟩
  | @busy errand request present | @unpaced errand request present
  | @noTargets errand request reach chats present =>
      rw [refuse_eq]
      cases errand <;>
        exact .one present rfl ⟨by simp [refusal, Caller.Stage.rank], fun _ => ⟨_, rfl⟩,
          by simp [refusal], by simp [refusal], by simp [refusal], by simp⟩
  | chatsLost present | usersLost present =>
      rw [breakDown_eq]
      split <;>
        exact .one present rfl ⟨by simp [Caller.Stage.rank], fun _ => ⟨_, rfl⟩, by simp, by simp,
          by simp, by simp⟩
  | @start errand request reach chats targets present broadcast collected nonempty =>
      have starts : Event.Starts
          ⟨now, d, .caller c (.usersListed (.gave reach)), (d.startRun now c request targets).1,
            (d.startRun now c request targets).2⟩ c d.runs.length request targets :=
        ⟨⟨errand, chats, reach, rfl, broadcast, present, collected⟩, nonempty, rfl, rfl⟩
      have later : Caller.Stage.rank (.listingUsers request chats) <
          Caller.Stage.rank (.running d.runs.length) := by simp [Caller.Stage.rank]
      refine .one present ?_ ⟨later, fun _ => ⟨_, rfl⟩, by simp, ?_, by simp, by simp⟩
      · rw [startRun_eq]
        rfl
      · intro r same
        obtain rfl : d.runs.length = r := by simpa using same
        exact ⟨request, targets, starts⟩

/-- A move is the business of at most one caller. -/
theorem touch_of_step {now : Moment} {d d' : Dispatcher} {move : Move}
    {effects : List Run.Effect} (made : d.step now move = some (d', effects)) :
    Touch now d move d' effects := by
  have advances {mid : Dispatcher} {r : Nat} {m : Run.Move}
      (advance : Advance now d r m mid effects) (callers : d'.callers = mid.callers)
      (runs : d'.runs = mid.runs) : Touch now d move d' effects := by
    cases advance with
    | on => exact .nobody callers
    | @fail run run' effects c errand present _ broken _ running =>
        have inside := (List.getElem?_eq_some_iff.mp present).1
        have there : d'.runs[r]? = some run' := by
          rw [runs]
          exact List.getElem?_set_self inside
        refine .one running callers ⟨by simp [Caller.Stage.rank], by simp [Caller.Stage.rank],
          by simp, by simp, by simp, ?_⟩
        intro _ same
        cases same
        exact ⟨run', there, .inr ⟨broken, rfl⟩⟩
    | @finish run run' effects report c errand present _ finished _ running =>
        have inside := (List.getElem?_eq_some_iff.mp present).1
        have there : d'.runs[r]? = some run' := by
          rw [runs]
          exact List.getElem?_set_self inside
        refine .one running callers ⟨by simp [Caller.Stage.rank], by simp [Caller.Stage.rank],
          by simp, by simp, ?_, ?_⟩
        · intro told same
          obtain rfl : report = told := by
            cases errand with
            | broadcast => simp [Errand.outcome] at same
            | cancel | run | resolve => simpa [Errand.outcome] using same
          exact ⟨r, run', rfl, there, finished⟩
        · intro _ same
          cases same
          exact ⟨run', there, .inl ⟨report, finished, rfl⟩⟩
  cases change_of_step made with
  | arrive => exact .arrive rfl
  | call call => exact call.touch
  | run _ advance => exact advances advance rfl rfl
  | removed _ _ advance => exact advances advance rfl rfl
  | addUser | addChat => exact .nobody rfl

theorem rises_of_step {now : Moment} {d d' : Dispatcher} {move : Move}
    {effects : List Run.Effect} (made : d.step now move = some (d', effects)) {c : Nat}
    {errand : Errand} {stage : Caller.Stage} (present : d.callers[c]? = some ⟨errand, stage⟩) :
    ∃ stage', d'.callers[c]? = some ⟨errand, stage'⟩ ∧
      (stage' = stage ∨ stage.rank < stage'.rank) := by
  cases touch_of_step made with
  | nobody same => exact ⟨stage, by rw [same, present], .inl rfl⟩
  | arrive new =>
      have inside := (List.getElem?_eq_some_iff.mp present).1
      exact ⟨stage, by rw [new, List.getElem?_append_left inside, present], .inl rfl⟩
  | @one k _ _ later there same onward =>
      rw [same, setStage_callers _ _ _ there]
      by_cases mine : c = k
      · subst mine
        cases there.symm.trans present
        exact ⟨later, by rw [if_pos rfl], .inr onward.later⟩
      · exact ⟨stage, by rw [if_neg mine, present], .inl rfl⟩

theorem Touch.before {now : Moment} {d d' : Dispatcher} {move : Move}
    {effects : List Run.Effect} (touch : Touch now d move d' effects) {c : Nat} {errand : Errand}
    {stage : Caller.Stage} (present : d'.callers[c]? = some ⟨errand, stage⟩) :
    d.callers[c]? = some ⟨errand, stage⟩ ∨ stage = .opening ∨
      ∃ old, d.callers[c]? = some ⟨errand, old⟩ ∧
        Onward now d move d' effects c errand old stage := by
  cases touch with
  | nobody same => exact .inl (by rw [← same, present])
  | arrive new =>
      rw [new, List.getElem?_append] at present
      split at present
      next => exact .inl present
      next =>
        rw [List.getElem?_singleton] at present
        split at present
        · cases present
          exact .inr (.inl rfl)
        · cases present
  | @one k other old later there same onward =>
      rw [same, setStage_callers _ _ _ there] at present
      split at present
      next mine =>
        cases present
        exact .inr (.inr ⟨old, by rw [mine, there], mine ▸ onward⟩)
      next => exact .inl present

theorem last_of_step {now : Moment} {d d' : Dispatcher} {move : Move}
    {effects : List Run.Effect} (made : d.step now move = some (d', effects)) {c : Nat}
    {errand : Errand} {stage : Caller.Stage} (present : d.callers[c]? = some ⟨errand, stage⟩)
    (ended : stage.rank = 5) : d'.callers[c]? = some ⟨errand, stage⟩ := by
  obtain ⟨stage', there, rfl | later⟩ := rises_of_step made present
  · exact there
  · have most : stage'.rank ≤ 5 := by cases stage' <;> simp [Caller.Stage.rank]
    omega

theorem over_of_step {now : Moment} {d d' : Dispatcher} {move : Move}
    {effects : List Run.Effect} (made : d.step now move = some (d', effects)) {r : Nat} {run : Run}
    (present : d.runs[r]? = some run) (isOver : run.stage.isOver = true) :
    ∃ run', d'.runs[r]? = some run' ∧ run'.stage = run.stage := by
  obtain ⟨run', there, course⟩ := course_of_run (.single made) present
  exact ⟨run', there, Run.over_of_course course isOver⟩

theorem Call.present {now : Moment} {d d' : Dispatcher} {c : Nat} {move : Caller.Move}
    {effects : List Run.Effect} (call : Call now d c move d' effects) :
    ∃ caller, d.callers[c]? = some caller := by
  cases call <;> exact ⟨_, by assumption⟩

private theorem Call.asks {now : Moment} {d d' : Dispatcher} {c : Nat} {move : Caller.Move}
    {effects : List Run.Effect} (call : Call now d c move d' effects) {errand : Errand}
    {stage : Caller.Stage} (present : d'.callers[c]? = some ⟨errand, stage⟩)
    (lists : stage.rank ≤ 2) :
    effects = [] ∨ effects = [.ask .listChats] ∨ effects = [.ask .listUsers] := by
  have other {d : Dispatcher} {errand' : Errand} {old new : Caller.Stage}
      (there : d.callers[c]? = some ⟨errand', old⟩) (told : 2 < new.rank)
      (same : d'.callers = (d.setStage c new).callers) : False := by
    rw [same, setStage_callers d c new there, if_pos rfl] at present
    cases present
    exact Nat.not_lt.mpr lists told
  cases call with
  | misuse there | spare there | park there | cancel there =>
      exact (other there (by simp [Caller.Stage.rank]) rfl).elim
  | @busy errand _ there | @unpaced errand _ there | @noTargets errand _ _ _ there =>
      rw [refuse_eq] at other
      cases errand <;> exact (other there (by simp [refusal, Caller.Stage.rank]) rfl).elim
  | start there =>
      rw [startRun_eq] at other
      exact (other there (by simp [Caller.Stage.rank]) rfl).elim
  | claim | resolve => exact .inr (.inl rfl)
  | chats => exact .inr (.inr rfl)
  | overlong | chatsLost | usersLost | resolved | replyLost | replied => exact .inl rfl

/-- The caller of a run is running it, or knows how it has ended. -/
inductive Attends (d : Dispatcher) (c r : Nat) (errand : Errand) : Prop
  | running : d.callers[c]? = some ⟨errand, .running r⟩ → Attends d c r errand
  | report {run : Run} {report : Report} :
      d.callers[c]? = some ⟨errand, .done (errand.outcome report)⟩ → d.runs[r]? = some run →
      run.stage = .finished report → Attends d c r errand
  | broken {run : Run} :
      d.callers[c]? = some ⟨errand, .broken⟩ → d.runs[r]? = some run → run.stage = .broken →
      Attends d c r errand

theorem attends_of_step {now : Moment} {d d' : Dispatcher} {move : Move}
    {effects : List Run.Effect} (made : d.step now move = some (d', effects)) {c r : Nat}
    {errand : Errand} (attends : d.Attends c r errand) : d'.Attends c r errand := by
  cases attends with
  | running running =>
      obtain ⟨stage, there, rfl | later⟩ := rises_of_step made running
      · exact .running there
      · rcases (touch_of_step made).before there with same | rfl | ⟨old, before, onward⟩
        · cases same.symm.trans running
          exact .running there
        · simp [Caller.Stage.rank] at later
        · cases before.symm.trans running
          obtain ⟨run, present, ⟨report, finished, rfl⟩ | ⟨broken, rfl⟩⟩ := onward.ended r rfl
          · exact .report there present finished
          · exact .broken there present broken
  | report told present finished =>
      obtain ⟨run', there, same⟩ := over_of_step made present (by rw [finished]; rfl)
      exact .report (last_of_step made told rfl) there (same.trans finished)
  | broken told present broken =>
      obtain ⟨run', there, same⟩ := over_of_step made present (by rw [broken]; rfl)
      exact .broken (last_of_step made told rfl) there (same.trans broken)

end Dispatcher

section Courses

variable {d d' : Dispatcher} {events : List (Event Dispatcher Dispatcher.Move)} {c r : Nat}
  {errand : Errand}

/-- A caller stays where it is or comes further. -/
theorem rises_of_course (course : Course Dispatcher.step d events d') {stage : Caller.Stage}
    (present : d.callers[c]? = some ⟨errand, stage⟩) :
    ∃ stage', d'.callers[c]? = some ⟨errand, stage'⟩ ∧
      (stage' = stage ∨ stage.rank < stage'.rank) := by
  induction course with
  | start => exact ⟨stage, present, .inl rfl⟩
  | next _ made ih =>
      obtain ⟨middle, there, early⟩ := ih
      obtain ⟨last, here, late⟩ := Dispatcher.rises_of_step made there
      refine ⟨last, here, ?_⟩
      rcases early with rfl | early
      · exact late
      · rcases late with rfl | late
        · exact .inr early
        · exact .inr (Nat.lt_trans early late)

/-- Whoever is still listing recipients has asked for listings only. -/
theorem asked_of_course (course : Course Dispatcher.step d events d') {stage : Caller.Stage}
    (present : d'.callers[c]? = some ⟨errand, stage⟩) (lists : stage.rank ≤ 2) :
    ∀ e ∈ events, ∀ m, e.move = .caller c m →
      e.effects = [] ∨ e.effects = [.ask .listChats] ∨ e.effects = [.ask .listUsers] := by
  intro e member m own
  obtain ⟨past, rest, rfl⟩ := List.append_of_mem member
  obtain ⟨-, made, late⟩ := course.around
  rw [own] at made
  cases Dispatcher.change_of_step made with
  | call call =>
      obtain ⟨⟨errand, old⟩, there⟩ := call.present
      obtain ⟨middle, here, -⟩ := Dispatcher.rises_of_step made there
      obtain ⟨last, there, rises⟩ := rises_of_course late here
      cases there.symm.trans present
      refine call.asks here ?_
      rcases rises with rfl | rises
      · exact lists
      · exact Nat.le_of_lt (Nat.lt_of_lt_of_le rises lists)

private theorem not_starts_another {k : Nat} {e : Event Dispatcher Dispatcher.Move}
    {request : Request} {targets : Targets} (past : Course Dispatcher.step d events e.before)
    (ran : Ran c r events) : ¬e.Starts c k request targets := by
  intro starts
  obtain ⟨first, member, request, targets, starts'⟩ := ran
  obtain ⟨before, between, rfl⟩ := List.append_of_mem member
  obtain ⟨errand, running⟩ := starts'.running
  obtain ⟨stage, there, same⟩ := rises_of_course past.around.2.2 running
  obtain ⟨_, chats, reach, -, -, listing, -⟩ := starts.listed
  cases listing.symm.trans there
  rcases same with same | same
  · cases same
  · simp [Caller.Stage.rank] at same

/-- A caller starts one run at most. -/
theorem runs_unique {k : Nat} (course : Course Dispatcher.step d events d')
    (ran : Ran c r events) (ran' : Ran c k events) : r = k := by
  induction course with
  | start =>
      obtain ⟨e, member, -⟩ := ran
      cases member
  | next past made ih =>
      obtain ⟨e, member, request, targets, starts⟩ := ran
      obtain ⟨e', member', request', targets', starts'⟩ := ran'
      rcases List.mem_append.mp member with there | here
      · have ran : Ran c r _ := ⟨e, there, request, targets, starts⟩
        rcases List.mem_append.mp member' with there' | here'
        · exact ih ran ⟨e', there', request', targets', starts'⟩
        · obtain rfl := List.mem_singleton.mp here'
          exact absurd starts' (not_starts_another past ran)
      · obtain rfl := List.mem_singleton.mp here
        rcases List.mem_append.mp member' with there' | here'
        · exact absurd starts
            (not_starts_another past ⟨e', there', request', targets', starts'⟩)
        · obtain rfl := List.mem_singleton.mp here'
          exact starts.number.symm.trans starts'.number

theorem ran_of_running {settings : Settings} {directory : Directory} {clocks : Clocks}
    (course : Course Dispatcher.step (.start settings directory clocks) events d)
    (running : d.callers[c]? = some ⟨errand, .running r⟩) : Ran c r events := by
  induction course with
  | start => simp [Dispatcher.start] at running
  | @next events now s t move effects _ made ih =>
      rcases (Dispatcher.touch_of_step made).before running with same | new | ⟨old, -, onward⟩
      · exact (ih same).append _
      · cases new
      · obtain ⟨request, targets, starts⟩ := onward.starts r rfl
        exact ⟨_, List.mem_append_right _ (List.mem_singleton_self _), request, targets, starts⟩

/-- Whoever got a report has started the run that made it. -/
theorem ran_of_report {settings : Settings} {directory : Directory} {clocks : Clocks}
    (course : Course Dispatcher.step (.start settings directory clocks) events d) {report : Report}
    (told : d.callers[c]? = some ⟨errand, .done (.report report)⟩) :
    ∃ r run, Ran c r events ∧ d.runs[r]? = some run ∧ run.stage = .finished report := by
  induction course with
  | start => simp [Dispatcher.start] at told
  | @next events now s t move effects past made ih =>
      rcases (Dispatcher.touch_of_step made).before told with same | new | ⟨old, there, onward⟩
      · obtain ⟨r, run, ran, present, finished⟩ := ih same
        obtain ⟨run', there, same⟩ := Dispatcher.over_of_step made present (by rw [finished]; rfl)
        exact ⟨r, run', ran.append _, there, by rw [same, finished]⟩
      · cases new
      · obtain ⟨r, run, rfl, present, finished⟩ := onward.report report rfl
        exact ⟨r, run, (ran_of_running past there).append _, present, finished⟩

end Courses

end Broadcast
