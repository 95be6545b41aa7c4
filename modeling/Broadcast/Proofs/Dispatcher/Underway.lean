import Broadcast.Proofs.Dispatcher.Callers
import Broadcast.Proofs.Run.Ending
import Broadcast.Proofs.Run.Posts

/-!
# Broadcasts under way

A caller who has the slot gets its report, unless there are no targets or somebody breaks down over
its listings or notices: it never comes to anything else, and it can always go on.
-/

namespace Broadcast

/-- Somebody breaks down over a listing, or over what a run posts of itself. -/
def Dispatcher.Move.breaks : Dispatcher.Move → Bool
  | .caller _ (.chatsListed .broke) | .caller _ (.usersListed .broke) => true
  | .run _ move => move.breaks
  | _ => false

/-- When the listings of a caller are complete, there are targets. -/
def Event.Finds (e : Event Dispatcher Dispatcher.Move) (c : Nat) : Prop :=
  ∀ errand request chats reach, e.move = .caller c (.usersListed (.gave reach)) →
    e.before.callers[c]? = some ⟨errand, .listingUsers request chats⟩ →
    (Targets.collect e.before.settings.channelThreshold request chats
      (Dispatcher.listed e.before.directory.users reach)).list ≠ []

theorem Event.Starts.finds {e : Event Dispatcher Dispatcher.Move} {c r : Nat} {request : Request}
    {targets : Targets} (starts : e.Starts c r request targets) : e.Finds c := by
  intro errand request chats reach move listing
  obtain ⟨_, _, _, move', -, listing', rfl⟩ := starts.listed
  cases move'.symm.trans move
  cases listing'.symm.trans listing
  exact starts.nonempty

namespace Dispatcher

/-- A caller is on the way to its report, or has got it. -/
inductive Underway (d : Dispatcher) (c : Nat) (errand : Errand) : Prop
  | listingChats {request : Request} :
      d.callers[c]? = some ⟨errand, .listingChats request⟩ → Underway d c errand
  | listingUsers {request : Request} {chats : Except Directory.Fault (List Recipient)} :
      d.callers[c]? = some ⟨errand, .listingUsers request chats⟩ → Underway d c errand
  | running {r : Nat} {run : Run} :
      d.callers[c]? = some ⟨errand, .running r⟩ → d.runs[r]? = some run →
      run.stage ≠ .broken → Underway d c errand
  | reported {r : Nat} {run : Run} {report : Report} :
      d.callers[c]? = some ⟨errand, .done (errand.outcome report)⟩ → d.runs[r]? = some run →
      run.stage = .finished report → Underway d c errand

/-- The directory, as it is, leaves targets for a caller who lists recipients. -/
structure Offers (d : Dispatcher) (c : Nat) : Prop where
  /-- There are targets among those that it would list now. -/
  chats : ∀ errand request, d.callers[c]? = some ⟨errand, .listingChats request⟩ →
    (Targets.collect d.settings.channelThreshold request (.ok d.directory.chats)
      (.ok d.directory.users)).list ≠ []
  /-- There are targets among the chats that it has listed and the users that it would list now. -/
  users : ∀ errand request chats, d.callers[c]? = some ⟨errand, .listingUsers request chats⟩ →
    (Targets.collect d.settings.channelThreshold request chats (.ok d.directory.users)).list ≠ []

section Moves

variable {now : Moment} {d d' : Dispatcher} {move : Move} {effects : List Run.Effect} {c r : Nat}
  {errand : Errand}

private theorem unbroken_of_move (made : d.step now move = some (d', effects))
    (calm : move.breaks = false) {run : Run} (present : d.runs[r]? = some run)
    (fits : run.plan.removalPermits ≤ Plan.maxRemovalPermits) (whole : run.stage ≠ .broken) :
    ∃ run', d'.runs[r]? = some run' ∧ run'.stage ≠ .broken := by
  have moves := moves_of_step made present
  generalize own : d.runMove? r move = own? at moves
  cases moves with
  | stay there => exact ⟨run, there, whole⟩
  | @move m after _ moved there =>
      refine ⟨after, there, Run.unbroken_of_step moved fits ?_ whole⟩
      rcases source_of_runMove own with rfl | ⟨k, answer, given, -, rfl⟩ | ⟨rfl, -⟩
      · exact calm
      · rfl
      · rfl

private theorem Call.underway {m : Caller.Move} (call : Call now d c m d' effects)
    (calm : Move.breaks (.caller c m) = false)
    (finds : Event.Finds ⟨now, d, .caller c m, d', effects⟩ c)
    (broadcast : errand.isResolve = false) {stage : Caller.Stage}
    (present : d.callers[c]? = some ⟨errand, stage⟩)
    (lists : stage.rank = 1 ∨ stage.rank = 2) : d'.Underway c errand := by
  cases call with
  | misuse there | busy there | unpaced there | overlong there | claim there | spare there
  | park there | cancel there | resolve there | replyLost there | replied there =>
      cases there.symm.trans present
      simp [Caller.Stage.rank] at lists
  | chatsLost | usersLost => cases calm
  | chats there =>
      cases there.symm.trans present
      exact .listingUsers (by rw [setStage_callers _ _ _ there, if_pos rfl])
  | resolved there resolves =>
      cases there.symm.trans present
      cases broadcast.symm.trans resolves
  | noTargets there _ none => exact absurd none (finds _ _ _ _ rfl there)
  | @start errand _ _ _ targets there =>
      cases there.symm.trans present
      rw [startRun_eq]
      refine .running ?_ (by rw [setStage_runs, withRun_runs, if_pos rfl]) (by simp)
      rw [setStage_callers (d.withRun now _ targets) c _ there, if_pos rfl]

private theorem underway_of_lists (made : d.step now move = some (d', effects))
    (calm : move.breaks = false) (finds : Event.Finds ⟨now, d, move, d', effects⟩ c)
    (broadcast : errand.isResolve = false) {stage : Caller.Stage}
    (present : d.callers[c]? = some ⟨errand, stage⟩) (lists : stage.rank = 1 ∨ stage.rank = 2) :
    d'.Underway c errand := by
  obtain ⟨stage', there, rfl | later⟩ := rises_of_step made present
  · cases stage' with
    | listingChats => exact .listingChats there
    | listingUsers => exact .listingUsers there
    | opening | running | replying | done | broken => simp [Caller.Stage.rank] at lists
  · rcases (touch_of_step made).before there with same | rfl | ⟨old, before, onward⟩
    · cases same.symm.trans present
      exact absurd later (Nat.lt_irrefl _)
    · exact absurd later (Nat.not_lt_zero _)
    · cases before.symm.trans present
      obtain ⟨m, rfl⟩ := onward.own (by omega)
      cases change_of_step made with
      | call call => exact call.underway calm finds broadcast present lists

theorem underway_of_step (made : d.step now move = some (d', effects))
    (calm : move.breaks = false) (finds : Event.Finds ⟨now, d, move, d', effects⟩ c)
    (broadcast : errand.isResolve = false)
    (fits : ∀ (r : Nat) (run : Run), d.runs[r]? = some run →
      run.plan.removalPermits ≤ Plan.maxRemovalPermits)
    (way : d.Underway c errand) : d'.Underway c errand := by
  cases way with
  | listingChats present => exact underway_of_lists made calm finds broadcast present (.inl rfl)
  | listingUsers present => exact underway_of_lists made calm finds broadcast present (.inr rfl)
  | @running r run running present whole =>
      obtain ⟨run', there, whole⟩ := unbroken_of_move made calm present (fits r run present) whole
      cases attends_of_step made (.running running) with
      | running running => exact .running running there whole
      | report told present finished => exact .reported told present finished
      | broken _ present broken =>
          cases present.symm.trans there
          exact absurd broken whole
  | reported told present finished =>
      obtain ⟨run', there, same⟩ := over_of_step made present (by rw [finished]; rfl)
      exact .reported (last_of_step made told rfl) there (same.trans finished)

/-- A caller who finds the slot free, and has a pause that paces, is on the way to a report. -/
theorem underway_of_begin (made : d.step now (.caller c .begin) = some (d', effects))
    (present : d.callers[c]? = some ⟨errand, .opening⟩) {request : Request}
    (wanted : errand.wanted = .ok (some request)) (free : d.flight = .idle) {pacer : Pacer}
    (paced : Pacer.ofInterval (d.pause request) = .ok pacer) : d'.Underway c errand := by
  cases change_of_step made with
  | call call =>
      cases call with
      | @claim _ request _ there =>
          cases there.symm.trans present
          have claimed := setStage_callers { d with flight := .claimed false } c
            (.listingChats request) there c
          rw [if_pos rfl] at claimed
          exact .listingChats claimed
      | misuse there usage =>
          cases there.symm.trans present
          cases usage.symm.trans wanted
      | busy _ _ busy => simp [free, Flight.isBusy] at busy
      | unpaced there other _ fault | overlong there other _ fault =>
          cases there.symm.trans present
          cases other.symm.trans wanted
          cases fault.symm.trans paced
      | spare there | park there | cancel there | resolve there =>
          cases there.symm.trans present
          cases wanted

private theorem step_of_listingChats (now : Moment) {request : Request}
    (present : d.callers[c]? = some ⟨errand, .listingChats request⟩) :
    d.step now (.caller c (.chatsListed (.gave .performed))) =
      some (d.setStage c (.listingUsers request (.ok d.directory.chats)), [.ask .listUsers]) := by
  simp [step, stepCaller, present, listed]

private theorem step_of_listingUsers (now : Moment) {request : Request}
    {chats : Except Directory.Fault (List Recipient)} {targets : Targets}
    (present : d.callers[c]? = some ⟨errand, .listingUsers request chats⟩)
    (broadcast : errand.isResolve = false)
    (collected : targets = Targets.collect d.settings.channelThreshold request chats
      (.ok d.directory.users))
    (nonempty : targets.list ≠ []) :
    ∃ effects, d.step now (.caller c (.usersListed (.gave .performed))) =
      some ((d.withRun now request targets).setStage c (.running d.runs.length), effects) := by
  have known : d.targetsKnown now c errand request targets = d.startRun now c request targets := by
    cases errand with
    | resolve => cases broadcast
    | broadcast | cancel | run => exact if_neg nonempty
  refine ⟨(d.startRun now c request targets).2, ?_⟩
  rw [← startRun_eq, ← known, collected]
  simp [step, stepCaller, present, listed]

end Moves

end Dispatcher

section Courses

variable {settings : Settings} {directory : Directory} {clocks : Clocks} {d d' : Dispatcher}
  {events more : List (Event Dispatcher Dispatcher.Move)} {c r : Nat} {errand : Errand} {run : Run}

/-- A caller stays on the way to its report, as long as nobody breaks down and there are targets. -/
theorem underway_of_course
    (past : Course Dispatcher.step (.start settings directory clocks) events d)
    (future : Course Dispatcher.step d more d')
    (fits : settings.removalConcurrency.toNat ≤ Plan.maxRemovalPermits)
    (calm : ∀ e ∈ more, e.move.breaks = false) (finds : ∀ e ∈ more, e.Finds c)
    (broadcast : errand.isResolve = false) (way : d.Underway c errand) : d'.Underway c errand := by
  induction future with
  | start => exact way
  | @next more now s t move effects before made ih =>
      have here := List.mem_append_right more
        (List.mem_singleton_self (⟨now, s, move, t, effects⟩ : Event Dispatcher Dispatcher.Move))
      exact Dispatcher.underway_of_step made (calm _ here) (finds _ here) broadcast
        (fun r run => permits_of_course (past.append before) fits)
        (ih (fun e member => calm e (List.mem_append_left _ member))
          fun e member => finds e (List.mem_append_left _ member))

/-- A run that has not broken down can go on by itself until it has reported. -/
theorem finishes_of_run
    (course : Course Dispatcher.step (.start settings directory clocks) events d)
    (fits : settings.removalConcurrency.toNat ≤ Plan.maxRemovalPermits)
    (present : d.runs[r]? = some run) (whole : run.stage ≠ .broken) (now : Moment) :
    ∃ more d' run' report, Course Dispatcher.step d more d' ∧ InOrder more ∧
      (∀ e ∈ more, now ≤ e.moment ∧ ∃ move, e.move = .run r move) ∧
      d'.runs[r]? = some run' ∧ run'.stage = .finished report := by
  obtain ⟨plan, began, cancelled, -, own⟩ := own_of_run course present
  obtain ⟨alone, last, report, later, inner, inOrder, finished⟩ :=
    Run.ends_of_unbroken now (Run.staffed_of_course own) (Run.displayed_of_course own)
      (permits_of_course course fits present) whole
  obtain ⟨more, d', future, there, -, moments, moves⟩ :=
    lift_of_course later (fun e member => (inner e member).2) present
  refine ⟨more, d', last, report, future, ?_, ?_, there, finished⟩
  · have inOrder' := List.pairwise_map.mpr inOrder
    rw [← moments] at inOrder'
    exact List.pairwise_map.mp inOrder'
  · intro e member
    refine ⟨?_, moves e member⟩
    have here : e.moment ∈ alone.map Event.moment := moments ▸ List.mem_map_of_mem member
    obtain ⟨e', member', same⟩ := List.mem_map.mp here
    exact same ▸ (inner e' member').1

theorem bounded_of_run (course : Course Dispatcher.step (.start settings directory clocks) events d)
    (present : d.runs[r]? = some run) (future : Course Dispatcher.step d more d') :
    (eventsOf r more).countP (·.move.isWork) ≤ run.effort := by
  obtain ⟨plan, began, cancelled, -, own⟩ := own_of_run course present
  obtain ⟨last, -, later⟩ := course_of_run future present
  exact Nat.le_trans (Nat.le_add_right _ _)
    (Run.effort_of_course later (Run.staffed_of_course own))

/-- The events lead to the report of a caller, and nobody but the caller and its run moves. -/
structure Completes (now : Moment) (d : Dispatcher) (c : Nat) (errand : Errand)
    (more : List (Event Dispatcher Dispatcher.Move)) (d' : Dispatcher) : Prop where
  /-- The events are possible. -/
  course : Course Dispatcher.step d more d'
  /-- The clock does not go back. -/
  inOrder : InOrder more
  /-- The clock has not gone back before. -/
  later : ∀ e ∈ more, now ≤ e.moment
  /-- The caller has the report of its run. -/
  report : ∃ (r : Nat) (run : Run) (report : Report),
    (∀ e ∈ more, (∃ m, e.move = .caller c m) ∨ ∃ m, e.move = .run r m) ∧
    d'.runs[r]? = some run ∧ run.stage = .finished report ∧
    d'.callers[c]? = some ⟨errand, .done (errand.outcome report)⟩

private theorem Completes.cons {now : Moment} {m : Caller.Move} {effects : List Run.Effect}
    {mid : Dispatcher} (made : d.step now (.caller c m) = some (mid, effects))
    (rest : Completes now mid c errand more d') :
    Completes now d c errand (⟨now, d, .caller c m, mid, effects⟩ :: more) d' := by
  obtain ⟨r, run, report, moves, told⟩ := rest.report
  refine ⟨(Course.single made).append rest.course,
    List.pairwise_cons.mpr ⟨rest.later, rest.inOrder⟩, ?_, r, run, report, ?_, told⟩
  · exact List.forall_mem_cons.mpr ⟨Nat.le_refl _, rest.later⟩
  · exact List.forall_mem_cons.mpr ⟨.inl ⟨m, rfl⟩, moves⟩

private theorem completes_of_running
    (course : Course Dispatcher.step (.start settings directory clocks) events d)
    (fits : settings.removalConcurrency.toNat ≤ Plan.maxRemovalPermits)
    (running : d.callers[c]? = some ⟨errand, .running r⟩) (present : d.runs[r]? = some run)
    (whole : run.stage ≠ .broken) (now : Moment) :
    ∃ more d', Completes now d c errand more d' := by
  obtain ⟨more, d', last, report, future, inOrder, moves, there, finished⟩ :=
    finishes_of_run course fits present whole now
  refine ⟨more, d', future, inOrder, fun e member => (moves e member).1, r, last, report,
    fun e member => .inr (moves e member).2, there, finished, ?_⟩
  have attends : d'.Attends c r errand :=
    future.invariant (.running running) fun made => Dispatcher.attends_of_step made
  cases attends with
  | report told there' finished' =>
      cases there'.symm.trans there
      cases finished'.symm.trans finished
      exact told
  | broken _ there' broken =>
      cases there'.symm.trans there
      cases broken.symm.trans finished
  | running running =>
      have guarded := Dispatcher.guarded_of_course (course.append future)
      have goesOn := (guarded.ends r last there).mpr (guarded.attached running)
      simp [finished, Run.Stage.isOver] at goesOn

private theorem completes_of_listingUsers
    (course : Course Dispatcher.step (.start settings directory clocks) events d)
    (fits : settings.removalConcurrency.toNat ≤ Plan.maxRemovalPermits)
    (broadcast : errand.isResolve = false) {request : Request}
    {chats : Except Directory.Fault (List Recipient)}
    (listing : d.callers[c]? = some ⟨errand, .listingUsers request chats⟩)
    (nonempty : (Targets.collect d.settings.channelThreshold request chats
      (.ok d.directory.users)).list ≠ []) (now : Moment) :
    ∃ more d', Completes now d c errand more d' := by
  obtain ⟨effects, made⟩ :=
    Dispatcher.step_of_listingUsers now listing broadcast rfl nonempty
  obtain ⟨more, d', completes⟩ := completes_of_running (course.next made) fits
    (by rw [Dispatcher.setStage_callers (d.withRun now request _) c _ listing, if_pos rfl])
    (by rw [Dispatcher.setStage_runs, Dispatcher.withRun_runs, if_pos rfl]) (by simp) now
  exact ⟨_, d', completes.cons made⟩

/-- Whoever is on the way to a report can get it, if there are targets. -/
theorem completes_of_underway
    (course : Course Dispatcher.step (.start settings directory clocks) events d)
    (fits : settings.removalConcurrency.toNat ≤ Plan.maxRemovalPermits)
    (broadcast : errand.isResolve = false) (way : d.Underway c errand) (offers : d.Offers c)
    (now : Moment) : ∃ more d', Completes now d c errand more d' := by
  cases way with
  | @listingChats request listing =>
      have made := Dispatcher.step_of_listingChats now listing
      obtain ⟨more, d', completes⟩ := completes_of_listingUsers (course.next made) fits broadcast
        (by rw [Dispatcher.setStage_callers d c _ listing, if_pos rfl])
        (offers.chats errand request listing) now
      exact ⟨_, d', completes.cons made⟩
  | @listingUsers request chats listing =>
      exact completes_of_listingUsers course fits broadcast listing
        (offers.users errand request chats listing) now
  | running running present whole =>
      exact completes_of_running course fits running present whole now
  | @reported r run report told present finished =>
      exact ⟨[], d, .start, .nil, by simp, r, run, report, by simp, present, finished, told⟩

end Courses

end Broadcast
