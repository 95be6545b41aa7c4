import Broadcast.Proofs.Dispatcher.Runs
import Mathlib.Logic.Function.Basic

/-!
# Who holds the slot

A caller holds the slot while it lists the recipients for its broadcast and while its run is under
way. Whatever the callers and the runs of a dispatcher do, nobody else holds it then, and a run is
under way only if it is attached to the slot.
-/

namespace Broadcast

/-- The caller is finding out the targets of its broadcast. -/
def Caller.lists (caller : Caller) : Bool :=
  match caller.stage with
  | .listingChats _ | .listingUsers _ _ => !caller.errand.isResolve
  | .opening | .running _ | .replying | .done _ | .broken => false

/-- The caller holds the slot. -/
def Caller.holds (caller : Caller) : Bool :=
  match caller.stage with
  | .running _ => true
  | _ => caller.lists

theorem holds_of_lists {caller : Caller} (lists : caller.lists = true) : caller.holds = true := by
  obtain ⟨errand, stage⟩ := caller
  cases stage with
  | running => rfl
  | opening | listingChats | listingUsers | replying | done | broken => exact lists

namespace Dispatcher

/-- A caller, if it holds the slot. -/
def held (d : Dispatcher) (c : Nat) : Option Caller :=
  d.callers[c]?.filter Caller.holds

/-- One caller and nobody else. -/
def only (c : Nat) (caller : Caller) : Nat → Option Caller :=
  Function.update (fun _ => none) c (some caller)

/-- What the flight says about those who hold the slot. -/
inductive Slot : Flight → (Nat → Option Caller) → Prop
  /-- Nobody holds it. -/
  | idle : Slot .idle fun _ => none
  /-- Whoever holds it has no run yet. -/
  | claimed {parked : Bool} {c : Nat} {caller : Caller} :
      caller.lists = true → Slot (.claimed parked) (only c caller)
  /-- Whoever holds it has a run. -/
  | attached {r c : Nat} {errand : Errand} : Slot (.attached r) (only c ⟨errand, .running r⟩)

/-- The slot is held by those who should hold it. -/
structure Guarded (d : Dispatcher) : Prop where
  /-- The flight knows who holds the slot. -/
  slot : Slot d.flight d.held
  /-- A run is under way just if it is attached. -/
  ends : ∀ r run, d.runs[r]? = some run →
    (run.stage.isOver = false ↔ d.flight = .attached r)
  /-- What is attached is a run. -/
  there : ∀ r, d.flight = .attached r → r < d.runs.length

/-! ## Holding -/

@[simp] theorem only_self (c : Nat) (caller : Caller) : only c caller c = some caller :=
  Function.update_self _ _ _

theorem eq_of_only {c k : Nat} {caller other : Caller} (holds : only c caller k = some other) :
    k = c ∧ other = caller := by
  by_cases same : k = c
  · subst same
    exact ⟨rfl, (Option.some.inj ((only_self k caller).symm.trans holds)).symm⟩
  · rw [only, Function.update_of_ne same] at holds
    cases holds

namespace Slot

variable {flight : Flight} {held : Nat → Option Caller} {c : Nat} {caller : Caller}

theorem claim (slot : Slot .idle held) (lists : caller.lists = true) :
    Slot (.claimed false) (Function.update held c (some caller)) := by
  cases slot with
  | idle => exact .claimed lists

theorem free (slot : Slot flight held) (holds : held c = some caller) :
    Slot .idle (Function.update held c none) := by
  have nobody {k : Nat} {other : Caller} (same : only k other c = some caller) :
      Function.update (only k other) c none = fun _ => none := by
    obtain ⟨rfl, rfl⟩ := eq_of_only same
    funext j
    by_cases same : j = c <;> simp [only, same]
  cases slot with
  | idle => cases holds
  | claimed lists =>
      rw [nobody holds]
      exact .idle
  | attached =>
      rw [nobody holds]
      exact .idle

theorem listing (slot : Slot flight held) (holds : held c = some caller)
    (lists : caller.lists = true) : ∃ parked, flight = .claimed parked ∧ held = only c caller := by
  cases slot with
  | idle => cases holds
  | @claimed parked k other =>
      obtain ⟨rfl, rfl⟩ := eq_of_only holds
      exact ⟨parked, rfl, rfl⟩
  | attached =>
      obtain ⟨-, rfl⟩ := eq_of_only holds
      simp [Caller.lists] at lists

theorem running {r : Nat} {errand : Errand} (slot : Slot flight held)
    (holds : held c = some ⟨errand, .running r⟩) : flight = .attached r := by
  cases slot with
  | idle => cases holds
  | claimed lists =>
      obtain ⟨-, rfl⟩ := eq_of_only holds
      simp [Caller.lists] at lists
  | attached =>
      obtain ⟨-, same⟩ := eq_of_only holds
      cases same
      rfl

theorem busy (slot : Slot flight held) :
    flight.isBusy = true ↔ ∃ c caller, held c = some caller := by
  cases slot with
  | idle => simp [Flight.isBusy]
  | claimed | attached => exact iff_of_true rfl ⟨_, _, only_self _ _⟩

theorem alone (slot : Slot flight held) {k : Nat} {other : Caller} (holds : held c = some caller)
    (holds' : held k = some other) : c = k := by
  cases slot with
  | idle => cases holds
  | claimed | attached => rw [(eq_of_only holds).1, (eq_of_only holds').1]

end Slot

theorem held_eq_some {d : Dispatcher} {c : Nat} {caller : Caller} :
    d.held c = some caller ↔ d.callers[c]? = some caller ∧ caller.holds = true :=
  Option.filter_eq_some_iff

theorem update_only (c : Nat) (caller caller' : Caller) :
    Function.update (only c caller) c (some caller') = only c caller' :=
  Function.update_idem _ _ _

theorem held_setStage {d : Dispatcher} {c : Nat} {errand : Errand} {old : Caller.Stage}
    (present : d.callers[c]? = some ⟨errand, old⟩) (stage : Caller.Stage) :
    (d.setStage c stage).held = Function.update d.held c
      (if Caller.holds ⟨errand, stage⟩ then some ⟨errand, stage⟩ else none) := by
  funext k
  rw [held, setStage_callers d c stage present]
  by_cases same : k = c
  · subst same
    rw [if_pos rfl, Function.update_self, Option.filter_some]
  · rw [if_neg same, Function.update_of_ne same, held]

/-! ## Moves -/

/-- The stages of a caller whose broadcast has come to its end. -/
inductive Ending (errand : Errand) : Caller.Stage → Prop
  /-- The run has reported. -/
  | report (report : Report) : Ending errand (.done (errand.outcome report))
  /-- There was nobody to reach. -/
  | noTargets : Ending errand (refusal errand .noTargets)
  /-- There was no pause to pace by. -/
  | invalidPacing (pause : Duration) : Ending errand (refusal errand (.invalidPacing pause))
  /-- Something broke down. -/
  | broken : Ending errand .broken

/-- A caller is at a stage that ends its broadcast. -/
def HasEnded (d : Dispatcher) (c : Nat) (errand : Errand) : Prop :=
  ∃ stage, d.callers[c]? = some ⟨errand, stage⟩ ∧ Ending errand stage

/-- What a move does to the slot, to those who hold it, and to the runs. -/
inductive Shift (now : Moment) (d d' : Dispatcher) : Move → Prop
  /-- Nothing. -/
  | still {move : Move} :
      d'.flight = d.flight → d'.held = d.held → d'.runs = d.runs → Shift now d d' move
  /-- Whoever finds out the targets of a broadcast goes on with that. -/
  | relist {move : Move} {c : Nat} {caller caller' : Caller} :
      d.held c = some caller → caller.lists = true → caller'.lists = true →
      d'.flight = d.flight → d'.held = Function.update d.held c (some caller') →
      d'.runs = d.runs → Shift now d d' move
  /-- The free slot is claimed. -/
  | claim {move : Move} {c : Nat} {caller : Caller} :
      d.flight = .idle → caller.lists = true → d'.flight = .claimed false →
      d'.held = Function.update d.held c (some caller) → d'.runs = d.runs → Shift now d d' move
  /-- A cancel waits for the run to start. -/
  | park {k : Nat} {parked : Bool} :
      d.callers[k]? = some ⟨.cancel, .opening⟩ → d.flight = .claimed parked →
      d'.flight = .claimed true → d'.held = d.held → d'.runs = d.runs →
      Shift now d d' (.caller k .begin)
  /-- The attached run is cancelled. -/
  | cancel {k r : Nat} :
      d.callers[k]? = some ⟨.cancel, .opening⟩ → d.flight = .attached r →
      d'.flight = d.flight → d'.held = d.held → d'.runs = (d.cancelRun r).runs →
      Shift now d d' (.caller k .begin)
  /-- A run starts and is attached. -/
  | attach {move : Move} {c : Nat} {errand : Errand} {caller : Caller} {request : Request}
      {targets : Targets} :
      d.held c = some caller → caller.lists = true → d'.flight = .attached d.runs.length →
      d'.held = Function.update d.held c (some ⟨errand, .running d.runs.length⟩) →
      d'.runs = (d.withRun now request targets).runs → Shift now d d' move
  /-- A broadcast comes to nothing. -/
  | free {move : Move} {c : Nat} {caller : Caller} :
      d.held c = some caller → caller.lists = true → d'.flight = .idle →
      d'.held = Function.update d.held c none → d'.runs = d.runs →
      d'.HasEnded c caller.errand → Shift now d d' move
  /-- A run goes on, or nobody runs it any more. -/
  | run {move : Move} {r : Nat} {run run' : Run} {m : Run.Move} {effects : List Run.Effect} :
      m ≠ .cancel → d.runs[r]? = some run → run.step now m = some (run', effects) →
      (run'.stage.isOver = false ∨ d.callerOf? r = none) →
      d'.flight = d.flight → d'.held = d.held → d'.runs = d.runs.set r run' →
      Shift now d d' move
  /-- A run comes to its end, and the slot is free. -/
  | finish {move : Move} {r c : Nat} {errand : Errand} {run run' : Run} {m : Run.Move}
      {effects : List Run.Effect} :
      m ≠ .cancel → d.held c = some ⟨errand, .running r⟩ → d.runs[r]? = some run →
      run.step now m = some (run', effects) → run'.stage.isOver = true → d'.flight = .idle →
      d'.held = Function.update d.held c none → d'.runs = d.runs.set r run' →
      d'.HasEnded c errand → Shift now d d' move

section Shifts

variable {now : Moment} {d d' : Dispatcher} {move : Move} {c : Nat} {errand : Errand}
  {old stage : Caller.Stage}

private theorem held_still (present : d.callers[c]? = some ⟨errand, old⟩)
    (before : Caller.holds ⟨errand, old⟩ = false)
    (after : Caller.holds ⟨errand, stage⟩ = false) : (d.setStage c stage).held = d.held := by
  have nothing : d.held c = none := by rw [held, present, Option.filter_some, before]; rfl
  rw [held_setStage present, after, ← nothing]
  exact Function.update_eq_self c d.held

private theorem held_free (present : d.callers[c]? = some ⟨errand, old⟩)
    (after : Caller.holds ⟨errand, stage⟩ = false) :
    (d.setStage c stage).held = Function.update d.held c none := by
  rw [held_setStage present, after]
  rfl

private theorem held_take (present : d.callers[c]? = some ⟨errand, old⟩)
    (after : Caller.holds ⟨errand, stage⟩ = true) :
    (d.setStage c stage).held = Function.update d.held c (some ⟨errand, stage⟩) := by
  rw [held_setStage present, after]
  rfl

theorem hasEnded_of_setStage (present : d.callers[c]? = some ⟨errand, old⟩)
    (ending : Ending errand stage) : (d.setStage c stage).HasEnded c errand :=
  ⟨stage, by rw [setStage_callers d c stage present, if_pos rfl], ending⟩

private theorem shift_of_end (present : d.callers[c]? = some ⟨errand, old⟩)
    (listing : Caller.lists ⟨errand, old⟩ = !errand.isResolve)
    (notRunning : Caller.holds ⟨errand, old⟩ = Caller.lists ⟨errand, old⟩) :
    Shift now d (d.breakDown c errand) move := by
  rw [breakDown_eq]
  cases resolves : errand.isResolve with
  | true =>
      rw [resolves] at listing
      exact .still rfl (held_still present (notRunning.trans listing) rfl) rfl
  | false =>
      rw [resolves] at listing
      exact .free (held_eq_some.mpr ⟨present, holds_of_lists listing⟩) listing rfl
        (held_free (d := d) present rfl) rfl
        (hasEnded_of_setStage (d := d) present .broken)

private theorem Call.shift {move : Caller.Move} {effects : List Run.Effect}
    (call : Call now d c move d' effects) : Shift now d d' (.caller c move) := by
  have refused (errand : Errand) (error : DispatchError) :
      Caller.holds ⟨errand, refusal errand error⟩ = false := by
    cases errand <;> rfl
  cases call with
  | misuse present | overlong present | spare present | resolve present | replyLost present
  | replied present => exact .still rfl (held_still present rfl rfl) rfl
  | busy present | unpaced present =>
      rw [refuse_eq]
      exact .still rfl (held_still present rfl (refused _ _)) rfl
  | @claim errand request pacer present wanted free =>
      have broadcast : errand.isResolve = false := by
        cases errand <;> first | rfl | cases wanted
      have lists : Caller.lists ⟨errand, .listingChats request⟩ = true := by
        simp [Caller.lists, broadcast]
      exact .claim free lists rfl
        (held_take (d := { d with flight := .claimed false }) present (holds_of_lists lists)) rfl
  | @park parked present claimed =>
      exact .park present claimed rfl
        (held_still (d := { d with flight := .claimed true }) present rfl rfl) rfl
  | @cancel r present attached =>
      exact .cancel present attached rfl (held_still (d := d.cancelRun r) present rfl rfl) rfl
  | chatsLost present => exact shift_of_end present rfl rfl
  | usersLost present => exact shift_of_end present rfl rfl
  | @chats errand request reach present =>
      cases resolves : errand.isResolve with
      | true =>
          refine .still rfl (held_still present ?_ ?_) rfl <;>
            simp [Caller.holds, Caller.lists, resolves]
      | false =>
          have lists : Caller.lists ⟨errand, .listingChats request⟩ = true := by
            simp [Caller.lists, resolves]
          have lists' : Caller.lists ⟨errand, .listingUsers request
              (listed d.directory.chats reach)⟩ = true := lists
          exact .relist (held_eq_some.mpr ⟨present, holds_of_lists lists⟩) lists lists' rfl
            (held_take present (holds_of_lists lists')) rfl
  | resolved present resolves =>
      exact .still rfl (held_still present (by simp [Caller.holds, Caller.lists, resolves]) rfl) rfl
  | @noTargets errand request reach chats present broadcast =>
      have lists : Caller.lists ⟨errand, .listingUsers request chats⟩ = true := by
        simp [Caller.lists, broadcast]
      rw [refuse_eq]
      exact .free (held_eq_some.mpr ⟨present, holds_of_lists lists⟩) lists rfl
        (held_free (d := d.release) present (refused _ _)) rfl
        (hasEnded_of_setStage (d := d.release) present .noTargets)
  | @start errand request reach chats targets present broadcast =>
      have lists : Caller.lists ⟨errand, .listingUsers request chats⟩ = true := by
        simp [Caller.lists, broadcast]
      rw [startRun_eq]
      exact .attach (held_eq_some.mpr ⟨present, holds_of_lists lists⟩) lists rfl
        (held_take (d := d.withRun now request targets) present rfl) rfl

private theorem Advance.shift {mid : Dispatcher} {r : Nat} {m : Run.Move}
    {effects : List Run.Effect} (advance : Advance now d r m mid effects) (moves : m ≠ .cancel)
    (flight : d'.flight = mid.flight) (callers : d'.callers = mid.callers)
    (runs : d'.runs = mid.runs) : Shift now d d' move := by
  have held : d'.held = mid.held := by
    funext k
    rw [Dispatcher.held, Dispatcher.held, callers]
  have ended {c : Nat} {errand : Errand} (ended : mid.HasEnded c errand) :
      d'.HasEnded c errand := by
    rwa [HasEnded, callers]
  cases advance with
  | @on run run' _ present moved goesOn =>
      refine .run moves present moved ?_ flight held runs
      rcases goesOn with ⟨notFinished, notBroken⟩ | alone
      · left
        cases stage : run'.stage with
        | finished report => exact absurd stage (notFinished report)
        | broken => exact absurd stage notBroken
        | announcing | delivering | draining | stopping | editing | replying => rfl
      · exact .inr alone
  | @finish run run' _ report c errand present moved finished _ running =>
      refine .finish moves (held_eq_some.mpr ⟨running, rfl⟩) present moved (by rw [finished]; rfl)
        flight ?_ runs (ended (hasEnded_of_setStage running (.report report)))
      rw [held]
      exact held_free (d := { d with runs := d.runs.set r run' }) running rfl
  | @fail run run' _ c errand present moved broken _ running =>
      refine .finish moves (held_eq_some.mpr ⟨running, rfl⟩) present moved (by rw [broken]; rfl)
        flight ?_ runs (ended (hasEnded_of_setStage running .broken))
      rw [held]
      exact held_free (d := { d with runs := d.runs.set r run' }) running rfl

/-- Every move shifts the slot in one of the ways of `Shift`. -/
theorem shift_of_step {effects : List Run.Effect}
    (made : d.step now move = some (d', effects)) : Shift now d d' move := by
  cases change_of_step made with
  | call call => exact call.shift
  | run moves advance => exact advance.shift moves rfl rfl rfl
  | removed _ _ advance => exact advance.shift (by simp) rfl rfl rfl
  | addUser | addChat => exact .still rfl rfl rfl
  | arrive errand =>
      refine .still rfl ?_ rfl
      funext c
      rw [held, held, List.getElem?_append]
      split
      next => rfl
      next outside =>
        rw [List.getElem?_eq_none (Nat.le_of_not_lt outside), List.getElem?_singleton]
        split <;> rfl

end Shifts

/-! ## Who holds the slot -/

theorem guarded_start (settings : Settings) (directory : Directory) (clocks : Clocks) :
    (start settings directory clocks).Guarded := by
  refine ⟨?_, by simp [start], by simp [start]⟩
  have nobody : (start settings directory clocks).held = fun _ => none := by
    funext c
    rfl
  rw [nobody]
  exact .idle

section Guarded

variable {now : Moment} {d d' : Dispatcher} {move : Move}

theorem Guarded.attached {r c : Nat} {errand : Errand} (guarded : d.Guarded)
    (running : d.callers[c]? = some ⟨errand, .running r⟩) : d.flight = .attached r :=
  guarded.slot.running (held_eq_some.mpr ⟨running, rfl⟩)

theorem Guarded.runner {r : Nat} (guarded : d.Guarded) (attached : d.flight = .attached r) :
    ∃ (c : Nat) (errand : Errand), d.callers[c]? = some ⟨errand, .running r⟩ := by
  have slot := guarded.slot
  rw [attached] at slot
  generalize same : d.held = held at slot
  cases slot with
  | @attached _ c errand =>
      have holds : d.held c = some ⟨errand, .running r⟩ := by rw [same, only_self]
      exact ⟨c, errand, (held_eq_some.mp holds).1⟩

private theorem Shift.slot (shift : Shift now d d' move) (slot : Slot d.flight d.held) :
    Slot d'.flight d'.held := by
  cases shift with
  | still flight held | cancel _ _ flight held | run _ _ _ _ flight held =>
      rw [flight, held]
      exact slot
  | relist holds before lists flight held =>
      obtain ⟨parked, claimed, alone⟩ := slot.listing holds before
      rw [flight, held, claimed, alone, update_only]
      exact .claimed lists
  | claim free lists flight held =>
      rw [flight, held]
      exact (free ▸ slot).claim lists
  | park _ claimed flight held =>
      rw [flight, held]
      rw [claimed] at slot
      generalize d.held = holders at slot
      cases slot with
      | claimed lists => exact .claimed lists
  | attach holds lists flight held =>
      obtain ⟨parked, -, alone⟩ := slot.listing holds lists
      rw [flight, held, alone, update_only]
      exact .attached
  | free holds _ flight held | finish _ holds _ _ _ flight held =>
      rw [flight, held]
      exact slot.free holds

private theorem Guarded.over_of_same (guarded : d.Guarded) (runs : d'.runs = d.runs)
    (flight : ∀ r, d'.flight = .attached r ↔ d.flight = .attached r) :
    (∀ r run, d'.runs[r]? = some run → (run.stage.isOver = false ↔ d'.flight = .attached r)) ∧
      ∀ r, d'.flight = .attached r → r < d'.runs.length := by
  constructor
  · intro r run present
    rw [flight]
    exact guarded.ends r run (runs ▸ present)
  · intro r attached
    rw [runs]
    exact guarded.there r ((flight r).mp attached)

private theorem Guarded.over_of_cancel (guarded : d.Guarded) {r : Nat}
    (runs : d'.runs = (d.cancelRun r).runs) (flight : d'.flight = d.flight) :
    (∀ r run, d'.runs[r]? = some run → (run.stage.isOver = false ↔ d'.flight = .attached r)) ∧
      ∀ r, d'.flight = .attached r → r < d'.runs.length := by
  rw [runs, flight]
  constructor
  · intro k run present
    simp only [cancelRun, List.getElem?_modify, Option.map_eq_map,
      Option.map_eq_some_iff] at present
    obtain ⟨before, present, rfl⟩ := present
    rw [← guarded.ends k before present]
    split <;> rfl
  · intro k attached
    simpa [cancelRun] using guarded.there k attached

private theorem Guarded.over_of_attach (guarded : d.Guarded) {parked : Bool} {request : Request}
    {targets : Targets} (claimed : d.flight = .claimed parked)
    (runs : d'.runs = (d.withRun now request targets).runs)
    (flight : d'.flight = .attached d.runs.length) :
    (∀ r run, d'.runs[r]? = some run → (run.stage.isOver = false ↔ d'.flight = .attached r)) ∧
      ∀ r, d'.flight = .attached r → r < d'.runs.length := by
  rw [runs, flight]
  constructor
  · intro r run present
    rw [withRun_runs] at present
    split at present
    next last =>
      obtain rfl := Option.some.inj present
      simp [last, Run.Stage.isOver]
    next before =>
      rw [guarded.ends r run present, claimed]
      simp [Ne.symm before]
  · intro r attached
    obtain rfl : d.runs.length = r := by simpa using attached
    simp [withRun]

private theorem Guarded.ends_of_set (guarded : d.Guarded) {r : Nat} {after : Run}
    (runs : d'.runs = d.runs.set r after)
    (own : after.stage.isOver = false ↔ d'.flight = .attached r)
    (others : ∀ k, k ≠ r → (d'.flight = .attached k ↔ d.flight = .attached k)) :
    ∀ k run, d'.runs[k]? = some run → (run.stage.isOver = false ↔ d'.flight = .attached k) := by
  intro k run present
  rw [runs] at present
  by_cases mine : k = r
  · subst mine
    obtain rfl : run = after := by
      have inside := (List.getElem?_eq_some_iff.mp present).1
      rw [List.length_set] at inside
      simpa [inside] using present.symm
    exact own
  · rw [List.getElem?_set_ne (Ne.symm mine)] at present
    rw [guarded.ends k run present, others k mine]

/-- A shift leaves a run under way only if it is attached. -/
private theorem Shift.underWay (shift : Shift now d d' move) (guarded : d.Guarded) :
    (∀ r run, d'.runs[r]? = some run → (run.stage.isOver = false ↔ d'.flight = .attached r)) ∧
      ∀ r, d'.flight = .attached r → r < d'.runs.length := by
  cases shift with
  | still flight _ runs | relist _ _ _ flight _ runs =>
      exact guarded.over_of_same runs (by simp [flight])
  | claim idle _ flight _ runs => exact guarded.over_of_same runs (by simp [flight, idle])
  | park _ claimed flight _ runs => exact guarded.over_of_same runs (by simp [flight, claimed])
  | free holds lists flight _ runs =>
      obtain ⟨parked, claimed, -⟩ := guarded.slot.listing holds lists
      exact guarded.over_of_same runs (by simp [flight, claimed])
  | cancel _ _ flight _ runs => exact guarded.over_of_cancel runs flight
  | attach holds lists flight _ runs =>
      obtain ⟨parked, claimed, -⟩ := guarded.slot.listing holds lists
      exact guarded.over_of_attach claimed runs flight
  | @run _ r before after _ _ _ present moved goesOn flight _ runs =>
      refine ⟨guarded.ends_of_set runs ?_ (by simp [flight]), fun k attached => ?_⟩
      · have underWay := guarded.ends r before present
        rw [flight]
        cases ended : before.stage.isOver with
        | true => rwa [Run.over_of_step moved ended]
        | false =>
            obtain ⟨c, errand, running⟩ := guarded.runner (underWay.mp ended)
            rw [goesOn.resolve_right (callerOf_ne_none running)]
            exact ⟨fun _ => underWay.mp ended, fun _ => rfl⟩
      · rw [flight] at attached
        simpa [runs] using guarded.there k attached
  | @finish _ r c errand _ after _ _ _ holds present moved ended flight _ runs =>
      have attached := guarded.slot.running holds
      refine ⟨guarded.ends_of_set runs (by simp [ended, flight]) ?_, by simp [flight]⟩
      intro k other
      simp [flight, attached, Ne.symm other]

theorem guarded_of_step {effects : List Run.Effect}
    (made : d.step now move = some (d', effects)) (guarded : d.Guarded) : d'.Guarded := by
  have shift := shift_of_step made
  obtain ⟨ends, there⟩ := shift.underWay guarded
  exact ⟨shift.slot guarded.slot, ends, there⟩

end Guarded

/-- The slot of a dispatcher is always held by those who should hold it. -/
theorem guarded_of_course {settings : Settings} {directory : Directory} {clocks : Clocks}
    {events : List (Event Dispatcher Move)} {d : Dispatcher}
    (course : Course step (start settings directory clocks) events d) : d.Guarded :=
  course.invariant (guarded_start settings directory clocks) guarded_of_step

private theorem latest_of_step {now : Moment} {d d' : Dispatcher} {move : Move}
    {effects : List Run.Effect} (made : d.step now move = some (d', effects))
    (last : ∀ r, d.flight = .attached r → r + 1 = d.runs.length) :
    ∀ r, d'.flight = .attached r → r + 1 = d'.runs.length := by
  intro r attached
  cases shift_of_step made with
  | still flight _ runs | relist _ _ _ flight _ runs =>
      rw [runs]
      exact last r (flight ▸ attached)
  | cancel _ _ flight _ runs =>
      rw [runs, cancelRun, List.length_modify]
      exact last r (flight ▸ attached)
  | run _ _ _ _ flight _ runs =>
      rw [runs, List.length_set]
      exact last r (flight ▸ attached)
  | attach _ _ flight _ runs =>
      cases flight.symm.trans attached
      rw [runs, withRun, List.length_append]
      rfl
  | claim _ _ flight | park _ _ flight | free _ _ flight | finish _ _ _ _ _ flight =>
      cases flight.symm.trans attached

/-- Each run but the last one is over. -/
theorem over_of_earlier {settings : Settings} {directory : Directory} {clocks : Clocks}
    {events : List (Event Dispatcher Move)} {d : Dispatcher}
    (course : Course step (start settings directory clocks) events d) {r : Nat} {run : Run}
    (present : d.runs[r]? = some run) (earlier : r + 1 ≠ d.runs.length) :
    run.stage.isOver = true := by
  have last : ∀ r, d.flight = .attached r → r + 1 = d.runs.length :=
    course.invariant (by simp [start]) latest_of_step
  by_contra goesOn
  exact earlier (last r (((guarded_of_course course).ends r run present).mp
    (Bool.eq_false_of_not_eq_true goesOn)))

end Dispatcher

end Broadcast
