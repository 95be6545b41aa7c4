import Broadcast.Proofs.Run.Change
import Mathlib.Algebra.BigOperators.Group.List.Basic
import Mathlib.Algebra.Order.BigOperators.Group.List
import Mathlib.Algebra.Order.Group.Nat
import Mathlib.Data.Multiset.AddSub
import Mathlib.Tactic.Abel

/-!
# The crew of a run

Whatever the workers of a run contribute is a sum over them, and a turn changes one summand. The
crew is as large as the plan says from its start on, and once it has ended it stays as it is.
-/

namespace Broadcast.Run

/-! ## Sums over the workers -/

/-- What the workers of a run contribute together. -/
def crewSum {M : Type} [AddCommMonoid M] (f : Worker → M) (r : Run) : M :=
  (r.workers.map f).sum

theorem sum_map_set {α M : Type} [AddCommMonoid M] (f : α → M) {parts : List α} {i : Nat} {a : α}
    (b : α) (present : parts[i]? = some a) :
    ((parts.set i b).map f).sum + f a = (parts.map f).sum + f b := by
  induction parts generalizing i with
  | nil => simp at present
  | cons first parts ih =>
      cases i with
      | zero =>
          obtain rfl : first = a := by simpa using present
          simp only [List.set_cons_zero, List.map_cons, List.sum_cons]
          abel
      | succ i =>
          have rest := ih (i := i) (by simpa using present)
          simp only [List.set_cons_succ, List.map_cons, List.sum_cons]
          rw [add_assoc, rest, add_assoc]

/-- A change of one worker changes one summand. -/
theorem crewSum_of_set {M : Type} [AddCommMonoid M] (f : Worker → M) {r r' : Run} {i : Nat}
    {w w' : Worker} (present : r.workers[i]? = some w)
    (set : r'.workers = r.workers.set i w') : r'.crewSum f + f w = r.crewSum f + f w' := by
  unfold crewSum
  rw [set]
  exact sum_map_set f w' present

theorem crewSum_eq_zero {M : Type} [AddCommMonoid M] {f : Worker → M} {r : Run}
    (zero : ∀ w ∈ r.workers, f w = 0) : r.crewSum f = 0 := by
  unfold crewSum
  rw [List.map_congr_left zero]
  simp

theorem le_crewSum {f : Worker → Nat} {r : Run} {w : Worker} (present : w ∈ r.workers) :
    f w ≤ r.crewSum f :=
  List.single_le_sum (by simp) _ (List.mem_map_of_mem present)

/-- A turn is a change of one worker that had not ended. -/
theorem Turn.sets {now : Moment} {r r' : Run} {i : Nat} {move : WorkerMove}
    {effects : List Effect} (turn : Turn now r i move r' effects) :
    ∃ w w', r.workers[i]? = some w ∧ w.hasEnded = false ∧ r'.workers = r.workers.set i w' := by
  cases turn with
  | finish present => exact ⟨_, _, present, rfl, rfl⟩
  | drop present => exact ⟨_, _, present, rfl, rfl⟩
  | take present => exact ⟨_, _, present, rfl, rfl⟩
  | jam present => exact ⟨_, _, present, rfl, rfl⟩
  | skip present => exact ⟨_, _, present, rfl, rfl⟩
  | call present => exact ⟨_, _, present, rfl, rfl⟩
  | crash present => exact ⟨_, _, present, rfl, rfl⟩
  | succeed present => exact ⟨_, _, present, rfl, rfl⟩
  | postpone present => exact ⟨_, _, present, rfl, rfl⟩
  | exhaust present => exact ⟨_, _, present, rfl, rfl⟩
  | dismiss present => exact ⟨_, _, present, rfl, rfl⟩
  | refuse present => exact ⟨_, _, present, rfl, rfl⟩
  | wake present => exact ⟨_, _, present, rfl, rfl⟩

/-! ## How far a run has come and what its crew does -/

/-- The crew is there exactly while it should be. -/
structure Staffed (r : Run) : Prop where
  /-- Nobody works before the announcement is answered. -/
  unstarted : r.stage = .announcing → r.workers = []
  /-- Afterwards the crew is complete. -/
  started : r.stage = .delivering → r.workers ≠ []
  /-- The crew is as large as the plan says. -/
  size : r.workers = [] ∨ r.workers.length = r.plan.crew
  /-- A run that closes has a crew that has ended and an empty queue. -/
  closed : r.stage.isClosing = true →
    r.workers ≠ [] ∧ r.workers.all Worker.hasEnded = true ∧ r.queue = []
  /-- Nobody goes on working in a run that broke down. -/
  broken : r.stage = .broken → r.workers.all Worker.hasEnded = true

theorem crew_pos (plan : Plan) : 0 < plan.crew :=
  Nat.lt_of_lt_of_le Nat.one_pos (Nat.le_max_right _ _)

/-- As long as there are targets, the crew is as large as the workers that were asked for, or the
targets, allow. -/
theorem crew_eq {plan : Plan} (nonempty : plan.targets ≠ []) :
    plan.crew = min (max plan.workers.toNat 1) plan.targets.length := by
  have targets := List.length_pos_iff.mpr nonempty
  unfold Plan.crew
  omega

theorem crew_eq_one {plan : Plan} (lone : plan.workers.toNat ≤ 1 ∨ plan.targets.length ≤ 1) :
    plan.crew = 1 := by
  unfold Plan.crew
  omega

theorem staffed_opening (plan : Plan) (now : Moment) (cancelled : Bool) :
    (opening plan now cancelled).Staffed where
  unstarted _ := rfl
  started := by simp
  size := .inl rfl
  closed := by simp [Stage.isClosing]
  broken := by simp

theorem stage_joined (now : Moment) (r : Run) : (r.joined now).1.stage.isClosing = true := by
  unfold joined
  dsimp only
  split <;> rfl

theorem over_of_joined (now : Moment) (r : Run) : (r.joined now).1.stage.isOver = false := by
  unfold joined
  dsimp only
  split <;> rfl

theorem unbroken_joined (now : Moment) (r : Run) : (r.joined now).1.stage ≠ .broken := by
  intro broken
  have going := over_of_joined now r
  rw [broken] at going
  cases going

theorem report_of_joined (now : Moment) (r : Run) : (r.joined now).1.stage.report? = none := by
  unfold joined
  dsimp only
  split <;> rfl

theorem joined_workers (now : Moment) (r : Run) : (r.joined now).1.workers = r.workers := by
  unfold joined
  dsimp only
  split <;> rfl

theorem joined_queue (now : Moment) (r : Run) : (r.joined now).1.queue = [] := by
  unfold joined
  dsimp only
  split <;> rfl

theorem Turn.going {now : Moment} {r r' : Run} {i : Nat} {move : WorkerMove}
    {effects : List Effect} (turn : Turn now r i move r' effects) :
    r.workers.all Worker.hasEnded ≠ true := by
  obtain ⟨w, -, present, going, -⟩ := turn.sets
  intro ended
  have := List.all_eq_true.mp ended w (List.mem_of_getElem? present)
  simp [going] at this

theorem Turn.delivering {now : Moment} {r r' : Run} {i : Nat} {move : WorkerMove}
    {effects : List Effect} (turn : Turn now r i move r' effects) (staffed : r.Staffed) :
    r.stage = .delivering := by
  obtain ⟨w, -, present, -, -⟩ := turn.sets
  cases stage : r.stage with
  | announcing => simp [staffed.unstarted stage] at present
  | delivering => rfl
  | broken => exact absurd (staffed.broken stage) turn.going
  | draining | stopping | editing | replying | finished =>
      exact absurd (staffed.closed (by simp [stage, Stage.isClosing])).2.1 turn.going

private theorem Turn.staffed {now : Moment} {r r' : Run} {i : Nat} {move : WorkerMove}
    {effects : List Effect} (turn : Turn now r i move r' effects) (staffed : r.Staffed) :
    r'.Staffed := by
  have delivering := turn.delivering staffed
  obtain ⟨plan, -, stage, -, -⟩ := turn.keeps
  obtain ⟨w, w', present, -, workers⟩ := turn.sets
  have nonempty := staffed.started delivering
  rw [delivering] at stage
  refine ⟨by simp [stage], ?_, ?_, by simp [stage, Stage.isClosing], by simp [stage]⟩
  · intro _ none
    rw [workers, List.set_eq_nil_iff] at none
    exact nonempty none
  · right
    rw [workers, List.length_set, plan, staffed.size.resolve_left nonempty]

private theorem staffed_joined {now : Moment} {r : Run} (delivering : r.stage = .delivering)
    (ended : r.workers.all Worker.hasEnded = true) (staffed : r.Staffed) :
    (r.joined now).1.Staffed := by
  have closing := stage_joined now r
  constructor
  · intro announcing
    simp [announcing, Stage.isClosing] at closing
  · intro going
    simp [going, Stage.isClosing] at closing
  · rw [joined_workers, (joined_keeps now r).1]
    exact staffed.size
  · intro _
    rw [joined_workers, joined_queue]
    exact ⟨staffed.started delivering, ended, rfl⟩
  · intro broken
    simp [broken, Stage.isClosing] at closing

private theorem Aside.staffed {r r' : Run} (aside : Aside r r') (staffed : r.Staffed) :
    r'.Staffed := by
  obtain ⟨unstarted, started, size, closed, broken⟩ := staffed
  rcases aside.stage with same | ⟨before, after⟩ | ⟨before, after⟩
  · constructor <;>
      simpa only [same, aside.workers, aside.queue, aside.plan]
  · refine ⟨by simp [after], by simp [after], ?_, by simp [after, Stage.isClosing], ?_⟩
    · simpa only [aside.workers, aside.plan] using size
    · simp [aside.workers, unstarted before]
  · have ended := closed before
    constructor
    · intro announcing
      simp [announcing, Stage.isClosing] at after
    · intro delivering
      simp [delivering, Stage.isClosing] at after
    · simpa only [aside.workers, aside.plan] using size
    · simpa only [aside.workers, aside.queue] using fun _ => ended
    · simpa only [aside.workers] using fun _ => ended.2.1

theorem staffed_of_step {now : Moment} {r r' : Run} {move : Move} {effects : List Effect}
    (made : r.step now move = some (r', effects)) (staffed : r.Staffed) : r'.Staffed := by
  cases change_of_step made with
  | turn turn => exact turn.staffed staffed
  | crew announcing =>
      refine ⟨by simp, ?_, .inr (by simp), by simp [Stage.isClosing], by simp⟩
      intro _ none
      have := congrArg List.length none
      have := crew_pos r.plan
      simp at *
      omega
  | join delivering ended => exact staffed_joined delivering ended staffed
  | aside aside => exact aside.staffed staffed

/-! ## A whole run -/

theorem plan_of_course {events : List (Event Run Move)} {r r' : Run}
    (course : Course step r events r') :
    r'.plan = r.plan ∧ r'.began = r.began ∧ r'.total = r.total := by
  induction course with
  | start => exact ⟨rfl, rfl, rfl⟩
  | next _ made ih =>
      obtain ⟨plan, began, total⟩ := plan_of_step made
      rw [plan, began, total]
      exact ih

theorem over_of_course {events : List (Event Run Move)} {r r' : Run}
    (course : Course step r events r') (ended : r.stage.isOver = true) : r'.stage = r.stage := by
  induction course with
  | start => rfl
  | next _ made ih => rw [over_of_step made (by rw [ih, ended]), ih]

theorem cancelled_of_course {events : List (Event Run Move)} {r r' : Run}
    (course : Course step r events r') (cancelled : r.tally.cancelled = true) :
    r'.tally.cancelled = true :=
  course.invariant cancelled cancelled_of_step

/-- The crew of a run is there exactly while it should be. -/
theorem staffed_of_course {plan : Plan} {began : Moment} {cancelled : Bool}
    {events : List (Event Run Move)} {r : Run}
    (course : Course step (opening plan began cancelled) events r) : r.Staffed :=
  course.invariant (staffed_opening plan began cancelled) staffed_of_step

/-- A crew starts only if the removals that may go on at once can be told apart. -/
theorem fits_of_course {plan : Plan} {began : Moment} {cancelled : Bool}
    {events : List (Event Run Move)} {r : Run}
    (course : Course step (opening plan began cancelled) events r) (started : r.workers ≠ []) :
    plan.removalPermits ≤ Plan.maxRemovalPermits := by
  induction course with
  | start => exact absurd rfl started
  | @next events now s t move effects past made ih =>
      cases change_of_step made with
      | turn turn =>
          refine ih fun none => ?_
          obtain ⟨w, -, present, -⟩ := turn.sets
          simp [none] at present
      | crew _ enough =>
          rw [(plan_of_course past).1] at enough
          exact Nat.le_of_not_lt enough
      | join => exact ih (joined_workers _ _ ▸ started)
      | aside aside => exact ih (aside.workers ▸ started)

end Broadcast.Run
