import Broadcast.Proofs.Run.Way

/-!
# What a move does to the jobs of a run

Only four kinds of moves matter to the jobs: a turn of a worker, the start of the crew, the end of
the crew, and all others, which leave queue, workers and counters of jobs alone. A fact about jobs
that each kind keeps holds throughout every run.
-/

namespace Broadcast.Run

/-- The jobs with which the run began, as it counts them. -/
abbrev total (r : Run) : UInt64 := r.tally.progress.total

/-- The deliveries that the run has counted. -/
abbrev success (r : Run) : UInt64 := r.tally.progress.success

/-- The failures that the run has counted. -/
abbrev failed (r : Run) : UInt64 := r.tally.progress.failed

/-- The removals that the run has counted. -/
abbrev removed (r : Run) : UInt64 := r.tally.progress.removed

/-- The crew has ended, and the run is on its way to its report or has sent it. -/
def Stage.isClosing : Stage → Bool
  | draining _ | stopping | editing _ | replying _ | finished _ => true
  | announcing | delivering | broken => false

/-- The run has come to its end. -/
def Stage.isOver : Stage → Bool
  | finished _ | broken => true
  | announcing | delivering | draining _ | stopping | editing _ | replying _ => false

/-- The report that the run is about to send, or has sent. -/
def Stage.report? : Stage → Option Report
  | editing report | replying report | finished report => some report
  | announcing | delivering | draining _ | stopping | broken => none

/-- A move that neither cancels the run nor needs the directory. -/
def Move.isInner : Move → Bool
  | cancel | removal _ (.answered _) => false
  | _ => true

/-- One run is the other after something that is no business of its jobs. -/
structure Aside (r r' : Run) : Prop where
  /-- A run keeps its plan. -/
  plan : r'.plan = r.plan
  /-- A run keeps its beginning. -/
  began : r'.began = r.began
  /-- The jobs that wait stay where they are. -/
  queue : r'.queue = r.queue
  /-- The workers go on with what they do. -/
  workers : r'.workers = r.workers
  /-- No job is added. -/
  total : r'.total = r.total
  /-- No delivery is counted. -/
  success : r'.success = r.success
  /-- No failure is counted. -/
  failed : r'.failed = r.failed
  /-- No removal is added. -/
  removals : r'.removals.length = r.removals.length
  /-- A removal that was carried out is counted at most once. -/
  removed : (r'.removed = r.removed ∧ r.gone ≤ r'.gone) ∨
    (r'.removed = r.removed + 1 ∧ r'.gone = r.gone + 1)
  /-- A cancelled run stays cancelled. -/
  cancelled : r.tally.cancelled = true → r'.tally.cancelled = true
  /-- The crew neither starts nor ends. -/
  stage : r'.stage = r.stage ∨ (r.stage = .announcing ∧ r'.stage = .broken) ∨
    (r.stage.isClosing = true ∧ (r'.stage.isClosing = true ∨ r'.stage = .broken))
  /-- A run that is over stays so. -/
  stays : r.stage.isOver = true → r'.stage = r.stage
  /-- A report is made of the counters, once. -/
  report : ∀ report, r'.stage.report? = some report →
    r.stage.report? = some report ∨ ∃ elapsed, report = r.tally.report elapsed

/-- The kinds of moves that a run can make, as far as its jobs are concerned. -/
inductive Change (now : Moment) (r : Run) : Move → Run → List Effect → Prop
  | turn {i : Nat} {move : WorkerMove} {r' : Run} {effects : List Effect} :
      Turn now r i move r' effects → Change now r (.worker i move) r' effects
  | crew {notice : Option Handle} :
      r.stage = .announcing → ¬Plan.maxRemovalPermits < r.plan.removalPermits →
      Change now r (.announced (.gave notice))
        { r with
          notice
          display := if r.plan.progressEvery.isSome && notice.isSome then .fresh else .absent
          stage := .delivering
          workers := List.replicate r.plan.crew .idle }
        (r.announced (.gave notice)).2
  | join :
      r.stage = .delivering → r.workers.all Worker.hasEnded = true →
      Change now r .joined (r.joined now).1 (r.joined now).2
  | aside {move : Move} {r' : Run} {effects : List Effect} :
      Aside r r' → (∀ i m, move ≠ .worker i m) →
      (move ≠ .cancel → r'.tally.cancelled = r.tally.cancelled) →
      effects.filterMap Effect.attempt? = [] → Change now r move r' effects

theorem Aside.refl (r : Run) : Aside r r where
  plan := rfl
  began := rfl
  queue := rfl
  workers := rfl
  total := rfl
  success := rfl
  failed := rfl
  removals := rfl
  removed := .inl ⟨rfl, Nat.le_refl _⟩
  cancelled := id
  stage := .inl rfl
  stays _ := rfl
  report _ := .inl

private theorem Aside.closing {r : Run} {old stage : Stage} {stopSent : Bool}
    (before : r.stage = old) (closing : old.isClosing = true) (going : old.isOver = false)
    (goesOn : stage.isClosing = true ∨ stage = .broken)
    (report : ∀ report, stage.report? = some report →
      old.report? = some report ∨ ∃ elapsed, report = r.tally.report elapsed) :
    Aside r { r with stage, stopSent } := by
  subst before
  exact { Aside.refl r with
    stage := .inr (.inr ⟨closing, goesOn⟩)
    stays := fun ended => by simp [ended] at going
    report }

private theorem Aside.unstarted {r : Run} (announcing : r.stage = .announcing)
    (notice : Option Handle) (display : Display) :
    Aside r { r with notice, display, stage := .broken, stopSent := true } :=
  { Aside.refl r with
    stage := .inr (.inl ⟨announcing, rfl⟩)
    stays := by simp [announcing, Stage.isOver]
    report := by simp [Stage.report?] }

private theorem Leaving.aside {r r' : Run} {k : Nat} {move : RemovalMove}
    {effects : List Effect} (leaving : Leaving r k move r' effects) :
    Aside r r' ∧ r'.tally.cancelled = r.tally.cancelled ∧
      effects.filterMap Effect.attempt? = [] := by
  cases leaving with
  | begin queued =>
      refine ⟨{ Aside.refl r with removals := by simp, removed := .inl ⟨rfl, ?_⟩ }, rfl, rfl⟩
      rw [gone_setRemoval queued (by simp)]
      exact Nat.le_add_right _ _
  | crash asking =>
      refine ⟨{ Aside.refl r with removals := by simp, removed := .inl ⟨rfl, ?_⟩ }, rfl, rfl⟩
      rw [gone_setRemoval asking (by simp)]
      exact Nat.le_add_right _ _
  | answer left asking =>
      have one : (r.setRemoval k .done).gone = r.gone + 1 := by
        rw [gone_setRemoval asking (by simp), if_pos rfl]
      have removals : (r.setRemoval k .done).removals.length = r.removals.length := by simp
      cases left with
      | true => exact ⟨{ Aside.refl r with removals, removed := .inr ⟨rfl, one⟩ }, rfl, rfl⟩
      | false =>
          refine ⟨{ Aside.refl r with removals, removed := .inl ⟨rfl, ?_⟩ }, rfl, rfl⟩
          exact Nat.le.intro one.symm

private theorem Showing.aside {now : Moment} {r r' : Run} {move : DisplayMove}
    {effects : List Effect} (showing : Showing now r move r' effects) :
    Aside r r' ∧ r'.tally.cancelled = r.tally.cancelled ∧
      effects.filterMap Effect.attempt? = [] := by
  have same (display : Display) : Aside r { r with display } := { Aside.refl r with }
  cases showing <;> exact ⟨same _, rfl, rfl⟩

theorem quiet_crew (r : Run) (notice : Option Handle) :
    (r.announced (.gave notice)).2.filterMap Effect.attempt? = [] := by
  rw [List.filterMap_eq_nil_iff]
  intro effect brought
  rcases plain_of_announced brought with ⟨metric, rfl⟩ | ⟨part, rfl⟩ <;> rfl

private theorem Leg.change {now : Moment} {r r' : Run} {move : Move} {effects : List Effect}
    (leg : Leg now r move r' effects) : Change now r move r' effects := by
  cases leg with
  | lost announcing =>
      exact .aside (.unstarted announcing r.notice r.display) (by simp) (fun _ => rfl) rfl
  | overrun announcing =>
      exact .aside (.unstarted announcing _ _) (by simp) (fun _ => rfl) (quiet_crew r _)
  | crew announcing enough => exact .crew announcing enough
  | join delivering ended => exact .join delivering ended
  | drain draining =>
      have aside : Aside r r.stop := .closing draining rfl rfl (.inl rfl) (by simp [Stage.report?])
      exact .aside aside (by simp) (fun _ => rfl) rfl
  | timeOut draining =>
      have aside : Aside r r.stop := .closing draining rfl rfl (.inl rfl) (by simp [Stage.report?])
      exact .aside aside (by simp) (fun _ => rfl) rfl
  | report stopping | send stopping =>
      refine .aside (.closing stopping rfl rfl (.inl rfl) ?_) (by simp) (fun _ => rfl) rfl
      exact fun _ made => .inr ⟨_, (Option.some.inj made).symm⟩
  | editLost editing =>
      have aside : Aside r r.breakDown :=
        .closing editing rfl rfl (.inr rfl) (by simp [Stage.report?])
      exact .aside aside (by simp) (fun _ => rfl) rfl
  | edited editing | resend editing =>
      exact .aside (.closing editing rfl rfl (.inl rfl) fun _ => .inl) (by simp) (fun _ => rfl) rfl
  | replyLost replying =>
      have aside : Aside r r.breakDown :=
        .closing replying rfl rfl (.inr rfl) (by simp [Stage.report?])
      exact .aside aside (by simp) (fun _ => rfl) rfl
  | replied replying =>
      exact .aside (.closing replying rfl rfl (.inl rfl) fun _ => .inl) (by simp) (fun _ => rfl) rfl
  | cancel =>
      exact .aside { Aside.refl r with cancelled := fun _ => rfl } (by simp)
        (fun other => absurd rfl other) rfl

/-- Every move of a run is of one of the kinds of `Change`. -/
theorem change_of_step {now : Moment} {r r' : Run} {move : Move} {effects : List Effect}
    (made : r.step now move = some (r', effects)) : Change now r move r' effects := by
  cases way_of_step made with
  | worker turn => exact .turn turn
  | removal leaving =>
      obtain ⟨aside, same, quiet⟩ := leaving.aside
      exact .aside aside (by simp) (fun _ => same) quiet
  | display showing =>
      obtain ⟨aside, same, quiet⟩ := showing.aside
      exact .aside aside (by simp) (fun _ => same) quiet
  | leg leg => exact leg.change

/-! ## What no move undoes -/

/-- A run at its start; a parked cancel may have met it already. -/
def opening (plan : Plan) (now : Moment) (cancelled : Bool) : Run :=
  let run := (start plan now).1
  { run with tally := { run.tally with cancelled } }

section opening

variable (plan : Plan) (now : Moment) (cancelled : Bool)

@[simp] theorem opening_plan : (opening plan now cancelled).plan = plan := rfl

@[simp] theorem opening_stage : (opening plan now cancelled).stage = .announcing := rfl

@[simp] theorem opening_queue :
    (opening plan now cancelled).queue = plan.targets.map Job.fresh := rfl

@[simp] theorem opening_workers : (opening plan now cancelled).workers = [] := rfl

@[simp] theorem opening_total :
    (opening plan now cancelled).total = UInt64.ofNat plan.targets.length := rfl

@[simp] theorem opening_success : (opening plan now cancelled).success = 0 := rfl

@[simp] theorem opening_failed : (opening plan now cancelled).failed = 0 := rfl

@[simp] theorem opening_removed : (opening plan now cancelled).removed = 0 := rfl

@[simp] theorem opening_cancelled :
    (opening plan now cancelled).tally.cancelled = cancelled := rfl

end opening

theorem Turn.keeps {now : Moment} {r r' : Run} {i : Nat} {move : WorkerMove}
    {effects : List Effect} (turn : Turn now r i move r' effects) :
    r'.plan = r.plan ∧ r'.began = r.began ∧ r'.stage = r.stage ∧ r'.total = r.total ∧
      r'.tally.cancelled = r.tally.cancelled := by
  cases turn <;> exact ⟨rfl, rfl, rfl, rfl, rfl⟩

theorem joined_keeps (now : Moment) (r : Run) :
    (r.joined now).1.plan = r.plan ∧ (r.joined now).1.began = r.began ∧
      (r.joined now).1.total = r.total ∧
      (r.joined now).1.tally.cancelled = r.tally.cancelled := by
  unfold joined
  dsimp only
  split <;> exact ⟨rfl, rfl, rfl, rfl⟩

theorem plan_of_step {now : Moment} {r r' : Run} {move : Move} {effects : List Effect}
    (made : r.step now move = some (r', effects)) :
    r'.plan = r.plan ∧ r'.began = r.began ∧ r'.total = r.total := by
  cases change_of_step made with
  | turn turn =>
      obtain ⟨plan, began, -, total, -⟩ := turn.keeps
      exact ⟨plan, began, total⟩
  | crew => exact ⟨rfl, rfl, rfl⟩
  | join =>
      obtain ⟨plan, began, total, -⟩ := joined_keeps now r
      exact ⟨plan, began, total⟩
  | aside aside => exact ⟨aside.plan, aside.began, aside.total⟩

theorem over_of_step {now : Moment} {r r' : Run} {move : Move} {effects : List Effect}
    (made : r.step now move = some (r', effects)) (ended : r.stage.isOver = true) :
    r'.stage = r.stage := by
  cases change_of_step made with
  | turn turn => exact turn.keeps.2.2.1
  | crew announcing => simp [announcing, Stage.isOver] at ended
  | join delivering => simp [delivering, Stage.isOver] at ended
  | aside aside => exact aside.stays ended

theorem going_of_step {now : Moment} {r r' : Run} {move : Move} {effects : List Effect}
    (made : r.step now move = some (r', effects)) (other : move ≠ .cancel) :
    r'.tally.cancelled = r.tally.cancelled := by
  cases change_of_step made with
  | turn turn => exact turn.keeps.2.2.2.2
  | crew => rfl
  | join => exact (joined_keeps now r).2.2.2
  | aside _ _ same => exact same other

theorem cancelled_of_step {now : Moment} {r r' : Run} {move : Move} {effects : List Effect}
    (made : r.step now move = some (r', effects)) (cancelled : r.tally.cancelled = true) :
    r'.tally.cancelled = true := by
  cases change_of_step made with
  | turn turn => rw [turn.keeps.2.2.2.2, cancelled]
  | crew => exact cancelled
  | join => rw [(joined_keeps now r).2.2.2, cancelled]
  | aside aside => exact aside.cancelled cancelled

end Broadcast.Run
