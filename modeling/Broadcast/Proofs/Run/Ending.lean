import Broadcast.Proofs.Run.Attempts

/-!
# A run ends

A run has only so much left to do: whatever it is answered, each move but those of the task that
shows progress leaves less. And wherever it stands, it can go on by itself until it has reported,
waiting for nobody but those whom it has asked.
-/

namespace Broadcast

/-! ## What is left to do -/

/-- What a job takes at most, if it may be put back as often as `cap` says: for each round a permit,
a delivery, a rest and the way back to the queue. -/
def Job.effort (cap : UInt32) (job : Job) : Nat :=
  4 * (cap.toNat - job.retries.toNat) + 5

namespace Run

/-- What a worker has left to do, its job included. -/
def Worker.effort (cap : UInt32) : Worker → Nat
  | idle => 1
  | waiting job => job.effort cap
  | delivering job => job.effort cap - 1
  | resting _ => 2
  | finished | broken => 0

/-- What a removal has left to do. -/
def Removal.effort (removal : Removal) : Nat :=
  match removal.stage with
  | .queued => 2
  | .asking => 1
  | .done | .broken => 0

/-- What the course of a run has left to do, the crew that is to start included. -/
def Stage.effort (crew : Nat) : Stage → Nat
  | announcing => crew + 6
  | delivering => 5
  | draining _ => 4
  | stopping => 3
  | editing _ => 2
  | replying _ => 1
  | finished _ | broken => 0

/-- What a run has left to do. -/
def effort (r : Run) : Nat :=
  (r.queue.map (Job.effort r.plan.maxRetries)).sum +
    r.crewSum (Worker.effort r.plan.maxRetries) + (r.removals.map Removal.effort).sum +
    r.stage.effort r.plan.crew

/-- A move that leaves less to do; progress can be shown again and again. -/
def Move.isWork : Move → Bool
  | display _ | cancel => false
  | _ => true

private theorem effort_again {cap : UInt32} {job : Job} (spare : job.retries < cap) :
    job.again.effort cap + 4 = job.effort cap := by
  have spare := UInt32.lt_iff_toNat_lt.mp spare
  rw [Job.effort, Job.effort, retries_again spare]
  omega

private theorem Turn.effort_lt {now : Moment} {r r' : Run} {i : Nat} {move : WorkerMove}
    {effects : List Effect} (turn : Turn now r i move r' effects) : r'.effort < r.effort := by
  obtain ⟨plan, -, stage, -, -⟩ := turn.keeps
  have five (job : Job) : 5 ≤ job.effort r.plan.maxRetries := Nat.le_add_left _ _
  have less {w : Worker} (w' : Worker) (present : r.workers[i]? = some w)
      (set : r'.workers = r.workers.set i w')
      (room : (r'.queue.map (Job.effort r.plan.maxRetries)).sum + w'.effort r.plan.maxRetries +
          (r'.removals.map Removal.effort).sum <
        (r.queue.map (Job.effort r.plan.maxRetries)).sum + w.effort r.plan.maxRetries +
          (r.removals.map Removal.effort).sum) :
      r'.effort < r.effort := by
    have change := crewSum_of_set (Worker.effort r.plan.maxRetries) present set
    rw [effort, effort, plan, stage]
    omega
  cases turn with
  | finish idle empty => exact less .finished idle rfl (by simp [setWorker, Worker.effort])
  | @drop job queue idle front =>
      have := five job
      apply less .idle idle rfl
      simp [setWorker, front]
      omega
  | @take job queue idle front =>
      apply less (.waiting job) idle rfl
      simp [setWorker, front, Worker.effort]
      omega
  | @call job waiting =>
      have := five job
      apply less (.delivering job) waiting rfl
      simp [setWorker, Worker.effort]
      omega
  | @jam job present | @crash job present =>
      have := five job
      apply less .broken present rfl
      simp [setWorker, Worker.effort]
      omega
  | @skip job present | @succeed job present | @exhaust job _ _ present
  | @refuse job _ present =>
      have := five job
      apply less .idle present rfl
      simp [fail, setWorker, Worker.effort]
      omega
  | wake present => exact less .idle present rfl (by simp [setWorker, Worker.effort])
  | @postpone job error wait present _ spare =>
      have round := effort_again spare
      have := five job.again
      apply less (.resting (r.plan.clocks.after now wait)) present rfl
      simp [setWorker, Worker.effort]
      omega
  | @dismiss job _ present =>
      have := five job
      apply less .idle present rfl
      simp [fail, setWorker, Worker.effort, Removal.effort]
      omega

private theorem sum_setRemoval {r : Run} {k : Nat} {recipient : Recipient}
    {old : RemovalStage} (new : RemovalStage) (present : r.removals[k]? = some ⟨recipient, old⟩) :
    ((r.setRemoval k new).removals.map Removal.effort).sum + Removal.effort ⟨recipient, old⟩ =
      (r.removals.map Removal.effort).sum + Removal.effort ⟨recipient, new⟩ := by
  rw [setRemoval_removals new present]
  exact sum_map_set Removal.effort ⟨recipient, new⟩ present

theorem Leaving.effort_lt {r r' : Run} {k : Nat} {move : RemovalMove}
    {effects : List Effect} (leaving : Leaving r k move r' effects) : r'.effort < r.effort := by
  cases leaving with
  | begin queued =>
      have change := sum_setRemoval .asking queued
      simp only [Removal.effort] at change
      simp only [effort, crewSum, setRemoval] at change ⊢
      omega
  | crash asking =>
      have change := sum_setRemoval .broken asking
      simp only [Removal.effort] at change
      simp only [effort, crewSum, setRemoval] at change ⊢
      omega
  | answer left asking =>
      have change := sum_setRemoval .done asking
      simp only [Removal.effort] at change
      simp only [effort, crewSum, setRemoval] at change ⊢
      omega

private theorem Leg.effort_lt {now : Moment} {r r' : Run} {move : Move} {effects : List Effect}
    (leg : Leg now r move r' effects) (work : move.isWork = true) (staffed : r.Staffed) :
    r'.effort < r.effort := by
  have less {stage : Stage} (later : stage.effort r.plan.crew < r.stage.effort r.plan.crew)
      (notice : Option Handle) (display : Display) (stopSent : Bool) :
      { r with stage, notice, display, stopSent }.effort < r.effort := by
    simp only [effort, crewSum]
    omega
  cases leg with
  | lost announcing => exact less (by simp [announcing, Stage.effort]) r.notice r.display true
  | overrun announcing => exact less (by simp [announcing, Stage.effort]) _ _ true
  | crew announcing =>
      simp [effort, crewSum, staffed.unstarted announcing, announcing, Stage.effort, Worker.effort,
        shown]
      omega
  | join delivering =>
      have later : (r.joined now).1.stage.effort r.plan.crew < r.stage.effort r.plan.crew := by
        unfold joined
        dsimp only
        split <;> simp [stop, delivering, Stage.effort]
      have plan := (joined_keeps now r).1
      have removals := (joined_removals now r).1
      rw [effort, effort, crewSum, crewSum, joined_workers, joined_queue, plan, removals]
      rw [List.map_nil, List.sum_nil]
      omega
  | drain draining => exact less (by simp [draining, Stage.effort]) r.notice r.display true
  | timeOut draining => exact less (by simp [draining, Stage.effort]) r.notice r.display true
  | report stopping | send stopping =>
      exact less (by simp [stopping, Stage.effort]) r.notice r.display r.stopSent
  | editLost editing => exact less (by simp [editing, Stage.effort]) r.notice r.display true
  | edited editing | resend editing =>
      exact less (by simp [editing, Stage.effort]) r.notice r.display r.stopSent
  | replyLost replying => exact less (by simp [replying, Stage.effort]) r.notice r.display true
  | replied replying =>
      exact less (by simp [replying, Stage.effort]) r.notice r.display r.stopSent
  | cancel => cases work

theorem effort_of_step {now : Moment} {r r' : Run} {move : Move} {effects : List Effect}
    (made : r.step now move = some (r', effects)) (staffed : r.Staffed) :
    r'.effort + move.isWork.toNat ≤ r.effort := by
  have work {m : Move} (less : r'.effort < r.effort) : r'.effort + m.isWork.toNat ≤ r.effort := by
    have := m.isWork.toNat_le
    omega
  cases way_of_step made with
  | worker turn => exact work turn.effort_lt
  | removal leaving => exact work leaving.effort_lt
  | display showing => cases showing <;> exact Nat.le_refl _
  | leg leg =>
      cases isWork : move.isWork with
      | true => exact leg.effort_lt isWork staffed
      | false =>
          cases leg with
          | cancel => exact Nat.le_refl _
          | lost | overrun | crew | join | drain | timeOut | report | send | editLost | edited
          | resend | replyLost | replied => cases isWork

/-- A run makes no more moves than it has left to do, beside those of the task that shows
progress. -/
theorem effort_of_course {events : List (Event Run Move)} {r r' : Run}
    (course : Course step r events r') (staffed : r.Staffed) :
    events.countP (·.move.isWork) + r'.effort ≤ r.effort := by
  have all : r'.Staffed ∧ events.countP (·.move.isWork) + r'.effort ≤ r.effort := by
    induction course with
    | start => exact ⟨staffed, by simp⟩
    | @next events now s t move effects past made ih =>
        obtain ⟨staffed, bound⟩ := ih
        refine ⟨staffed_of_step made staffed, ?_⟩
        have step := effort_of_step made staffed
        rw [List.countP_append, List.countP_singleton]
        cases isWork : move.isWork <;> simp [isWork] at step ⊢ <;> omega
  exact all.2

/-! ## Waiting for the task that shows progress -/

/-- The task that shows progress can go on as long as it has not ended, and a run that waits for
it has told it to stop. -/
structure Displayed (r : Run) : Prop where
  /-- The task has a notice to edit. -/
  shown : r.display.hasEnded = false → r.plan.progressEvery.isSome = true ∧ r.notice.isSome = true
  /-- The task is waited for only once it knows. -/
  told : r.stage = .stopping → r.stopSent = true

theorem displayed_opening (plan : Plan) (now : Moment) (cancelled : Bool) :
    (opening plan now cancelled).Displayed where
  shown going := by cases going
  told := by simp

private theorem Leg.displayed {now : Moment} {r r' : Run} {move : Move} {effects : List Effect}
    (leg : Leg now r move r' effects) (displayed : r.Displayed) : r'.Displayed := by
  have fresh (notice : Option Handle)
      (going : (r.shown notice).display.hasEnded = false) :
      r.plan.progressEvery.isSome = true ∧ notice.isSome = true := by
    by_contra hidden
    simp [Run.shown, hidden, Display.hasEnded] at going
  cases leg with
  | lost | editLost | replyLost => exact ⟨displayed.shown, fun _ => rfl⟩
  | overrun => exact ⟨fresh _, fun _ => rfl⟩
  | crew => exact ⟨fresh _, fun stopping => by cases stopping⟩
  | join =>
      unfold joined
      dsimp only
      split
      · exact ⟨displayed.shown, fun _ => rfl⟩
      · exact ⟨displayed.shown, fun stopping => by cases stopping⟩
  | drain | timeOut => exact ⟨displayed.shown, fun _ => rfl⟩
  | report | send | edited | resend | replied =>
      exact ⟨displayed.shown, fun stopping => by cases stopping⟩
  | cancel => exact ⟨displayed.shown, displayed.told⟩

theorem displayed_of_step {now : Moment} {r r' : Run} {move : Move} {effects : List Effect}
    (made : r.step now move = some (r', effects)) (displayed : r.Displayed) : r'.Displayed := by
  cases way_of_step made with
  | worker turn => cases turn <;> exact ⟨displayed.shown, displayed.told⟩
  | removal leaving => cases leaving <;> exact ⟨displayed.shown, displayed.told⟩
  | display showing =>
      cases showing with
      | begin plan sent | pass plan sent | edit plan sent | crash plan sent | answer _ plan sent
      | halt plan sent => exact ⟨fun _ => by simp [plan, sent], displayed.told⟩
  | leg leg => exact leg.displayed displayed

theorem displayed_of_course {plan : Plan} {began : Moment} {cancelled : Bool}
    {events : List (Event Run Move)} {r : Run}
    (course : Course step (opening plan began cancelled) events r) : r.Displayed :=
  course.invariant (displayed_opening plan began cancelled) displayed_of_step

/-! ## Going on -/

/-- How far the task that shows progress is from its end, once it was told to stop. -/
def Display.effort : Display → Nat
  | absent | ended => 0
  | fresh | watching _ _ => 1
  | editing _ _ => 2

/-- A run can make a move that brings it nearer to its end. -/
structure Approach (now : Moment) (r : Run) (later : Moment) (move : Move) (r' : Run) : Prop where
  /-- The clock does not go back. -/
  inOrder : now ≤ later
  /-- The run makes the move by itself. -/
  inner : move.isInner = true
  /-- The run can make the move. -/
  made : ∃ effects, r.step later move = some (r', effects)
  /-- There is less left to do. -/
  less : Prod.Lex (· < ·) (· < ·) (r'.effort, r'.display.effort) (r.effort, r.display.effort)
  /-- The run does not break down. -/
  whole : r'.stage ≠ .broken

private theorem approach_of_work {now later : Moment} {r r' : Run} {move : Move}
    {effects : List Effect} (inOrder : now ≤ later) (inner : move.isInner = true)
    (work : move.isWork = true) (made : r.step later move = some (r', effects))
    (staffed : r.Staffed) (whole : r'.stage ≠ .broken) : Approach now r later move r' := by
  refine ⟨inOrder, inner, ⟨effects, made⟩, .left _ _ ?_, whole⟩
  have step := effort_of_step made staffed
  rw [work] at step
  exact step

private theorem turn_of_going (now : Moment) {r : Run} {i : Nat} {w : Worker}
    (present : r.workers[i]? = some w) (going : w.hasEnded = false) :
    ∃ later move r' effects, now ≤ later ∧ Turn later r i move r' effects := by
  cases w with
  | idle =>
      cases queue : r.queue with
      | nil => exact ⟨now, _, _, _, Nat.le_refl _, .finish present queue⟩
      | cons job rest =>
          cases cancelled : r.tally.cancelled with
          | true => exact ⟨now, _, _, _, Nat.le_refl _, .drop present queue cancelled⟩
          | false => exact ⟨now, _, _, _, Nat.le_refl _, .take present queue cancelled⟩
  | waiting job =>
      cases jammed : Pacer.breaksDown r.plan.clocks (!r.paced) r.plan.delay with
      | true => exact ⟨now, _, _, _, Nat.le_refl _, .jam present jammed⟩
      | false =>
          cases cancelled : r.tally.cancelled with
          | true => exact ⟨now, _, _, _, Nat.le_refl _, .skip present jammed cancelled⟩
          | false => exact ⟨now, _, _, _, Nat.le_refl _, .call present jammed cancelled⟩
  | delivering job => exact ⟨now, _, _, _, Nat.le_refl _, .succeed present⟩
  | resting wakeAt =>
      exact ⟨max now wakeAt, _, _, _, Nat.le_max_left _ _,
        .wake present (Nat.le_max_right _ _)⟩
  | finished | broken => cases going

private theorem showing_of_told (now : Moment) {r : Run} (displayed : r.Displayed)
    (told : r.stopSent = true) (going : r.display.hasEnded = false) :
    ∃ move r' effects, Showing now r move r' effects ∧ r'.display.effort < r.display.effort := by
  obtain ⟨plan, sent⟩ := displayed.shown going
  obtain ⟨every, plan⟩ := Option.isSome_iff_exists.mp plan
  obtain ⟨notice, sent⟩ := Option.isSome_iff_exists.mp sent
  cases display : r.display with
  | absent | ended => simp [display, Display.hasEnded] at going
  | fresh => exact ⟨_, _, _, .begin plan sent display, by simp [told, Display.effort]⟩
  | watching next last => exact ⟨_, _, _, .halt plan sent display told, Nat.one_pos⟩
  | editing next last => exact ⟨_, _, _, .answer true plan sent display, Nat.lt_succ_self _⟩

/-- A run that is not over can go on. -/
private theorem goes_on {r : Run} (now : Moment) (staffed : r.Staffed) (displayed : r.Displayed)
    (fits : r.plan.removalPermits ≤ Plan.maxRemovalPermits) (going : r.stage.isOver = false) :
    ∃ later move r', Approach now r later move r' := by
  have leg {later : Moment} {move : Move} {r' : Run} {effects : List Effect}
      (inOrder : now ≤ later) (inner : move.isInner = true) (work : move.isWork = true)
      (leg : Leg later r move r' effects) (whole : r'.stage ≠ .broken) :
      ∃ later move r', Approach now r later move r' :=
    ⟨_, _, _, approach_of_work inOrder inner work leg.step staffed whole⟩
  cases stage : r.stage with
  | announcing =>
      have start : Leg now r (.announced (.gave none)) _ _ := .crew stage (Nat.not_lt.mpr fits)
      exact leg (Nat.le_refl _) rfl rfl start (by simp)
  | delivering =>
      cases ended : r.workers.all Worker.hasEnded with
      | true => exact leg (Nat.le_refl _) rfl rfl (.join stage ended) (unbroken_joined now r)
      | false =>
          obtain ⟨w, present, going⟩ := List.all_eq_false.mp ended
          obtain ⟨i, inside, rfl⟩ := List.getElem_of_mem present
          obtain ⟨later, move, r', effects, inOrder, turn⟩ :=
            turn_of_going now (List.getElem?_eq_getElem inside) (Bool.not_eq_true _ ▸ going)
          refine ⟨later, .worker i move, r', approach_of_work inOrder rfl rfl turn.stepWorker
            staffed ?_⟩
          rw [turn.keeps.2.2.1, stage]
          exact Stage.noConfusion
  | draining deadline =>
      exact leg (Nat.le_max_left _ _) rfl rfl (.timeOut stage (Nat.le_max_right now deadline))
        (by simp [stop])
  | stopping =>
      cases ended : r.display.hasEnded with
      | true =>
          cases notice : r.notice with
          | none => exact leg (Nat.le_refl _) rfl rfl (.send stage ended notice) (by simp)
          | some notice' => exact leg (Nat.le_refl _) rfl rfl (.report stage ended notice) (by simp)
      | false =>
          obtain ⟨move, r', effects, showing, less⟩ :=
            showing_of_told now displayed (displayed.told stage) ended
          have same : r'.effort = r.effort ∧ r'.stage = r.stage := by
            cases showing <;> exact ⟨rfl, rfl⟩
          refine ⟨now, .display move, r', Nat.le_refl _, rfl, ⟨effects, showing.stepDisplay⟩, ?_,
            ?_⟩
          · rw [same.1]
            exact .right _ less
          · rw [same.2, stage]
            exact Stage.noConfusion
  | editing report => exact leg (Nat.le_refl _) rfl rfl (.edited stage) (by simp)
  | replying report => exact leg (Nat.le_refl _) rfl rfl (.replied stage) (by simp)
  | finished | broken => simp [stage, Stage.isOver] at going

/-- A run that has not broken down can go on by itself until it has reported. -/
theorem ends_of_unbroken {r : Run} (now : Moment) (staffed : r.Staffed) (displayed : r.Displayed)
    (fits : r.plan.removalPermits ≤ Plan.maxRemovalPermits) (whole : r.stage ≠ .broken) :
    ∃ events r' report, Course step r events r' ∧
      (∀ e ∈ events, now ≤ e.moment ∧ e.move.isInner = true) ∧ InOrder events ∧
      r'.stage = .finished report := by
  cases ended : r.stage.isOver with
  | true =>
      cases stage : r.stage with
      | finished report => exact ⟨[], r, report, .start, by simp, .nil, stage⟩
      | broken => exact absurd stage whole
      | announcing | delivering | draining | stopping | editing | replying =>
          simp [stage, Stage.isOver] at ended
  | false =>
      obtain ⟨later, move, r', approach⟩ := goes_on now staffed displayed fits ended
      obtain ⟨effects, made⟩ := approach.made
      obtain ⟨events, last, report, course, inner, inOrder, finished⟩ :=
        ends_of_unbroken later (staffed_of_step made staffed) (displayed_of_step made displayed)
          (by rw [(plan_of_step made).1]; exact fits) approach.whole
      refine ⟨⟨later, r, move, r', effects⟩ :: events, last, report,
        (Course.single made).append course, ?_, ?_, finished⟩
      · intro e member
        rcases List.mem_cons.mp member with rfl | member
        · exact ⟨approach.inOrder, approach.inner⟩
        · exact ⟨Nat.le_trans approach.inOrder (inner e member).1, (inner e member).2⟩
      · exact List.pairwise_cons.mpr ⟨fun e member => (inner e member).1, inOrder⟩
termination_by (r.effort, r.display.effort)
decreasing_by exact approach.less

end Run

end Broadcast
