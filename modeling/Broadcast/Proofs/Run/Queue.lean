import Broadcast.Proofs.Run.Attempts

/-!
# The queue of a run

Jobs leave the queue at its front and come back at its end. So as long as the crew is at work, all
jobs that were ever taken, followed by those that wait, are the fresh jobs of the targets followed
by all that were ever put back:

`taken ++ queue = fresh ++ putBack`

Each job that was put back has been so at least once and no more often than the plan allows; hence
none of them is taken before the last fresh one.
-/

namespace Broadcast.Run

/-- The job that a worker takes out of the queue with an event. -/
def taken? (e : Event Run Move) : Option Job :=
  match e.move with
  | .worker _ .pop => e.before.queue.head?
  | _ => none

/-- The job that a worker puts at the end of the queue with an event. -/
def putBack? (e : Event Run Move) : Option Job :=
  match e.move with
  | .worker _ (.answered _) => e.after.queue[e.before.queue.length]?
  | _ => none

/-- The jobs that were taken out of the queue, in order. -/
def taken (events : List (Event Run Move)) : List Job :=
  events.filterMap taken?

/-- The jobs that were put back, in order. -/
def putBack (events : List (Event Run Move)) : List Job :=
  events.filterMap putBack?

theorem taken_concat (events : List (Event Run Move)) (e : Event Run Move) :
    taken (events ++ [e]) = taken events ++ (taken? e).toList := by
  rw [taken, List.filterMap_append, ← taken]
  cases job : taken? e <;> simp [job]

theorem putBack_concat (events : List (Event Run Move)) (e : Event Run Move) :
    putBack (events ++ [e]) = putBack events ++ (putBack? e).toList := by
  rw [putBack, List.filterMap_append, ← putBack]
  cases job : putBack? e <;> simp [job]

/-! ## One move -/

section Moves

variable {now : Moment} {r r' : Run} {move : Move} {effects : List Effect}

theorem untouched_of_not_worker (other : ∀ i m, move ≠ .worker i m) :
    taken? ⟨now, r, move, r', effects⟩ = none ∧ putBack? ⟨now, r, move, r', effects⟩ = none := by
  cases move with
  | worker i m => exact absurd rfl (other i m)
  | announced | removal | display | joined | drained | timedOut | concluded | edited | replied
  | cancel => exact ⟨rfl, rfl⟩

private theorem Turn.queue {i : Nat} {move : WorkerMove}
    (turn : Turn now r i move r' effects) :
    (taken? ⟨now, r, .worker i move, r', effects⟩).toList ++ r'.queue =
      r.queue ++ (putBack? ⟨now, r, .worker i move, r', effects⟩).toList := by
  cases turn with
  | finish _ empty => simp [taken?, putBack?, setWorker, empty]
  | drop _ front | take _ front => simp [taken?, putBack?, front]
  | jam | skip | call | wake | crash | succeed => simp [taken?, putBack?, setWorker]
  | postpone => simp [taken?, putBack?]
  | exhaust | dismiss | refuse => simp [taken?, putBack?, fail, setWorker]

theorem queue_of_step (made : r.step now move = some (r', effects)) :
    (taken? ⟨now, r, move, r', effects⟩).toList ++ r'.queue =
        r.queue ++ (putBack? ⟨now, r, move, r', effects⟩).toList ∨
      r'.stage.isClosing = true ∧ r'.queue = [] ∧
        putBack? ⟨now, r, move, r', effects⟩ = none := by
  cases change_of_step made with
  | turn turn => exact .inl turn.queue
  | crew => exact .inl (List.append_nil _).symm
  | join => exact .inr ⟨stage_joined now r, joined_queue now r, rfl⟩
  | aside aside other =>
      have untouched : taken? ⟨now, r, move, r', effects⟩ = none ∧
          putBack? ⟨now, r, move, r', effects⟩ = none := untouched_of_not_worker other
      rw [untouched.1, untouched.2, aside.queue]
      exact .inl (List.append_nil _).symm

theorem retries_of_putBack (made : r.step now move = some (r', effects)) {job : Job}
    (back : putBack? ⟨now, r, move, r', effects⟩ = some job) :
    1 ≤ job.retries ∧ job.retries ≤ r.plan.maxRetries := by
  cases change_of_step made with
  | turn turn =>
      cases turn with
      | @postpone job' _ _ _ _ spare =>
          obtain rfl : job'.again = job := by simpa [putBack?] using back
          rw [UInt32.lt_iff_toNat_lt] at spare
          rw [UInt32.le_iff_toNat_le, UInt32.le_iff_toNat_le, retries_again spare]
          exact ⟨Nat.le_add_left _ _, spare⟩
      | finish | drop | take | jam | skip | call | wake => cases back
      | crash | succeed | exhaust | dismiss | refuse =>
          simp [putBack?, fail, setWorker] at back
  | crew | join => cases back
  | aside _ other => cases (untouched_of_not_worker other).2.symm.trans back

theorem delivering_of_taken (made : r.step now move = some (r', effects)) (staffed : r.Staffed)
    {job : Job} (took : taken? ⟨now, r, move, r', effects⟩ = some job) :
    r.stage = .delivering := by
  cases change_of_step made with
  | turn turn => exact turn.delivering staffed
  | crew | join => cases took
  | aside _ other => cases (untouched_of_not_worker other).1.symm.trans took

theorem underWay_of_step (made : r.step now move = some (r', effects))
    (goesOn : r'.stage = .announcing ∨ r'.stage = .delivering) :
    r.stage = .announcing ∨ r.stage = .delivering := by
  cases change_of_step made with
  | turn turn => rwa [turn.keeps.2.2.1] at goesOn
  | crew announcing => exact .inl announcing
  | join delivering => exact .inr delivering
  | aside aside =>
      rcases aside.stage with same | ⟨before, -⟩ | ⟨-, after⟩
      · rwa [same] at goesOn
      · exact .inl before
      · rcases goesOn with goesOn | goesOn <;> simp [goesOn, Stage.isClosing] at after

end Moves

/-! ## A whole run -/

section Courses

variable {plan : Plan} {began : Moment} {cancelled : Bool} {events : List (Event Run Move)}
  {r : Run}

/-- The jobs that wait are the last ones of all that ever waited; until the crew has ended, the
others are those that were taken. -/
theorem queue_of_course (course : Course step (opening plan began cancelled) events r) :
    ∃ left, left ++ r.queue = plan.targets.map Job.fresh ++ putBack events ∧
      (r.stage = .announcing ∨ r.stage = .delivering → left = taken events) := by
  induction course with
  | start => exact ⟨[], by simp [putBack], fun _ => rfl⟩
  | @next events now s t move effects past made ih =>
      obtain ⟨left, whole, same⟩ := ih
      rw [putBack_concat, taken_concat]
      rcases queue_of_step made with moved | ⟨closing, empty, none⟩
      · refine ⟨left ++ (taken? ⟨now, s, move, t, effects⟩).toList, ?_, fun goesOn => ?_⟩
        · rw [List.append_assoc, moved, ← List.append_assoc, whole, List.append_assoc]
        · rw [same (underWay_of_step made goesOn)]
      · refine ⟨left ++ s.queue, ?_, fun goesOn => ?_⟩
        · rw [empty, none, List.append_nil, whole]
          exact congrArg _ (List.append_nil _).symm
        · rcases goesOn with goesOn | goesOn <;> simp [goesOn, Stage.isClosing] at closing

/-- Each job that was put back has been so at least once, and not too often. -/
theorem retries_of_course (course : Course step (opening plan began cancelled) events r)
    {job : Job} (back : job ∈ putBack events) :
    1 ≤ job.retries ∧ job.retries ≤ plan.maxRetries := by
  induction course with
  | start => cases back
  | @next events now s t move effects past made ih =>
      rw [putBack_concat, List.mem_append, Option.mem_toList] at back
      rcases back with before | now
      · exact ih before
      · have same : s.plan = plan := (plan_of_course past).1
        rw [← same]
        exact retries_of_putBack made now

/-- In front of the queue are the fresh jobs of the last targets, behind them jobs that were put
back. -/
theorem parts_of_queue (course : Course step (opening plan began cancelled) events r) :
    ∃ last back, r.queue = last.map Job.fresh ++ back ∧ last <:+ plan.targets ∧
      ∀ job ∈ back, 1 ≤ job.retries ∧ job.retries ≤ plan.maxRetries := by
  obtain ⟨left, whole, -⟩ := queue_of_course course
  rcases List.append_eq_append_iff.mp whole with ⟨front, fresh, queue⟩ | ⟨front, -, back⟩
  · obtain ⟨first, last, targets, -, rfl⟩ := List.map_eq_append_iff.mp fresh
    exact ⟨last, putBack events, queue, ⟨first, targets.symm⟩, fun _ => retries_of_course course⟩
  · refine ⟨[], r.queue, rfl, List.nil_suffix, fun job waits => retries_of_course course ?_⟩
    rw [back]
    exact List.mem_append_right _ waits

/-- A job that was put back is taken only after all fresh ones. -/
theorem fresh_taken_of_retry {past rest : List (Event Run Move)} {e : Event Run Move}
    (course : Course step (opening plan began cancelled) (past ++ e :: rest) r) {job : Job}
    (took : taken? e = some job) (again : job.retries ≠ 0) :
    plan.targets.map Job.fresh <+: taken past := by
  obtain ⟨early, made, -⟩ := course.around
  obtain ⟨left, whole, same⟩ := queue_of_course early
  have delivering := delivering_of_taken made (staffed_of_course early) took
  obtain rfl := same (.inr delivering)
  rcases List.append_eq_append_iff.mp whole with ⟨front, fresh, queue⟩ | ⟨front, left, -⟩
  · have first : e.before.queue.head? = some job := by
      unfold taken? at took
      split at took
      · exact took
      · cases took
    cases front with
    | nil => exact ⟨[], by rw [fresh, List.append_nil, List.append_nil]⟩
    | cons next front =>
        exfalso
        obtain rfl : next = job := by simpa [queue] using first
        have member : next ∈ plan.targets.map Job.fresh := by simp [fresh]
        obtain ⟨x, -, rfl⟩ := List.mem_map.mp member
        exact again rfl
  · exact ⟨front, left.symm⟩

end Courses

end Broadcast.Run
