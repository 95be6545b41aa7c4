import Broadcast.Proofs.Dispatcher.Launch
import Broadcast.Proofs.Run.Chances
import Broadcast.Proofs.Run.Fates

/-!
# Workers come to an end

Workers feed the queue that they empty, and yet they end. Each job is taken only so often, so a run
makes only so many moves, whatever its workers are answered and however they take turns; and a
worker that has not ended can always go on, once its delivery is answered or its rest is over. So if
deliveries and rests end, the whole crew does, and the run goes on to its report.
-/

namespace Broadcast

open Run

/-- When a worker can go on: at once, unless it rests. -/
def Run.Worker.due : Worker → Moment
  | resting wakeAt => wakeAt
  | idle | waiting _ | delivering _ | finished | broken => 0

/-- What bounds the work of a crew, and what it can do at any moment. -/
structure CrewBounded (plan : Plan) (events : List (Event Run Move)) (r : Run) : Prop where
  /-- Jobs are taken no more often than each target could be tried. -/
  pops : (taken events).length ≤ plan.targets.length * (plan.maxRetries.toNat + 1)
  /-- So there are only so many moves, beside those of the task that shows progress. -/
  moves : events.countP (·.move.isWork) ≤
    plan.targets.length * (4 * plan.maxRetries.toNat + 5) + plan.crew + 6
  /-- The retries of a job that is put back can be counted. -/
  counts : ∀ e ∈ events, ∀ back, putBack? e = some back → ∃ (i : Nat) (job : Job),
    e.before.workers[i]? = some (.delivering job) ∧ job.again? = some back ∧
    back.retries.toNat = job.retries.toNat + 1
  /-- A worker that has not ended can go on. -/
  goesOn : ∀ (i : Nat) w, r.workers[i]? = some w → w.hasEnded = false →
    ∃ move, ∀ now, w.due ≤ now → (r.step now (.worker i move)).isSome = true
  /-- A delivery can be answered at any moment, in any way. -/
  answers : ∀ (i : Nat) job, r.workers[i]? = some (.delivering job) →
    ∀ now answer, (r.step now (.worker i (.answered answer))).isSome = true
  /-- Nothing but workers that have not ended holds up a run that delivers. -/
  joins : r.stage = .delivering → r.workers.all Worker.hasEnded = true → ∀ now,
    r.step now .joined = some (r.joined now) ∧ (r.joined now).1.stage.isClosing = true

/-- Events without end, each beginning where the one before it ended. -/
structure Endless (first : Run) (e : Nat → Event Run Move) : Prop where
  /-- The first one begins here. -/
  start : (e 0).before = first
  /-- The moves are really made. -/
  made : ∀ n, (e n).before.step (e n).moment (e n).move = some ((e n).after, (e n).effects)
  /-- No move is left out. -/
  next : ∀ n, (e (n + 1)).before = (e n).after

/-- Nobody who can go on waits for ever. -/
structure Fair (e : Nat → Event Run Move) : Prop where
  /-- As long as some workers have not ended, one of them goes on some time: not all of their
  deliveries and rests last for ever. -/
  crew : ∀ n, (e n).before.workers.all Worker.hasEnded = false →
    ∃ m, n ≤ m ∧ ∃ i move, (e m).move = .worker i move
  /-- A run whose crew has ended takes notice of it. -/
  join : ∀ n, (e n).before.stage = .delivering →
    (e n).before.workers.all Worker.hasEnded = true → ∃ m, n ≤ m ∧ (e m).move = .joined

namespace Run

/-! ## Finitely many events -/

theorem effort_opening (plan : Plan) (now : Moment) (cancelled : Bool) :
    (opening plan now cancelled).effort =
      plan.targets.length * (4 * plan.maxRetries.toNat + 5) + plan.crew + 6 := by
  have fresh : Job.effort plan.maxRetries ∘ Job.fresh =
      Function.const _ (4 * plan.maxRetries.toNat + 5) := rfl
  have nobody : (opening plan now cancelled).removals = [] := rfl
  simp [effort, crewSum, fresh, nobody, Stage.effort]
  omega

private theorem goesOn {r : Run} {i : Nat} {w : Worker} (present : r.workers[i]? = some w)
    (going : w.hasEnded = false) :
    ∃ move, ∀ now, w.due ≤ now → (r.step now (.worker i move)).isSome = true := by
  cases w with
  | idle => exact ⟨.pop, fun now _ => by simp [step, stepWorker, present]⟩
  | waiting job => exact ⟨.permit, fun now _ => by simp [step, stepWorker, present]⟩
  | delivering job =>
      exact ⟨.answered .broke, fun now _ => by simp [step, stepWorker, present]⟩
  | resting wakeAt =>
      refine ⟨.wake, fun now late => ?_⟩
      have late : wakeAt ≤ now := late
      simp [step, stepWorker, present, late]
  | finished | broken => cases going

section Courses

variable {plan : Plan} {began : Moment} {cancelled : Bool} {events : List (Event Run Move)}
  {r : Run}

private theorem crewBounded_of_course
    (course : Course step (opening plan began cancelled) events r) :
    CrewBounded plan events r := by
  constructor
  · have chances := chances_of_course course
    rw [chances_opening] at chances
    omega
  · have effort := effort_of_course course (staffed_opening plan began cancelled)
    rw [effort_opening] at effort
    omega
  · intro e member back came
    obtain ⟨past, rest, rfl⟩ := List.append_of_mem member
    exact again_of_putBack course.around.2.1 came
  · exact fun i w => goesOn
  · intro i job present now answer
    cases answer <;> simp [step, stepWorker, present]
  · intro delivering ended now
    exact ⟨by simp [step, delivering, ended], stage_joined now r⟩

end Courses

private theorem delivering_of_worker {now : Moment} {r r' : Run} {i : Nat} {move : WorkerMove}
    {effects : List Effect} (made : r.step now (.worker i move) = some (r', effects))
    (staffed : r.Staffed) : r'.effort < r.effort ∧ r'.stage = .delivering := by
  refine ⟨effort_of_step made staffed, ?_⟩
  cases way_of_step made with
  | worker turn =>
      obtain ⟨-, -, stage, -, -⟩ := turn.keeps
      rw [stage, turn.delivering staffed]
  | leg leg => cases leg

end Run

/-! ## Events without end -/

namespace Endless

variable {first : Run} {e : Nat → Event Run Move}

/-- A cancelled run can be cancelled without end, which leaves it as it is. -/
theorem of_course {events : List (Event Run Move)} {last : Run}
    (course : Course step first events last) (cancelled : last.tally.cancelled = true)
    (now : Moment) : Endless first fun n => events[n]?.getD ⟨now, last, .cancel, last, []⟩ := by
  have still : last.step now .cancel = some (last, []) := by
    simp [step, Tally.cancel, ← cancelled]
  induction events generalizing first with
  | nil =>
      obtain rfl := course.eq_of_nil
      exact ⟨rfl, fun _ => still, fun _ => rfl⟩
  | cons e events ih =>
      have whole : Course step first ([] ++ e :: events) last := course
      obtain ⟨none, made, rest⟩ := whole.around
      obtain ⟨start, makes, next⟩ := ih rest
      refine ⟨none.eq_of_nil, fun n => ?_, fun n => ?_⟩
      · cases n with
        | zero => exact made
        | succ n => exact makes n
      · cases n with
        | zero => exact start
        | succ n => exact next n

theorem invariant {P : Run → Prop} (endless : Endless first e) (holds : P first)
    (keeps : ∀ {now r move r' effects}, step now r move = some (r', effects) → P r → P r')
    (n : Nat) : P (e n).before := by
  induction n with
  | zero => exact endless.start ▸ holds
  | succ n ih => exact endless.next n ▸ keeps (endless.made n) ih

private theorem effort_antitone (endless : Endless first e) (staffed : first.Staffed) :
    Antitone fun n => (e n).before.effort := by
  refine antitone_nat_of_succ_le fun n => ?_
  have step := effort_of_step (endless.made n) (endless.invariant staffed staffed_of_step n)
  rw [endless.next]
  exact Nat.le_of_add_right_le step

/-- In events without end a run that delivers comes to its end, if nobody waits for ever. -/
private theorem closes (endless : Endless first e) (staffed : first.Staffed) (fair : Fair e)
    (n : Nat) (delivering : (e n).before.stage = .delivering) :
    ∃ m, n ≤ m ∧ (e m).after.stage.isClosing = true := by
  cases ended : (e n).before.workers.all Worker.hasEnded with
  | true =>
      obtain ⟨m, later, join⟩ := fair.join n delivering ended
      have made := endless.made m
      rw [join] at made
      exact ⟨m, later, (closing_of_joined made).2⟩
  | false =>
      -- Some worker goes on later, which leaves less to do: the induction is on what is left.
      obtain ⟨m, later, i, move, turn⟩ := fair.crew n ended
      have made := endless.made m
      rw [turn] at made
      obtain ⟨less, goesOn⟩ :=
        delivering_of_worker made (endless.invariant staffed staffed_of_step m)
      have notMore : (e m).before.effort ≤ (e n).before.effort :=
        endless.effort_antitone staffed later
      obtain ⟨k, farther, closing⟩ :=
        endless.closes staffed fair (m + 1) (endless.next m ▸ goesOn)
      exact ⟨k, by omega, closing⟩
termination_by (e n).before.effort
decreasing_by
  rw [endless.next]
  exact Nat.lt_of_lt_of_le less notMore

end Endless

/-- Whatever the workers of a run are answered and however they take turns, they take only so many
jobs and make only so many moves, and no worker is stuck. So in events without end in which nobody
waits for ever the whole crew ends, and the run goes on to its report. -/
theorem workers_come_to_an_end (plan : Plan) (began : Moment) (cancelled : Bool) :
    (∀ events r, Course Run.step (.opening plan began cancelled) events r →
      CrewBounded plan events r) ∧
    ∀ e, Endless (.opening plan began cancelled) e → Fair e →
      ∀ n, (e n).before.stage = .delivering → ∃ m, n ≤ m ∧
        (e m).after.workers.all Worker.hasEnded = true ∧ (e m).after.stage.isClosing = true := by
  refine ⟨fun events r => crewBounded_of_course, fun e endless fair n delivering => ?_⟩
  have staffed := staffed_opening plan began cancelled
  obtain ⟨m, later, closing⟩ := endless.closes staffed fair n delivering
  have after := staffed_of_step (endless.made m) (endless.invariant staffed staffed_of_step m)
  exact ⟨m, later, (after.closed closing).2.1, closing⟩

/-- The only worker takes the only job as often as it can: a rate limit puts it back, and it rests,
wakes and delivers once more. Afterwards the run is cancelled without end, which leaves it as it
is. -/
theorem workers_come_to_an_end_after_rest : ∃ plan events r e,
    Course Run.step (.opening plan 0 false) events r ∧ plan.targets = [⟨1⟩] ∧
    plan.maxRetries = 1 ∧ (taken events).length = 2 ∧ CrewBounded plan events r ∧
    Endless (.opening plan 0 false) e ∧ Fair e ∧ (e 1).before.stage = .delivering ∧
    ∃ m, 1 ≤ m ∧ (e m).after.workers.all Worker.hasEnded = true ∧
      (e m).after.stage.isClosing = true := by
  have course := course_of_replay Run.step
    (.opening ((Dispatcher.start { workers := 1, maxRetries := 1 }
      (.ofUsers [⟨1⟩] (by decide))).plan { source := ⟨-42, 7⟩ } (.ofUsers [⟨1⟩])) 0 false)
    [(0, .announced (.gave none)), (0, .worker 0 .pop), (0, .worker 0 .permit),
      (0, .worker 0 (.answered (.gave (.error (.rateLimited (.ofSecs 1)))))),
      (1000000000, .worker 0 .wake), (1000000000, .worker 0 .pop),
      (1000000000, .worker 0 .permit), (1000000000, .worker 0 (.answered (.gave (.ok ())))),
      (1000000000, .worker 0 .pop), (1000000000, .joined), (1000000000, .cancel)] rfl
  have endless := Endless.of_course course rfl 1000000000
  obtain ⟨bounded, ends⟩ := workers_come_to_an_end _ _ _
  refine ⟨_, _, _, _, course, rfl, rfl, rfl, bounded _ _ course, endless, ?fair, rfl,
    ends _ endless ?fair 1 rfl⟩
  refine ⟨fun n going => ?_, fun n delivering ended => ?_⟩
  · by_cases early : n ≤ 8
    · exact ⟨8, early, 0, .pop, rfl⟩
    · obtain ⟨n, rfl⟩ : ∃ k, n = k + 9 := ⟨n - 9, by omega⟩
      rcases n with _ | _ | n <;> cases going
  · by_cases early : n ≤ 9
    · exact ⟨9, early, rfl⟩
    · obtain ⟨n, rfl⟩ : ∃ k, n = k + 10 := ⟨n - 10, by omega⟩
      rcases n with _ | n <;> cases delivering

end Broadcast
