import Broadcast.Proofs.Run.Pending

/-!
# Nobody leaves work behind

A worker ends when it finds the queue empty, though other workers may still put jobs back. Each of
these is a worker that goes on, so there are never more jobs in the queue than workers to take
them; a crew in which nobody breaks down does not end before all jobs have.
-/

namespace Broadcast.Run

/-- A worker that will look into the queue with nothing in hand. -/
def Worker.free : Worker → Nat
  | idle | resting _ => 1
  | waiting _ | delivering _ | finished | broken => 0

/-- Once a worker has found the queue empty, the free workers can take all that is in it. -/
def Slack (r : Run) : Prop :=
  .finished ∈ r.workers → r.queue.length ≤ r.crewSum Worker.free

/-- A turn takes from the queue or adds to it no more than one free worker can handle. -/
private theorem Turn.free {now : Moment} {r r' : Run} {i : Nat} {move : WorkerMove}
    {effects : List Effect} (turn : Turn now r i move r' effects) :
    r'.queue = [] ∨ ((.finished ∈ r'.workers → .finished ∈ r.workers) ∧
      r'.queue.length + r.crewSum Worker.free ≤ r.queue.length + r'.crewSum Worker.free) := by
  have still {w : Worker} (w' : Worker) (present : r.workers[i]? = some w)
      (set : r'.workers = r.workers.set i w') (going : w' ≠ .finished)
      (room : r'.queue.length + w.free ≤ r.queue.length + w'.free) :
      (.finished ∈ r'.workers → .finished ∈ r.workers) ∧
        r'.queue.length + r.crewSum Worker.free ≤ r.queue.length + r'.crewSum Worker.free := by
    constructor
    · intro finished
      rw [set] at finished
      exact (List.mem_or_eq_of_mem_set finished).resolve_right (Ne.symm going)
    · have change := crewSum_of_set Worker.free present set
      omega
  cases turn with
  | finish idle empty => exact .inl empty
  | drop idle front =>
      exact .inr (still .idle idle rfl (by simp) (by simp [front, Worker.free]))
  | @take job _ idle front =>
      exact .inr (still (.waiting job) idle rfl (by simp) (by simp [front, Worker.free]))
  | jam present | crash present =>
      exact .inr (still .broken present rfl (by simp) (Nat.le_refl _))
  | @call job present =>
      exact .inr (still (.delivering job) present rfl (by simp) (Nat.le_refl _))
  | @postpone job error wait present =>
      exact .inr (still (.resting (r.plan.clocks.after now wait)) present rfl (by simp)
        (by simp [Worker.free]))
  | skip present | succeed present | exhaust present | dismiss present | refuse present =>
      exact .inr (still .idle present rfl (by simp) (Nat.le_succ _))
  | wake resting => exact .inr (still .idle resting rfl (by simp) (Nat.le_refl _))

theorem slack_opening (plan : Plan) (now : Moment) (cancelled : Bool) :
    (opening plan now cancelled).Slack := by
  simp [Slack]

theorem slack_of_step {now : Moment} {r r' : Run} {move : Move} {effects : List Effect}
    (made : r.step now move = some (r', effects)) (slack : r.Slack) : r'.Slack := by
  intro finished
  cases change_of_step made with
  | turn turn =>
      rcases turn.free with empty | ⟨before, room⟩
      · simp [empty]
      · have := slack (before finished)
        omega
  | crew => simp [List.mem_replicate] at finished
  | join => simp [joined_queue]
  | aside aside =>
      rw [aside.workers] at finished
      rw [aside.queue, crewSum, aside.workers]
      exact slack finished

theorem lost_eq_zero_iff {r : Run} : r.lost = 0 ↔ .broken ∉ r.workers := by
  constructor
  · intro none broken
    have one : Worker.lost .broken ≤ r.lost := le_crewSum broken
    rw [none] at one
    cases one
  · intro whole
    apply crewSum_eq_zero
    intro w present
    cases w with
    | broken => exact absurd present whole
    | idle | waiting | delivering | resting | finished => rfl

/-- A delivery breaks down, and its worker with it. -/
def crashes (e : Event Run Move) : Bool :=
  match e.move with
  | .worker _ (.answered .broke) => true
  | _ => false

/-- The stream of permits breaks down, and a worker with it. -/
def jams (e : Event Run Move) : Bool :=
  match e.move with
  | .worker _ .permit => Pacer.breaksDown e.before.plan.clocks (!e.before.paced) e.before.plan.delay
  | _ => false

/-- A stream of permits breaks down only if its interval is nearly as long as a clock of 64 bits
runs. -/
theorem jams_of_course {r r' : Run} {events : List (Event Run Move)}
    (course : Course step r events r')
    (short : r.plan.delay.nanos + max r.plan.clocks.youngest r.plan.clocks.age < 2 ^ 64)
    {e : Event Run Move} (member : e ∈ events) : jams e = false := by
  obtain ⟨past, rest, rfl⟩ := List.append_of_mem member
  have plan := (plan_of_course course.around.1).1
  unfold jams
  split
  · rw [plan, Pacer.breaksDown, decide_eq_false_iff_not]
    split <;> omega
  · rfl

/-- Workers break down over deliveries and over permits only. -/
theorem whole_of_course {r r' : Run} {events : List (Event Run Move)}
    (course : Course step r events r') (calm : ∀ e ∈ events, crashes e = false)
    (paced : ∀ e ∈ events, jams e = false) (whole : .broken ∉ r.workers) :
    .broken ∉ r'.workers := by
  induction course with
  | start => exact whole
  | @next events now s t move effects _ made ih =>
      have before := ih (fun e member => calm e (List.mem_append_left _ member))
        fun e member => paced e (List.mem_append_left _ member)
      have last := List.mem_append_right events
        (List.mem_singleton_self (⟨now, s, move, t, effects⟩ : Event Run Move))
      have still {i : Nat} {w : Worker} (going : w ≠ .broken) :
          .broken ∉ s.workers.set i w := fun broken =>
        (List.mem_or_eq_of_mem_set broken).elim before fun same => going same.symm
      cases change_of_step made with
      | turn turn =>
          cases turn with
          | jam _ jammed => cases jammed.symm.trans (paced _ last)
          | crash => cases calm _ last
          | finish | drop | take | skip | call | succeed | postpone | exhaust | dismiss | refuse
          | wake => exact still (by simp)
      | crew => simp [List.mem_replicate]
      | join => rwa [joined_workers]
      | aside aside => rwa [aside.workers]

/-- Where fewer jobs were lost than there are workers, one of those who have ended found the queue
empty. -/
theorem survivor_of_lost {r : Run} (ended : r.workers.all Worker.hasEnded = true)
    (fewer : r.lost < r.workers.length) : .finished ∈ r.workers := by
  by_contra none
  have all : ∀ w ∈ r.workers, w = .broken := by
    intro w present
    have ended := List.all_eq_true.mp ended w present
    cases w with
    | broken => rfl
    | finished => exact absurd present none
    | idle | waiting | delivering | resting => cases ended
  rw [lost, crewSum, List.eq_replicate_of_mem all, List.map_replicate, List.sum_replicate] at fewer
  simp [Worker.lost] at fewer

theorem pending_of_survivor {r : Run} (slack : r.Slack)
    (ended : r.workers.all Worker.hasEnded = true) (survivor : .finished ∈ r.workers) :
    r.pending = 0 := by
  have none : r.crewSum Worker.free = 0 := by
    apply crewSum_eq_zero
    intro w present
    have := List.all_eq_true.mp ended w present
    cases w <;> first | rfl | cases this
  have empty := slack survivor
  rw [none, Nat.le_zero, List.length_eq_zero_iff] at empty
  rw [pending_of_ended ended, queued, empty]
  rfl

theorem pending_of_finished {r : Run} (staffed : r.Staffed) (slack : r.Slack)
    (delivering : r.stage = .delivering) (ended : r.workers.all Worker.hasEnded = true)
    (whole : r.lost = 0) : r.pending = 0 := by
  refine pending_of_survivor slack ended (survivor_of_lost ended ?_)
  rw [whole]
  exact List.length_pos_of_ne_nil (staffed.started delivering)

end Broadcast.Run
