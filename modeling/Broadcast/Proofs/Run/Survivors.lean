import Broadcast.Proofs.Run.Fates

/-!
# What a worker takes with it

A worker that breaks down takes the job in its hand and nothing else. As long as somebody else goes
on, all other jobs are carried through: nobody who has a job is forgotten, unless a worker broke
down over the permit for it.
-/

namespace Broadcast.Run

theorem calm_of_not_worker {e : Event Run Move} (other : ∀ i m, e.move ≠ .worker i m) :
    crashes e = false ∧ jams e = false := by
  unfold crashes jams
  constructor
  · split
    next i move => exact absurd move (other i _)
    next => rfl
  · split
    next i move => exact absurd move (other i _)
    next => rfl

/-- A recipient has a job, or has been tried, or a worker broke down over the permit for its job. -/
def Reached (events : List (Event Run Move)) (r : Run) (x : Recipient) : Prop :=
  x ∈ r.recipients ∨ 0 < attemptsTo x events ∨ ∃ e ∈ events, jams e = true ∧ Loses x e

section Moves

variable {now : Moment} {r r' : Run} {move : Move} {effects : List Effect}
  {events : List (Event Run Move)} {x : Recipient}

theorem lost_of_step (made : r.step now move = some (r', effects)) (staffed : r.Staffed) :
    r'.lost = r.lost + [(⟨now, r, move, r', effects⟩ : Event Run Move)].countP crashes +
      [(⟨now, r, move, r', effects⟩ : Event Run Move)].countP jams := by
  have free (calm : crashes ⟨now, r, move, r', effects⟩ = false)
      (paced : jams ⟨now, r, move, r', effects⟩ = false) (whole : r'.lost = r.lost) :
      r'.lost = r.lost + [(⟨now, r, move, r', effects⟩ : Event Run Move)].countP crashes +
        [(⟨now, r, move, r', effects⟩ : Event Run Move)].countP jams := by
    simp [calm, paced, whole]
  cases change_of_step made with
  | turn turn =>
      cases turn.toll with
      | free calm paced whole => exact free calm paced whole
      | lose begun crashed jammed lost => cases begun <;> simp [crashed, jammed, lost]
  | crew announcing => exact free rfl rfl (lost_of_crew staffed announcing rfl)
  | join => exact free rfl rfl (by rw [lost, lost, crewSum, crewSum, joined_workers])
  | aside aside other =>
      obtain ⟨calm, paced⟩ := calm_of_not_worker (e := ⟨now, r, move, r', effects⟩) other
      exact free calm paced (pending_congr aside.queue aside.workers).2

private theorem Reached.append (e : Event Run Move)
    (reached : 0 < attemptsTo x events ∨ ∃ e ∈ events, jams e = true ∧ Loses x e) :
    Reached (events ++ [e]) r' x := by
  rcases reached with tried | ⟨e', member, jammed⟩
  · exact .inr (.inl (by rw [attemptsTo_concat]; exact Nat.add_pos_left tried _))
  · exact .inr (.inr ⟨e', List.mem_append_left _ member, jammed⟩)

private theorem tried_of_begun {job : Job} {rest : Multiset (Job × Bool)}
    (tracked : Tracked events r) (before : r.pending = (job, true) ::ₘ rest) :
    0 < attemptsTo job.recipient events := by
  obtain ⟨begun, -⟩ := tracked.pending _ (before ▸ Multiset.mem_cons_self _ _)
  rw [begun.attempts]
  exact Nat.succ_pos _

/-- A turn of a run that goes on ends no job before its first delivery, unless its worker breaks
down over the permit. -/
private theorem Turn.reached {i : Nat} {m : WorkerMove} (turn : Turn now r i m r' effects)
    (tracked : Tracked events r) (going : r.tally.cancelled = false) (there : x ∈ r.recipients) :
    Reached (events ++ [⟨now, r, .worker i m, r', effects⟩]) r' x := by
  by_cases stays : x ∈ r'.recipients
  · exact .inl stays
  have same {y : Recipient} {job : Job} {begun : Bool} (mine : job.recipient = y)
      (gone : r.pending = (job, begun) ::ₘ r'.pending) : x = y := by
    rw [recipients_of_pending gone, Multiset.mem_add, Multiset.mem_singleton, mine] at there
    exact there.resolve_right stays
  have ends {job : Job} (gone : r.pending = (job, true) ::ₘ r'.pending) :
      Reached (events ++ [⟨now, r, .worker i m, r', effects⟩]) r' x := by
    obtain rfl := same rfl gone
    exact .append _ (.inl (tried_of_begun tracked gone))
  cases turn.toll with
  | @lose job begun _ jammed _ gone loses =>
      cases begun with
      | true => exact ends gone
      | false =>
          obtain rfl := same rfl gone
          exact .inr (.inr ⟨_, List.mem_append_right _ (List.mem_singleton_self _), jammed, loses⟩)
  | free _ _ whole =>
      have deed := turn.deed
      generalize r.answerTo (.worker i m) = answer at deed
      generalize effects.filterMap Effect.attempt? = attempts at deed
      cases deed with
      | keep pending => exact absurd (recipients_congr pending ▸ there) stays
      | call _ before after | postpone before after =>
          simp only [recipients, before, after, Multiset.map_cons, Job.again] at there stays
          exact absurd there stays
      | skip cancelled => cases cancelled.symm.trans going
      | lose _ books =>
          exact absurd ((books_eq_iff.mp books).2.2.symm.trans whole) (Nat.succ_ne_self _)
      | succeed gone | fail gone => exact ends gone
      | settle _ ended => exact absurd ended turn.going

private theorem reached_of_step (made : r.step now move = some (r', effects)) (staffed : r.Staffed)
    (slack : r.Slack) (tracked : Tracked events r) (going : r.tally.cancelled = false)
    (survives : r.lost < r.plan.crew) (reached : Reached events r x) :
    Reached (events ++ [⟨now, r, move, r', effects⟩]) r' x := by
  rcases reached with there | reached
  · have keeps (same : r'.recipients = r.recipients) :
        Reached (events ++ [⟨now, r, move, r', effects⟩]) r' x := .inl (same ▸ there)
    cases change_of_step made with
    | turn turn => exact turn.reached tracked going there
    | crew announcing =>
        exact keeps (recipients_congr (pending_of_crew staffed announcing rfl rfl))
    | join delivering ended =>
        have size := staffed.size.resolve_left (staffed.started delivering)
        have survivor := survivor_of_lost ended (size ▸ survives)
        simp [recipients, pending_of_survivor slack ended survivor] at there
    | aside aside =>
        exact keeps (recipients_congr (pending_congr aside.queue aside.workers).1)
  · exact .append _ reached

end Moves

section Courses

variable {events : List (Event Run Move)} {plan : Plan} {began : Moment} {cancelled : Bool}
  {r : Run}

/-- As many jobs are lost as workers broke down over deliveries and permits. -/
theorem lost_of_course (course : Course step (opening plan began cancelled) events r) :
    r.lost = events.countP crashes + events.countP jams := by
  induction course with
  | start => simp
  | next past made ih =>
      rw [lost_of_step made (staffed_of_course past), ih, List.countP_append, List.countP_append]
      omega

theorem drained_of_survivor (course : Course step (opening plan began cancelled) events r)
    (survives : r.lost < plan.crew) (started : r.workers ≠ [])
    (ended : r.workers.all Worker.hasEnded = true) : r.pending = 0 := by
  have size := (staffed_of_course course).size.resolve_left started
  rw [(plan_of_course course).1] at size
  exact pending_of_survivor (slack_of_course course) ended
    (survivor_of_lost ended (size ▸ survives))

/-- In a run that goes on, and in which not the whole crew breaks down, nobody is forgotten. -/
theorem reached_of_course (course : Course step (opening plan began cancelled) events r)
    (distinct : plan.targets.Nodup) (going : r.tally.cancelled = false)
    (survives : r.lost < plan.crew) : ∀ x ∈ plan.targets, Reached events r x := by
  intro x target
  induction course with
  | start =>
      left
      rw [recipients, pending_opening, Multiset.map_coe, List.map_map, Multiset.mem_coe]
      simpa [Function.comp_def, Job.fresh] using target
  | @next events now s t move effects past made ih =>
      have staffed := staffed_of_course past
      have before : s.tally.cancelled = false := by
        by_contra cancelled
        rw [Bool.not_eq_false] at cancelled
        cases going.symm.trans (cancelled_of_step made cancelled)
      have fewer : s.lost < plan.crew :=
        Nat.lt_of_le_of_lt (deed_of_step made staffed).lost_le survives
      refine reached_of_step made staffed (slack_of_course past) (tracked_of_course past distinct)
        before ?_ (ih before fewer)
      rwa [(plan_of_course past).1]

end Courses

end Broadcast.Run
