import Broadcast.Proofs.Run.Due

/-!
# Workers that rest

A worker that meets a rate limit rests before it does anything else. The job that it has put back
does not rest: another worker may take it at once. So the wait is kept by the worker that was told
to wait, and by the whole run only if there is no other.
-/

namespace Broadcast.Run

/-- The delivery that begins with one event is tried because the same recipient met a rate limit
at another. -/
def Retries (wait : Duration) (e f : Event Run Move) : Prop :=
  ∃ a ∈ f.attempts, ∃ error, answer? e = some (a.recipient, .error error) ∧
    error.wait? = some wait

theorem rests_of_step {now : Moment} {r r' : Run} {move : Move} {effects : List Effect}
    (made : r.step now move = some (r', effects)) (staffed : r.Staffed) {i : Nat}
    {wakeAt : Moment} (resting : r.workers[i]? = some (.resting wakeAt)) :
    r'.workers[i]? = some (.resting wakeAt) ∨ wakeAt ≤ now := by
  cases change_of_step made with
  | @turn k move r' effects turn =>
      by_cases mine : k = i
      · subst mine
        cases turn with
        | wake present due =>
            cases present.symm.trans resting
            exact .inr due
        | finish present | drop present | take present | jam present | skip present | call present
        | crash present | succeed present | postpone present | exhaust present | dismiss present
        | refuse present => cases present.symm.trans resting
      · obtain ⟨w, w', -, -, workers⟩ := turn.sets
        rw [workers, List.getElem?_set_ne mine]
        exact .inl resting
  | crew announcing =>
      rw [staffed.unstarted announcing] at resting
      cases resting
  | join =>
      rw [joined_workers]
      exact .inl resting
  | aside aside =>
      rw [aside.workers]
      exact .inl resting

theorem rests_of_course {r r' : Run} {events : List (Event Run Move)}
    (course : Course step r events r') (staffed : r.Staffed) {i : Nat} {wakeAt : Moment}
    (resting : r.workers[i]? = some (.resting wakeAt)) :
    r'.workers[i]? = some (.resting wakeAt) ∨ ∃ e ∈ events, wakeAt ≤ e.moment := by
  have all : r'.Staffed ∧
      (r'.workers[i]? = some (.resting wakeAt) ∨ ∃ e ∈ events, wakeAt ≤ e.moment) := by
    induction course with
    | start => exact ⟨staffed, .inl resting⟩
    | next _ made ih =>
        obtain ⟨staffed, rests | ⟨e, member, ended⟩⟩ := ih
        · refine ⟨staffed_of_step made staffed, ?_⟩
          rcases rests_of_step made staffed rests with rests | ended
          · exact .inl rests
          · exact .inr ⟨_, List.mem_append_right _ (List.mem_singleton_self _), ended⟩
        · exact ⟨staffed_of_step made staffed, .inr ⟨e, List.mem_append_left _ member, ended⟩⟩
  exact all.2

/-- A delivery begins when its worker gets a permit. -/
theorem permit_of_attempt {now : Moment} {r r' : Run} {move : Move} {effects : List Effect}
    (made : r.step now move = some (r', effects)) {a : Attempt}
    (tried : a ∈ effects.filterMap Effect.attempt?) :
    ∃ j job, move = .worker j .permit ∧ r.workers[j]? = some (.waiting job) := by
  cases change_of_step made with
  | turn turn =>
      cases turn with
      | call waiting => exact ⟨_, _, rfl, waiting⟩
      | finish | drop | take | jam | skip | crash | succeed | postpone | exhaust | dismiss | refuse
      | wake => cases tried
  | crew =>
      rw [quiet_crew] at tried
      cases tried
  | join => cases tried
  | aside _ _ _ quiet =>
      rw [quiet] at tried
      cases tried

/-- A rate limit makes its worker rest, unless the job was put back too often. -/
private theorem rest_of_limit {e : Event Run Move}
    (made : e.before.step e.moment e.move = some (e.after, e.effects)) {x : Recipient}
    {error : DeliveryError} {wait : Duration} (answered : answer? e = some (x, .error error))
    (limited : error.wait? = some wait) :
    ∃ i job answer, e.move = .worker i (.answered answer) ∧ job.recipient = x ∧
      e.before.workers[i]? = some (.delivering job) ∧
      (e.after.workers[i]? = some (.resting (e.before.plan.clocks.after e.moment wait)) ∨
        ¬job.retries < e.before.plan.maxRetries) := by
  obtain ⟨now, r, move, r', effects⟩ := e
  unfold answer? answerTo at answered
  dsimp only at answered made ⊢
  split at answered
  next i outcome =>
    split at answered
    next job delivering =>
      cases answered
      refine ⟨i, job, _, rfl, rfl, delivering, ?_⟩
      have inside := (List.getElem?_eq_some_iff.mp delivering).1
      cases change_of_step made with
      | turn turn =>
          cases turn with
          | postpone _ again =>
              cases limited.symm.trans again
              exact .inl (List.getElem?_set_self inside)
          | exhaust present _ spent =>
              cases present.symm.trans delivering
              exact .inr spent
          | dismiss _ final | refuse _ final => cases limited.symm.trans final
      | aside _ other => exact absurd rfl (other i _)
    next => cases answered
  next => cases answered

section Courses

variable {plan : Plan} {began : Moment} {cancelled : Bool} {r : Run}

theorem outcomesOf_append (x : Recipient) (left right : List (Event Run Move)) :
    outcomesOf x (left ++ right) = outcomesOf x left ++ outcomesOf x right := by
  simp [outcomesOf]

private theorem quiet_of_spent {events : List (Event Run Move)} {f : Event Run Move}
    (course : Course step (opening plan began cancelled) (events ++ [f]) r)
    (distinct : plan.targets.Nodup) {x : Recipient}
    (spent : plan.maxRetries.toNat < (outcomesOf x events).length) {a : Attempt}
    (called : a ∈ f.attempts) : a.recipient ≠ x := by
  rintro rfl
  obtain ⟨past, made, rfl⟩ := course.of_concat
  have settled {events : List (Event Run Move)} {r : Run}
      (course : Course step (opening plan began cancelled) events r)
      (target : a.recipient ∈ plan.targets)
      (spent : plan.maxRetries.toNat < (outcomesOf a.recipient events).length) :
      attemptsTo a.recipient events = (outcomesOf a.recipient events).length := by
    have tracked := tracked_of_course course distinct
    have same : r.plan = plan := (plan_of_course course).1
    rcases tracked.target a.recipient (same ▸ target) with ⟨begun, goesOn⟩ | settled
    · exact absurd (same ▸ goesOn.le_cap) (Nat.not_le.mpr spent)
    · exact settled.attempts
  have target : a.recipient ∈ plan.targets :=
    (attempt_of_course course distinct (by simp [called])).1
  obtain ⟨j, job, move, -⟩ := permit_of_attempt made called
  have answer : answer? f = none := by
    rw [answer?, move]
    rfl
  have outcomes : outcomesOf a.recipient (events ++ [f]) = outcomesOf a.recipient events := by
    rw [outcomesOf_concat, answer]
    simp
  have before := settled past target spent
  have after := settled course target (outcomes ▸ spent)
  have one : 0 < f.attempts.countP (·.recipient = a.recipient) :=
    List.countP_pos_iff.mpr ⟨a, called, by simp⟩
  rw [attemptsTo_concat, outcomes, before] at after
  omega

theorem lt_crew {events : List (Event Run Move)}
    (course : Course step (opening plan began cancelled) events r) {i : Nat} {w : Worker}
    (present : r.workers[i]? = some w) : i < plan.crew := by
  have inside := (List.getElem?_eq_some_iff.mp present).1
  have same : r.plan = plan := (plan_of_course course).1
  rcases (staffed_of_course course).size with none | size
  · simp [none] at inside
  · rwa [size, same] at inside

/-- With a permit, a worker tries a target again that met a rate limit: after its rest, or because
it is another worker than the one that rests. -/
private theorem rest_of_retry {past mid : List (Event Run Move)} {e f : Event Run Move}
    (course : Course step (opening plan began cancelled) (past ++ e :: mid ++ [f]) r)
    (distinct : plan.targets.Nodup) (inOrder : ∀ g ∈ mid, g.moment ≤ f.moment) {wait : Duration}
    (retries : Retries wait e f) :
    ∃ i j answer, e.move = .worker i (.answered answer) ∧ f.move = .worker j .permit ∧
      i < plan.crew ∧ j < plan.crew ∧ (j = i → plan.clocks.after e.moment wait ≤ f.moment) := by
  obtain ⟨a, called, error, answered, limited⟩ := retries
  obtain ⟨tillHere, made', -⟩ := course.of_concat
  obtain ⟨early, made, between⟩ := tillHere.around
  obtain ⟨i, job, answer, move, same, delivering, fate⟩ := rest_of_limit made answered limited
  obtain ⟨j, job', move', waiting⟩ := permit_of_attempt made' called
  have plan' : e.before.plan = plan := (plan_of_course early).1
  refine ⟨i, j, answer, move, move', lt_crew early delivering, lt_crew tillHere waiting, ?_⟩
  rintro rfl
  rcases fate with resting | spent
  · -- The worker gets no permit while it rests, so its rest was over at some event in between.
    have staffed := staffed_of_step made (staffed_of_course early)
    rcases rests_of_course between staffed resting with rests | ⟨g, member, ended⟩
    · cases waiting.symm.trans rests
    · rw [plan'] at ended
      exact Nat.le_trans ended (inOrder g member)
  · -- The job was not put back, so nobody can have called again.
    exfalso
    have tracked := tracked_of_course early distinct
    have inHand : (job, true) ∈ e.before.pending := by
      rw [pending_of_drop (e.before.setWorker j .idle) delivering rfl rfl rfl rfl]
      exact Multiset.mem_cons_self _ _
    have count := (tracked.pending _ inHand).2
    have outcomes : (outcomesOf a.recipient (past ++ e :: mid)).length =
        job.retries.toNat + 1 + (outcomesOf a.recipient mid).length := by
      rw [List.append_cons, outcomesOf_append, outcomesOf_concat, answered, ← same]
      simp [count]
      omega
    have tooOften : plan.maxRetries.toNat < (outcomesOf a.recipient (past ++ e :: mid)).length := by
      rw [UInt32.lt_iff_toNat_lt, plan'] at spent
      omega
    exact quiet_of_spent course distinct tooOften called rfl

/-- Targets that met a rate limit are tried again by another worker, or after the wait. -/
theorem rest_of_course {events : List (Event Run Move)}
    (course : Course step (opening plan began cancelled) events r)
    (distinct : plan.targets.Nodup) (inOrder : InOrder events) :
    events.Pairwise fun e f => ∀ wait, Retries wait e f →
      ∃ i j answer, e.move = .worker i (.answered answer) ∧ f.move = .worker j .permit ∧
        i < plan.crew ∧ j < plan.crew ∧ (j = i → plan.clocks.after e.moment wait ≤ f.moment) := by
  induction course with
  | start => exact .nil
  | next past made ih =>
      obtain ⟨before, -, last⟩ := List.pairwise_append.mp inOrder
      refine List.pairwise_append.mpr ⟨ih before, List.pairwise_singleton _ _, ?_⟩
      intro e member f here wait retries
      obtain rfl := List.mem_singleton.mp here
      obtain ⟨early, mid, rfl⟩ := List.append_of_mem member
      refine rest_of_retry (past.next made) distinct (fun g between => ?_) retries
      exact last g (by simp [between]) _ here

end Courses

end Broadcast.Run
