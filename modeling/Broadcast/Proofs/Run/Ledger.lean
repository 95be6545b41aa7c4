import Broadcast.Proofs.Run.Pending

/-!
# The books of a run

Every job is counted as delivered or as failed, went with a worker that broke down, or has not
ended; and once the crew has ended the first two of these are all. Counters only go up, and none
of them gets past the number of jobs.
-/

namespace Broadcast.Run

/-- The answer to a delivery that comes with an event of a run, and whose delivery it is. -/
def answer? (e : Event Run Move) : Option (Recipient × Except DeliveryError Unit) :=
  e.before.answerTo e.move

/-- The deliveries that were answered with success. -/
def arrivals (events : List (Event Run Move)) : Nat :=
  (events.filterMap answer?).countP (·.2.isOk)

theorem books_eq_iff {r : Run} {success failed : UInt64} {lost : Nat} :
    r.books = (success, failed, lost) ↔
      r.success = success ∧ r.failed = failed ∧ r.lost = lost := by
  simp [books]

/-- The books of a run are in order. -/
structure Balanced (r : Run) : Prop where
  /-- As long as the run goes on, no job is forgotten. -/
  jobs : r.stage = .announcing ∨ r.stage = .delivering →
    r.success.toNat + r.failed.toNat + r.pending.card + r.lost = r.total.toNat
  /-- A run that closes has counted every job. -/
  closed : r.stage.isClosing = true → r.success.toNat + r.failed.toNat = r.total.toNat
  /-- No job is counted twice. -/
  le_total : r.success.toNat + r.failed.toNat ≤ r.total.toNat
  /-- Each removal comes from a failure. -/
  removals : r.removals.length ≤ r.failed.toNat
  /-- Whoever was counted as having left has done so. -/
  removed : r.removed.toNat ≤ r.gone
  /-- The report says what the counters say. -/
  report : ∀ report, r.stage.report? = some report →
    report.total = r.total ∧ report.success = r.success ∧ report.failed = r.failed

theorem Balanced.reported {r : Run} (balanced : r.Balanced) {report : Report}
    (made : r.stage.report? = some report) :
    report.total = r.total ∧ report.success = r.success ∧ report.failed = r.failed ∧
      report.success.toNat + report.failed.toNat = report.total.toNat := by
  have closing : r.stage.isClosing = true := by
    cases stage : r.stage with
    | announcing | delivering | draining | stopping | broken =>
        simp [stage, Stage.report?] at made
    | editing | replying | finished => rfl
  obtain ⟨total, success, failed⟩ := balanced.report report made
  refine ⟨total, success, failed, ?_⟩
  rw [total, success, failed]
  exact balanced.closed closing

/-! ## One move -/

theorem toNat_succ {n : UInt64} (small : n.toNat + 1 < 2 ^ 64) : (n + 1).toNat = n.toNat + 1 := by
  rw [UInt64.toNat_add, UInt64.toNat_one, Nat.mod_eq_of_lt small]

/-- A deed before the end of the crew moves one job from one account to another. -/
theorem Deed.jobs {r r' : Run} {answer : Option (Recipient × Except DeliveryError Unit)}
    {attempts : List Attempt} (deed : Deed r r' answer attempts)
    (going : ¬(r.stage = .delivering ∧ r.workers.all Worker.hasEnded = true))
    (sum : r.success.toNat + r.failed.toNat + r.pending.card + r.lost = r.total.toNat) :
    r'.success.toNat + r'.failed.toNat + r'.pending.card + r'.lost = r.total.toNat := by
  have bound := r.total.toNat_lt
  cases deed with
  | keep pending books =>
      obtain ⟨success, failed, lost⟩ := books_eq_iff.mp books
      rw [success, failed, lost, pending, sum]
  | call _ before after books =>
      obtain ⟨success, failed, lost⟩ := books_eq_iff.mp books
      rw [before, Multiset.card_cons] at sum
      rw [success, failed, lost, after, Multiset.card_cons, sum]
  | skip _ before books =>
      obtain ⟨success, failed, lost⟩ := books_eq_iff.mp books
      rw [before, Multiset.card_cons] at sum
      rw [success, failed, lost, toNat_succ (by omega)]
      omega
  | lose before books =>
      obtain ⟨success, failed, lost⟩ := books_eq_iff.mp books
      rw [before, Multiset.card_cons] at sum
      rw [success, failed, lost]
      omega
  | succeed before books =>
      obtain ⟨success, failed, lost⟩ := books_eq_iff.mp books
      rw [before, Multiset.card_cons] at sum
      rw [success, failed, lost, toNat_succ (by omega)]
      omega
  | postpone before after _ _ books =>
      obtain ⟨success, failed, lost⟩ := books_eq_iff.mp books
      rw [before, Multiset.card_cons] at sum
      rw [success, failed, lost, after, Multiset.card_cons, sum]
  | fail before _ books =>
      obtain ⟨success, failed, lost⟩ := books_eq_iff.mp books
      rw [before, Multiset.card_cons] at sum
      rw [success, failed, lost, toNat_succ (by omega)]
      omega
  | settle delivering ended => exact absurd ⟨delivering, ended⟩ going

theorem toNat_missing (r : Run) : r.tally.progress.missing.toNat =
    r.total.toNat - (r.success.toNat + r.failed.toNat) :=
  UInt64.toNat_ofNat_of_lt' (Nat.lt_of_le_of_lt (Nat.sub_le _ _) r.total.toNat_lt_size)

theorem Deed.le {r r' : Run} {answer : Option (Recipient × Except DeliveryError Unit)}
    {attempts : List Attempt} (deed : Deed r r' answer attempts)
    (sum : r.success.toNat + r.failed.toNat + r.pending.card + r.lost = r.total.toNat) :
    r.success.toNat ≤ r'.success.toNat ∧ r.failed.toNat ≤ r'.failed.toNat := by
  have bound := r.total.toNat_lt
  cases deed with
  | keep _ books | call _ _ _ books | postpone _ _ _ _ books | lose _ books =>
      obtain ⟨success, failed, -⟩ := books_eq_iff.mp books
      rw [success, failed]
      exact ⟨Nat.le_refl _, Nat.le_refl _⟩
  | skip _ before books | fail before _ books =>
      obtain ⟨success, failed, -⟩ := books_eq_iff.mp books
      rw [before, Multiset.card_cons] at sum
      rw [success, failed, toNat_succ (by omega)]
      exact ⟨Nat.le_refl _, Nat.le_succ _⟩
  | succeed before books =>
      obtain ⟨success, failed, -⟩ := books_eq_iff.mp books
      rw [before, Multiset.card_cons] at sum
      rw [success, failed, toNat_succ (by omega)]
      exact ⟨Nat.le_succ _, Nat.le_refl _⟩
  | settle _ _ _ books =>
      obtain ⟨success, failed, -⟩ := books_eq_iff.mp books
      have missing := r.toNat_missing
      rw [success, failed, UInt64.toNat_add, Nat.mod_eq_of_lt (by omega)]
      exact ⟨Nat.le_refl _, Nat.le_add_right _ _⟩

theorem Deed.arrival {r r' : Run} {answer : Option (Recipient × Except DeliveryError Unit)}
    {attempts : List Attempt} (deed : Deed r r' answer attempts)
    (sum : r.success.toNat + r.failed.toNat + r.pending.card + r.lost = r.total.toNat) :
    r'.success.toNat = r.success.toNat + answer.toList.countP (·.2.isOk) := by
  have bound := r.total.toNat_lt
  cases deed with
  | succeed before books =>
      rw [before, Multiset.card_cons] at sum
      rw [(books_eq_iff.mp books).1, toNat_succ (by omega)]
      rfl
  | keep _ books | call _ _ _ books | postpone _ _ _ _ books | lose _ books | skip _ _ books
  | fail _ _ books | settle _ _ _ books =>
      rw [(books_eq_iff.mp books).1]
      rfl

/-- The end of the crew settles the accounts. -/
theorem settled {r : Run} (now : Moment)
    (sum : r.success.toNat + r.failed.toNat ≤ r.total.toNat) :
    (r.joined now).1.success.toNat + (r.joined now).1.failed.toNat = r.total.toNat := by
  have bound := r.total.toNat_lt
  have missing := r.toNat_missing
  have success : (r.joined now).1.success = r.success := by
    unfold joined
    dsimp only
    split <;> rfl
  have failed : (r.joined now).1.failed = r.failed + r.tally.progress.missing := by
    unfold joined
    dsimp only
    split <;> rfl
  rw [success, failed, UInt64.toNat_add, Nat.mod_eq_of_lt (by omega)]
  omega

theorem Turn.removals {now : Moment} {r r' : Run} {i : Nat} {move : WorkerMove}
    {effects : List Effect} (turn : Turn now r i move r' effects) :
    r'.removed = r.removed ∧ (r'.removals = r.removals ∨
      ∃ recipient, r'.removals = r.removals ++ [⟨recipient, .queued⟩] ∧
        r'.failed = r.failed + 1) := by
  cases turn with
  | finish | drop | take | jam | skip | call | crash | succeed | postpone | exhaust | refuse
  | wake => exact ⟨rfl, .inl rfl⟩
  | dismiss => exact ⟨rfl, .inr ⟨_, rfl, rfl⟩⟩

theorem joined_removals (now : Moment) (r : Run) :
    (r.joined now).1.removals = r.removals ∧ (r.joined now).1.removed = r.removed := by
  unfold joined
  dsimp only
  split <;> exact ⟨rfl, rfl⟩

private theorem Turn.balanced {now : Moment} {r r' : Run} {i : Nat} {move : WorkerMove}
    {effects : List Effect} (turn : Turn now r i move r' effects) (staffed : r.Staffed)
    (balanced : r.Balanced) : r'.Balanced := by
  have delivering := turn.delivering staffed
  obtain ⟨-, -, stage, total, -⟩ := turn.keeps
  obtain ⟨removed, removals⟩ := turn.removals
  rw [delivering] at stage
  have sum := turn.deed.jobs (fun ended => turn.going ended.2) (balanced.jobs (.inr delivering))
  have failed := (turn.deed.le (balanced.jobs (.inr delivering))).2
  refine ⟨fun _ => by rw [total, sum], ?_, by rw [total]; omega, ?_, ?_, ?_⟩
  · simp [stage, Stage.isClosing]
  · have before := balanced.removals
    rcases removals with same | ⟨recipient, more, counted⟩
    · rw [same]
      omega
    · rw [counted, UInt64.toNat_add, UInt64.toNat_one] at failed
      rw [more, counted, UInt64.toNat_add, UInt64.toNat_one, List.length_append]
      simp only [List.length_cons, List.length_nil]
      omega
  · have before := balanced.removed
    rw [removed]
    rcases removals with same | ⟨recipient, more, -⟩
    · rwa [gone, same]
    · rw [gone, more, List.countP_append]
      exact Nat.le_trans before (Nat.le_add_right _ _)
  · simp [stage, Stage.report?]

private theorem Aside.balanced {r r' : Run} (aside : Aside r r') (balanced : r.Balanced) :
    r'.Balanced := by
  obtain ⟨pending, lost⟩ := pending_congr aside.queue aside.workers
  obtain ⟨jobs, closed, le_total, removals, removed, report⟩ := balanced
  constructor
  · intro goesOn
    rw [aside.success, aside.failed, aside.total, pending, lost]
    rcases aside.stage with same | ⟨-, closed⟩ | ⟨-, closed⟩
    · exact jobs (same ▸ goesOn)
    · simp [closed] at goesOn
    · rcases goesOn with goesOn | goesOn <;> simp [goesOn, Stage.isClosing] at closed
  · intro closing
    rw [aside.success, aside.failed, aside.total]
    rcases aside.stage with same | ⟨-, closed⟩ | ⟨before, -⟩
    · exact closed (same ▸ closing)
    · simp [closed, Stage.isClosing] at closing
    · exact closed before
  · rwa [aside.success, aside.failed, aside.total]
  · rwa [aside.removals, aside.failed]
  · rcases aside.removed with ⟨same, more⟩ | ⟨counted, one⟩
    · rw [same]
      exact Nat.le_trans removed more
    · rw [counted, one, UInt64.toNat_add, UInt64.toNat_one]
      exact Nat.le_trans (Nat.mod_le _ _) (Nat.succ_le_succ removed)
  · intro made present
    rw [aside.total, aside.success, aside.failed]
    rcases aside.report made present with before | ⟨elapsed, rfl⟩
    · exact report made before
    · exact ⟨rfl, rfl, rfl⟩

theorem balanced_opening (plan : Plan) (now : Moment) (cancelled : Bool)
    (countable : plan.targets.length < 2 ^ 64) : (opening plan now cancelled).Balanced where
  jobs _ := by
    rw [pending_opening, opening_total, UInt64.toNat_ofNat_of_lt' countable]
    simp
  closed := by simp [Stage.isClosing]
  le_total := by simp
  removals := Nat.le_refl _
  removed := Nat.le_refl _
  report := by simp [Stage.report?]

theorem balanced_of_step {now : Moment} {r r' : Run} {move : Move} {effects : List Effect}
    (made : r.step now move = some (r', effects)) (staffed : r.Staffed) (balanced : r.Balanced) :
    r'.Balanced := by
  cases change_of_step made with
  | turn turn => exact turn.balanced staffed balanced
  | crew announcing =>
      have sum := (deed_of_step made staffed).jobs (fun ended => by simp [announcing] at ended)
        (balanced.jobs (.inl announcing))
      refine ⟨fun _ => sum, by simp [Stage.isClosing], balanced.le_total, balanced.removals,
        balanced.removed, by simp [Stage.report?]⟩
  | join delivering =>
      have total := (joined_keeps now r).2.2.1
      have failed := ((deed_of_step made staffed).le (balanced.jobs (.inr delivering))).2
      have settled := settled now balanced.le_total
      obtain ⟨removals, removed⟩ := joined_removals now r
      have closing := stage_joined now r
      refine ⟨?_, fun _ => by rw [total, settled], by rw [total, settled], ?_, ?_, ?_⟩
      · intro goesOn
        rcases goesOn with goesOn | goesOn <;> simp [goesOn, Stage.isClosing] at closing
      · rw [removals]
        exact Nat.le_trans balanced.removals failed
      · rw [gone, removals, removed]
        exact balanced.removed
      · simp [report_of_joined]
  | aside aside => exact aside.balanced balanced

theorem counters_of_step {now : Moment} {r r' : Run} {move : Move} {effects : List Effect}
    (made : r.step now move = some (r', effects)) (staffed : r.Staffed) (balanced : r.Balanced) :
    r.success ≤ r'.success ∧ r.failed ≤ r'.failed ∧ r.removed ≤ r'.removed := by
  have deed := deed_of_step made staffed
  simp only [UInt64.le_iff_toNat_le, ← and_assoc]
  cases change_of_step made with
  | turn turn =>
      rw [turn.removals.1]
      exact ⟨deed.le (balanced.jobs (.inr (turn.delivering staffed))), Nat.le_refl _⟩
  | crew => exact ⟨⟨Nat.le_refl _, Nat.le_refl _⟩, Nat.le_refl _⟩
  | join delivering =>
      rw [(joined_removals now r).2]
      exact ⟨deed.le (balanced.jobs (.inr delivering)), Nat.le_refl _⟩
  | aside aside =>
      rw [aside.success, aside.failed]
      refine ⟨⟨Nat.le_refl _, Nat.le_refl _⟩, ?_⟩
      rcases aside.removed with ⟨same, -⟩ | ⟨counted, one⟩
      · rw [same]
      · have carriedOut : r'.gone ≤ r'.removals.length := List.countP_le_length
        have failures := (aside.balanced balanced).removals
        have before := balanced.removed
        rw [one] at carriedOut
        rw [counted, toNat_succ (by have := r'.failed.toNat_lt; omega)]
        exact Nat.le_succ _

/-! ## A whole run -/

/-- The books of a run are always in order. -/
theorem balanced_of_course {plan : Plan} {began : Moment} {cancelled : Bool}
    {events : List (Event Run Move)} {r : Run}
    (course : Course step (opening plan began cancelled) events r)
    (countable : plan.targets.length < 2 ^ 64) : r.Balanced := by
  induction course with
  | start => exact balanced_opening plan began cancelled countable
  | next past made ih => exact balanced_of_step made (staffed_of_course past) ih

theorem arrivals_concat (events : List (Event Run Move)) (e : Event Run Move) :
    arrivals (events ++ [e]) = arrivals events + (answer? e).toList.countP (·.2.isOk) := by
  rw [arrivals, List.filterMap_append, List.countP_append, ← arrivals]
  cases answer : answer? e <;> simp [answer]

/-- The deliveries that a run has counted are those that were answered with success. -/
theorem success_of_course {plan : Plan} {began : Moment} {cancelled : Bool}
    {events : List (Event Run Move)} {r : Run}
    (course : Course step (opening plan began cancelled) events r)
    (countable : plan.targets.length < 2 ^ 64) : r.success.toNat = arrivals events := by
  induction course with
  | start => rfl
  | @next events now r r' move effects past made ih =>
      have staffed := staffed_of_course past
      have balanced := balanced_of_course past countable
      have deed := deed_of_step made staffed
      rw [arrivals_concat, ← ih, answer?]
      cases change_of_step made with
      | turn turn => exact deed.arrival (balanced.jobs (.inr (turn.delivering staffed)))
      | crew announcing => exact deed.arrival (balanced.jobs (.inl announcing))
      | join delivering => exact deed.arrival (balanced.jobs (.inr delivering))
      | aside aside other =>
          rw [answerTo_of_not_worker other, aside.success]
          rfl

/-- No counter of a run ever goes down. -/
theorem counters_of_course {r r' : Run} {events : List (Event Run Move)}
    (course : Course step r events r') (staffed : r.Staffed) (balanced : r.Balanced) :
    r.success ≤ r'.success ∧ r.failed ≤ r'.failed ∧ r.removed ≤ r'.removed := by
  have all : (r'.Staffed ∧ r'.Balanced) ∧
      r.success ≤ r'.success ∧ r.failed ≤ r'.failed ∧ r.removed ≤ r'.removed := by
    induction course with
    | start => exact ⟨⟨staffed, balanced⟩, UInt64.le_refl _, UInt64.le_refl _, UInt64.le_refl _⟩
    | next _ made ih =>
        obtain ⟨⟨staffed, balanced⟩, success, failed, removed⟩ := ih
        obtain ⟨success', failed', removed'⟩ := counters_of_step made staffed balanced
        exact ⟨⟨staffed_of_step made staffed, balanced_of_step made staffed balanced⟩,
          UInt64.le_trans success success', UInt64.le_trans failed failed',
          UInt64.le_trans removed removed'⟩
  exact all.2

end Broadcast.Run
