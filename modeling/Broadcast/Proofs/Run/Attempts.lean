import Broadcast.Proofs.Run.Ledger
import Broadcast.Proofs.Run.Slack

/-!
# How often each target is tried

The jobs of a run wander through queue and workers, but the deliveries to one target follow one
another whatever happens to the others: the next one begins only after a rate limit, and only if
the job was not put back too often. What is counted is the last outcome.
-/

namespace Broadcast.Run

/-- The outcome asks for another attempt. -/
def isLimited : Except DeliveryError Unit → Bool
  | .ok () => false
  | .error error => error.wait?.isSome

/-- The outcomes of the deliveries to one recipient, in order. -/
def outcomesOf (x : Recipient) (events : List (Event Run Move)) :
    List (Except DeliveryError Unit) :=
  (events.filterMap answer?).filterMap fun answer => if answer.1 = x then some answer.2 else none

/-- The deliveries to a recipient may go on; one of them may have begun. -/
structure Open (cap : Nat) (events : List (Event Run Move)) (x : Recipient) (begun : Bool) :
    Prop where
  /-- Each attempt but the one that has begun has an outcome. -/
  attempts : attemptsTo x events = (outcomesOf x events).length + begun.toNat
  /-- Each outcome asked for another attempt. -/
  limited : ∀ outcome ∈ outcomesOf x events, isLimited outcome = true
  /-- The job was not put back too often. -/
  le_cap : (outcomesOf x events).length ≤ cap

/-- The deliveries to a recipient have come to their end. -/
structure Settled (cap : Nat) (events : List (Event Run Move)) (x : Recipient) : Prop where
  /-- Each attempt has an outcome. -/
  attempts : attemptsTo x events = (outcomesOf x events).length
  /-- Each outcome but the last asked for another attempt; if the last one did, it came too late. -/
  last : ∃ past outcome, outcomesOf x events = past ++ [outcome] ∧
    (∀ o ∈ past, isLimited o = true) ∧ past.length ≤ cap ∧
    (isLimited outcome = true → past.length = cap)

/-- How the targets of a run have fared. -/
structure Tracked (events : List (Event Run Move)) (r : Run) : Prop where
  /-- A job that has not ended knows how often it was put back. -/
  pending : ∀ entry ∈ r.pending,
    Open r.plan.maxRetries.toNat events entry.1.recipient entry.2 ∧
      (outcomesOf entry.1.recipient events).length = entry.1.retries.toNat
  /-- No target has two jobs. -/
  nodup : r.recipients.Nodup
  /-- Jobs are for targets only. -/
  subset : ∀ x ∈ r.recipients, x ∈ r.plan.targets
  /-- The deliveries to a target may go on or have come to their end. -/
  target : ∀ x ∈ r.plan.targets, (∃ begun, Open r.plan.maxRetries.toNat events x begun) ∨
    Settled r.plan.maxRetries.toNat events x
  /-- If nobody cancelled the run or broke down, jobs end with their deliveries only. -/
  ended : r.tally.cancelled = false → r.lost = 0 → ∀ x ∈ r.plan.targets, x ∉ r.recipients →
    Settled r.plan.maxRetries.toNat events x
  /-- Nobody else is tried. -/
  stranger : ∀ x, x ∉ r.plan.targets → attemptsTo x events = 0 ∧ outcomesOf x events = []

/-! ## Histories -/

section Histories

variable {cap : Nat} {events events' : List (Event Run Move)} {e : Event Run Move} {x : Recipient}

theorem attemptsTo_concat (events : List (Event Run Move)) (e : Event Run Move) (x : Recipient) :
    attemptsTo x (events ++ [e]) =
      attemptsTo x events + e.attempts.countP (·.recipient = x) := by
  rw [attemptsTo_append, attemptsTo_singleton]

theorem outcomesOf_concat (events : List (Event Run Move)) (e : Event Run Move) (x : Recipient) :
    outcomesOf x (events ++ [e]) = outcomesOf x events ++
      (answer? e).toList.filterMap fun answer => if answer.1 = x then some answer.2 else none := by
  rw [outcomesOf, List.filterMap_append, List.filterMap_append, ← outcomesOf]
  cases answer : answer? e <;> simp [answer]

/-- An event is no business of a recipient that it neither tries nor answers. -/
def Unmoved (x : Recipient) (events events' : List (Event Run Move)) : Prop :=
  attemptsTo x events' = attemptsTo x events ∧ outcomesOf x events' = outcomesOf x events

theorem unmoved_of_quiet (attempts : e.attempts = []) (answer : answer? e = none) :
    Unmoved x events (events ++ [e]) := by
  rw [Unmoved, attemptsTo_concat, outcomesOf_concat, attempts, answer]
  simp

theorem unmoved_of_call {a : Attempt} (attempts : e.attempts = [a]) (answer : answer? e = none)
    (other : x ≠ a.recipient) : Unmoved x events (events ++ [e]) := by
  rw [Unmoved, attemptsTo_concat, outcomesOf_concat, attempts, answer]
  simp [other.symm]

theorem unmoved_of_answer {y : Recipient} {outcome : Except DeliveryError Unit}
    (attempts : e.attempts = []) (answer : answer? e = some (y, outcome)) (other : x ≠ y) :
    Unmoved x events (events ++ [e]) := by
  rw [Unmoved, attemptsTo_concat, outcomesOf_concat, attempts, answer]
  simp [other.symm]

theorem Open.unmoved {begun : Bool} (goesOn : Open cap events x begun)
    (same : Unmoved x events events') : Open cap events' x begun :=
  ⟨by rw [same.1, same.2, goesOn.attempts], same.2 ▸ goesOn.limited, same.2 ▸ goesOn.le_cap⟩

theorem Settled.unmoved (settled : Settled cap events x) (same : Unmoved x events events') :
    Settled cap events' x :=
  ⟨by rw [same.1, same.2, settled.attempts], same.2 ▸ settled.last⟩

theorem Open.call {a : Attempt} (waits : Open cap events a.recipient false)
    (attempts : e.attempts = [a]) (answer : answer? e = none) :
    Open cap (events ++ [e]) a.recipient true ∧
      outcomesOf a.recipient (events ++ [e]) = outcomesOf a.recipient events := by
  have outcomes : outcomesOf a.recipient (events ++ [e]) = outcomesOf a.recipient events := by
    rw [outcomesOf_concat, answer]
    simp
  refine ⟨⟨?_, outcomes ▸ waits.limited, outcomes ▸ waits.le_cap⟩, outcomes⟩
  rw [attemptsTo_concat, outcomes, attempts, waits.attempts]
  simp

theorem Open.answered {outcome : Except DeliveryError Unit} (begun : Open cap events x true)
    (attempts : e.attempts = []) (answer : answer? e = some (x, outcome)) :
    outcomesOf x (events ++ [e]) = outcomesOf x events ++ [outcome] ∧
      attemptsTo x (events ++ [e]) = (outcomesOf x (events ++ [e])).length := by
  have outcomes : outcomesOf x (events ++ [e]) = outcomesOf x events ++ [outcome] := by
    rw [outcomesOf_concat, answer]
    simp
  refine ⟨outcomes, ?_⟩
  rw [attemptsTo_concat, outcomes, attempts, begun.attempts]
  simp

theorem Open.postpone {outcome : Except DeliveryError Unit} (begun : Open cap events x true)
    (attempts : e.attempts = []) (answer : answer? e = some (x, outcome))
    (limited : isLimited outcome = true) (spare : (outcomesOf x events).length < cap) :
    Open cap (events ++ [e]) x false := by
  obtain ⟨outcomes, tried⟩ := begun.answered attempts answer
  refine ⟨by rw [tried]; rfl, ?_, by rw [outcomes, List.length_append]; exact spare⟩
  intro o member
  rw [outcomes] at member
  rcases List.mem_append.mp member with before | now
  · exact begun.limited o before
  · rw [List.mem_singleton.mp now, limited]

theorem Open.settle {outcome : Except DeliveryError Unit} (begun : Open cap events x true)
    (attempts : e.attempts = []) (answer : answer? e = some (x, outcome))
    (late : isLimited outcome = true → (outcomesOf x events).length = cap) :
    Settled cap (events ++ [e]) x := by
  obtain ⟨outcomes, tried⟩ := begun.answered attempts answer
  exact ⟨tried, _, outcome, outcomes, begun.limited, begun.le_cap, late⟩

end Histories

/-! ## Jobs -/

section Jobs

variable {events : List (Event Run Move)} {e : Event Run Move} {r r' : Run} {job : Job}
  {begun : Bool} {rest : Multiset (Job × Bool)}

/-- What a move leaves as it was, or makes worse. -/
structure Later (r r' : Run) : Prop where
  /-- A run keeps its plan. -/
  plan : r'.plan = r.plan
  /-- A run that was cancelled stays so. -/
  cancelled : r'.tally.cancelled = false → r.tally.cancelled = false
  /-- What is lost is lost. -/
  lost : r'.lost = 0 → r.lost = 0

/-- An event moves recipients that have jobs only. -/
theorem Tracked.after (tracked : Tracked events r) (later : Later r r')
    (fewer : r'.recipients ≤ r.recipients)
    (moved : ∀ x, Unmoved x events (events ++ [e]) ∨ x ∈ r.recipients ∧
      ((∃ begun, Open r.plan.maxRetries.toNat (events ++ [e]) x begun) ∨
        Settled r.plan.maxRetries.toNat (events ++ [e]) x))
    (pending : ∀ entry ∈ r'.pending,
      entry ∈ r.pending ∧ Unmoved entry.1.recipient events (events ++ [e]) ∨
      Open r.plan.maxRetries.toNat (events ++ [e]) entry.1.recipient entry.2 ∧
        (outcomesOf entry.1.recipient (events ++ [e])).length = entry.1.retries.toNat)
    (ended : r'.tally.cancelled = false → r'.lost = 0 → ∀ x ∈ r.recipients, x ∉ r'.recipients →
      Settled r.plan.maxRetries.toNat (events ++ [e]) x) :
    Tracked (events ++ [e]) r' := by
  have unmoved {x : Recipient} (absent : x ∉ r.recipients) : Unmoved x events (events ++ [e]) :=
    (moved x).resolve_right fun there => absent there.1
  constructor
  · intro entry member
    rw [later.plan]
    rcases pending entry member with ⟨before, same⟩ | now
    · obtain ⟨held, count⟩ := tracked.pending entry before
      exact ⟨held.unmoved same, by rw [same.2, count]⟩
    · exact now
  · exact Multiset.nodup_of_le fewer tracked.nodup
  · intro x member
    rw [later.plan]
    exact tracked.subset x (Multiset.mem_of_le fewer member)
  · intro x member
    rw [later.plan] at member ⊢
    rcases moved x with same | ⟨-, now⟩
    · rcases tracked.target x member with ⟨begun, held⟩ | settled
      · exact .inl ⟨begun, held.unmoved same⟩
      · exact .inr (settled.unmoved same)
    · exact now
  · intro going whole x member absent
    rw [later.plan] at member ⊢
    by_cases there : x ∈ r.recipients
    · exact ended going whole x there absent
    · exact (tracked.ended (later.cancelled going) (later.lost whole) x member there).unmoved
        (unmoved there)
  · intro x other
    rw [later.plan] at other
    have same := unmoved fun there => other (tracked.subset x there)
    rw [same.1, same.2]
    exact tracked.stranger x other

theorem Tracked.keep (tracked : Tracked events r) (later : Later r r')
    (same : r'.pending = r.pending) (quiet : e.attempts = []) (silent : answer? e = none) :
    Tracked (events ++ [e]) r' := by
  have recipients : r'.recipients = r.recipients := by rw [recipients, same, ← Run.recipients]
  refine tracked.after later recipients.le ?_ ?_ ?_
  · exact fun x => .inl (unmoved_of_quiet quiet silent)
  · exact fun entry member => .inl ⟨same ▸ member, unmoved_of_quiet quiet silent⟩
  · exact fun _ _ x there absent => absurd (recipients ▸ there) absent

theorem Tracked.other (tracked : Tracked events r) (before : r.pending = (job, begun) ::ₘ rest) :
    ∀ entry ∈ rest, entry.1.recipient ≠ job.recipient := by
  have nodup := tracked.nodup
  rw [recipients, before, Multiset.map_cons, Multiset.nodup_cons] at nodup
  exact fun entry member same => nodup.1 (Multiset.mem_map.mpr ⟨entry, member, same⟩)

theorem Tracked.goOn {job' : Job} {begun' : Bool} (tracked : Tracked events r)
    (later : Later r r') (before : r.pending = (job, begun) ::ₘ rest)
    (after : r'.pending = (job', begun') ::ₘ rest) (same : job'.recipient = job.recipient)
    (unmoved : ∀ x, x ≠ job.recipient → Unmoved x events (events ++ [e]))
    (goesOn : Open r.plan.maxRetries.toNat (events ++ [e]) job.recipient begun')
    (length : (outcomesOf job.recipient (events ++ [e])).length = job'.retries.toNat) :
    Tracked (events ++ [e]) r' := by
  have recipients : r'.recipients = r.recipients := by
    rw [recipients, recipients, before, after, Multiset.map_cons, Multiset.map_cons, same]
  refine tracked.after later recipients.le ?_ ?_ ?_
  · intro x
    by_cases mine : x = job.recipient
    · right
      rw [mine, Run.recipients, before, Multiset.map_cons]
      exact ⟨Multiset.mem_cons_self _ _, .inl ⟨begun', goesOn⟩⟩
    · exact .inl (unmoved x mine)
  · intro entry member
    rw [after, Multiset.mem_cons] at member
    rcases member with rfl | member
    · rw [same]
      exact .inr ⟨goesOn, length⟩
    · exact .inl ⟨before ▸ Multiset.mem_cons_of_mem member,
        unmoved _ (tracked.other before entry member)⟩
  · exact fun _ _ x there absent => absurd (recipients ▸ there) absent

theorem Tracked.done (tracked : Tracked events r) (later : Later r r')
    (before : r.pending = (job, begun) ::ₘ r'.pending)
    (unmoved : ∀ x, x ≠ job.recipient → Unmoved x events (events ++ [e]))
    (fate : Unmoved job.recipient events (events ++ [e]) ∨
      Settled r.plan.maxRetries.toNat (events ++ [e]) job.recipient)
    (ended : r'.tally.cancelled = false → r'.lost = 0 →
      Settled r.plan.maxRetries.toNat (events ++ [e]) job.recipient) :
    Tracked (events ++ [e]) r' := by
  have recipients : r.recipients = job.recipient ::ₘ r'.recipients := by
    rw [recipients, before, Multiset.map_cons, ← Run.recipients]
  refine tracked.after later (recipients ▸ Multiset.le_cons_self _ _) ?_ ?_ ?_
  · intro x
    by_cases mine : x = job.recipient
    · subst mine
      rcases fate with same | settled
      · exact .inl same
      · exact .inr ⟨recipients ▸ Multiset.mem_cons_self _ _, .inr settled⟩
    · exact .inl (unmoved x mine)
  · intro entry member
    exact .inl ⟨before ▸ Multiset.mem_cons_of_mem member,
      unmoved _ (tracked.other before entry member)⟩
  · intro going whole x there absent
    rw [recipients, Multiset.mem_cons] at there
    rw [there.resolve_right absent]
    exact ended going whole

theorem retries_again {cap : UInt32} (spare : job.retries.toNat < cap.toNat) :
    job.again.retries.toNat = job.retries.toNat + 1 := by
  have bound := cap.toNat_lt
  rw [Job.again, UInt32.toNat_add, UInt32.toNat_one, Nat.mod_eq_of_lt (by omega)]

/-- Every deed leaves the targets tracked. -/
theorem Deed.tracked {answer : Option (Recipient × Except DeliveryError Unit)}
    {attempts : List Attempt} (deed : Deed r r' answer attempts) (tracked : Tracked events r)
    (later : Later r r') (tried : e.attempts = attempts) (answered : answer? e = answer)
    (whole : r.stage = .delivering → r.workers.all Worker.hasEnded = true → r.lost = 0 →
      r.pending = 0) : Tracked (events ++ [e]) r' := by
  cases deed with
  | keep same => exact tracked.keep later same tried answered
  | @call job rest _ before after =>
      obtain ⟨waits, count⟩ := tracked.pending _ (before ▸ Multiset.mem_cons_self _ _)
      obtain ⟨goesOn, outcomes⟩ := waits.call tried answered
      exact tracked.goOn later before after rfl
        (fun x other => unmoved_of_call tried answered other) goesOn (by rw [outcomes, count])
  | skip cancelled before =>
      have quiet (x : Recipient) : Unmoved x events (events ++ [e]) :=
        unmoved_of_quiet tried answered
      refine tracked.done later before (fun x _ => quiet x) (.inl (quiet _)) fun going _ => ?_
      cases cancelled.symm.trans (later.cancelled going)
  | lose before books =>
      have quiet (x : Recipient) : Unmoved x events (events ++ [e]) :=
        unmoved_of_quiet tried answered
      refine tracked.done later before (fun x _ => quiet x) (.inl (quiet _)) fun _ whole => ?_
      cases (books_eq_iff.mp books).2.2.symm.trans whole
  | succeed before =>
      obtain ⟨begun, -⟩ := tracked.pending _ (before ▸ Multiset.mem_cons_self _ _)
      have settled := begun.settle tried answered (by simp [isLimited])
      exact tracked.done later before (fun x other => unmoved_of_answer tried answered other)
        (.inr settled) fun _ _ => settled
  | @postpone job rest error wait before after limited spare =>
      obtain ⟨begun, count⟩ := tracked.pending _ (before ▸ Multiset.mem_cons_self _ _)
      have spare := UInt32.lt_iff_toNat_lt.mp spare
      have goesOn := begun.postpone tried answered (by simp [isLimited, limited])
        (by rw [count]; exact spare)
      refine tracked.goOn later before after rfl
        (fun x other => unmoved_of_answer tried answered other) goesOn ?_
      rw [(begun.answered tried answered).1, List.length_append, count]
      exact (retries_again spare).symm
  | @fail job error before final =>
      obtain ⟨begun, count⟩ := tracked.pending _ (before ▸ Multiset.mem_cons_self _ _)
      have settled := begun.settle tried answered fun limited => by
        -- A job that met a limit ends only if its retries are used up, and they count its outcomes.
        rcases final with final | spent
        · simp [isLimited, final] at limited
        · rw [UInt32.lt_iff_toNat_lt, ← count] at spent
          exact Nat.le_antisymm begun.le_cap (Nat.le_of_not_lt spent)
      exact tracked.done later before (fun x other => unmoved_of_answer tried answered other)
        (.inr settled) fun _ _ => settled
  | settle delivering ended none books =>
      have quiet (x : Recipient) : Unmoved x events (events ++ [e]) :=
        unmoved_of_quiet tried answered
      have nobody : r'.recipients = 0 := by rw [recipients, none, Multiset.map_zero]
      refine tracked.after later (nobody ▸ Multiset.zero_le _) (fun x => .inl (quiet x)) ?_ ?_
      · simp [none]
      · intro _ whole' x there
        have empty := whole delivering ended (later.lost whole')
        simp [recipients, empty] at there

theorem Deed.lost_le {answer : Option (Recipient × Except DeliveryError Unit)}
    {attempts : List Attempt} (deed : Deed r r' answer attempts) : r.lost ≤ r'.lost := by
  cases deed with
  | keep _ books | call _ _ _ books | postpone _ _ _ _ books | skip _ _ books | succeed _ books
  | fail _ _ books | settle _ _ _ books => rw [(books_eq_iff.mp books).2.2]
  | lose _ books =>
      rw [(books_eq_iff.mp books).2.2]
      exact Nat.le_succ _

end Jobs

/-! ## A whole run -/

section Courses

variable {events : List (Event Run Move)} {plan : Plan} {began : Moment} {cancelled : Bool}
  {r : Run}

theorem slack_of_course (course : Course step (opening plan began cancelled) events r) : r.Slack :=
  course.invariant (slack_opening plan began cancelled) slack_of_step

theorem tracked_opening (distinct : plan.targets.Nodup) :
    Tracked [] (opening plan began cancelled) := by
  have recipients : (opening plan began cancelled).recipients = plan.targets := by
    rw [recipients, pending_opening, Multiset.map_coe, List.map_map]
    exact congrArg _ (List.map_id _)
  have waits (x : Recipient) : Open plan.maxRetries.toNat [] x false :=
    ⟨rfl, by simp [outcomesOf], Nat.zero_le _⟩
  constructor
  · intro entry member
    rw [pending_opening, Multiset.mem_coe, List.mem_map] at member
    obtain ⟨x, -, rfl⟩ := member
    exact ⟨waits x, rfl⟩
  · rw [recipients]
    exact Multiset.coe_nodup.mpr distinct
  · intro x member
    rwa [recipients] at member
  · exact fun x _ => .inl ⟨false, waits x⟩
  · intro _ _ x member absent
    rw [recipients] at absent
    exact absurd member absent
  · exact fun x _ => ⟨rfl, rfl⟩

/-- The targets of a run are always tracked. -/
theorem tracked_of_course (course : Course step (opening plan began cancelled) events r)
    (distinct : plan.targets.Nodup) : Tracked events r := by
  induction course with
  | start => exact tracked_opening distinct
  | @next events now s t move effects past made ih =>
      have staffed := staffed_of_course past
      have deed := deed_of_step made staffed
      have later : Later s t := by
        refine ⟨(plan_of_step made).1, ?_, fun none => Nat.eq_zero_of_le_zero (none ▸ deed.lost_le)⟩
        intro going
        by_contra cancelled
        rw [Bool.not_eq_false] at cancelled
        cases going.symm.trans (cancelled_of_step made cancelled)
      exact deed.tracked ih later rfl rfl
        (pending_of_finished staffed (slack_of_course past))

/-- Whatever a run tries to deliver is its message, and goes to one of its targets. -/
theorem attempt_of_course (course : Course step (opening plan began cancelled) events r)
    (distinct : plan.targets.Nodup) {a : Attempt} (tried : a ∈ events.flatMap Event.attempts) :
    a.recipient ∈ plan.targets ∧ a.source = plan.source ∧ a.mode = plan.mode := by
  induction course with
  | start => simp at tried
  | @next events now s t move effects past made ih =>
      rw [List.flatMap_append, List.mem_append] at tried
      rcases tried with before | now'
      · exact ih before
      · have deed := deed_of_step made (staffed_of_course past)
        have tracked := tracked_of_course past distinct
        have plan := (plan_of_course past).1
        generalize s.answerTo move = answer at deed
        generalize attempts : effects.filterMap Effect.attempt? = tries at deed
        have member : a ∈ tries := by simpa [Event.attempts, attempts] using now'
        cases deed with
        | call _ before =>
            rw [List.mem_singleton] at member
            rw [opening_plan] at plan
            rw [member, ← plan]
            refine ⟨tracked.subset _ ?_, rfl, rfl⟩
            rw [recipients, before, Multiset.map_cons]
            exact Multiset.mem_cons_self _ _
        | keep | skip | lose | succeed | postpone | fail | settle => cases member

/-- No two workers deliver to the same target at the same time. -/
theorem Tracked.alone (tracked : Tracked events r) {i j : Nat} {job job' : Job}
    (delivering : r.workers[i]? = some (.delivering job))
    (delivering' : r.workers[j]? = some (.delivering job'))
    (same : job.recipient = job'.recipient) : i = j := by
  by_contra other
  let r₁ := r.setWorker i .idle
  let r₂ := r₁.setWorker j .idle
  have still : r₁.workers[j]? = some (.delivering job') := by
    rw [← delivering']
    exact List.getElem?_set_ne other
  have first : r.pending = (job, true) ::ₘ r₁.pending :=
    pending_of_drop r₁ delivering rfl rfl rfl rfl
  have second : r₁.pending = (job', true) ::ₘ r₂.pending :=
    pending_of_drop r₂ still rfl rfl rfl rfl
  have nodup := tracked.nodup
  rw [recipients, first, second, Multiset.map_cons, Multiset.map_cons, same,
    Multiset.nodup_cons] at nodup
  exact nodup.1 (Multiset.mem_cons_self _ _)

end Courses

end Broadcast.Run
