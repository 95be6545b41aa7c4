import Broadcast.Proofs.Run.Attempts
import Mathlib.Data.Nat.Find

/-!
# How many attempts are due

Where the outcomes for a target depend on nothing but the number of the attempt, the attempts that
are due depend on nothing else either. A run makes no more of them, and it has made all of them
when it reports, unless it was cancelled or a worker broke down.
-/

namespace Broadcast.Run

/-- The attempts that are due for a target: up to the first outcome that asks for no other, or up
to the last retry. -/
def dueAttempts (cap : Nat) (outcome : Nat → Except DeliveryError Unit) : Nat :=
  Nat.find (p := fun n => isLimited (outcome n) = false ∨ n = cap) ⟨cap, .inr rfl⟩ + 1

/-- The outcome of the last attempt that is due. -/
def lastOutcome (cap : Nat) (outcome : Nat → Except DeliveryError Unit) :
    Except DeliveryError Unit :=
  outcome (dueAttempts cap outcome - 1)

/-- The outcomes of some events are those that recipient and number of the attempt demand. -/
def Follows (outcome : Recipient → Nat → Except DeliveryError Unit)
    (events : List (Event Run Move)) : Prop :=
  ∀ x i o, (outcomesOf x events)[i]? = some o → o = outcome x i

section

variable {cap : Nat} {events : List (Event Run Move)} {x : Recipient}
  {outcome : Recipient → Nat → Except DeliveryError Unit}

theorem Open.le_due {begun : Bool} (goesOn : Open cap events x begun)
    (follows : Follows outcome events) : attemptsTo x events ≤ dueAttempts cap (outcome x) := by
  have due : (outcomesOf x events).length + 1 ≤ dueAttempts cap (outcome x) := by
    refine Nat.succ_le_succ ((Nat.le_find_iff _ _).mpr fun i before => ?_)
    have present := List.getElem?_eq_getElem before
    have limited := goesOn.limited _ (List.getElem_mem before)
    rw [follows x i _ present] at limited
    have := goesOn.le_cap
    simp [limited]
    omega
  rw [goesOn.attempts]
  have := begun.toNat_le
  omega

theorem Settled.eq_due (settled : Settled cap events x) (follows : Follows outcome events) :
    attemptsTo x events = dueAttempts cap (outcome x) ∧
      (outcomesOf x events).countP (·.isOk) =
        if (lastOutcome cap (outcome x)).isOk then 1 else 0 := by
  obtain ⟨past, last, outcomes, limited, le_cap, late⟩ := settled.last
  have isLast : last = outcome x past.length := follows x _ _ (by rw [outcomes]; simp)
  have due : dueAttempts cap (outcome x) = past.length + 1 := by
    refine congrArg (· + 1) ((Nat.find_eq_iff _).mpr ⟨?_, fun i before => ?_⟩)
    · rw [← isLast]
      cases limits : isLimited last with
      | false => exact .inl rfl
      | true => exact .inr (late limits)
    · have present : (outcomesOf x events)[i]? = some past[i] := by
        rw [outcomes, List.getElem?_append_left before, List.getElem?_eq_getElem before]
      have := limited _ (List.getElem_mem before)
      rw [follows x i _ present] at this
      simp [this]
      omega
  constructor
  · rw [settled.attempts, outcomes, due, List.length_append]
    rfl
  · have none : past.countP (·.isOk) = 0 := by
      rw [List.countP_eq_zero]
      intro o member
      have := limited o member
      cases o with
      | ok => cases this
      | error => exact Bool.false_ne_true
    rw [outcomes, List.countP_append, none, lastOutcome, due, Nat.add_sub_cancel, ← isLast,
      List.countP_singleton, Nat.zero_add]

end

/-! ## Counting by target -/

private theorem sum_ite_eq_count (targets : List Recipient) (y : Recipient) (k : Nat) :
    (targets.map fun x => if y = x then k else 0).sum = targets.count y * k := by
  induction targets with
  | nil => simp
  | cons x targets ih =>
      rw [List.map_cons, List.sum_cons, ih, List.count_cons]
      by_cases same : y = x
      · simp [same, Nat.add_mul, Nat.add_comm]
      · simp [same, Ne.symm same]

private theorem countP_eq_sum (targets : List Recipient) (p : Recipient → Bool) :
    targets.countP p = (targets.map fun x => if p x then 1 else 0).sum := by
  induction targets with
  | nil => rfl
  | cons x targets ih =>
      rw [List.countP_cons, List.map_cons, List.sum_cons, ih, Nat.add_comm]

/-- Where all answers come from targets, the deliveries can be counted target by target. -/
theorem arrivals_eq_sum {targets : List Recipient} (distinct : targets.Nodup)
    {events : List (Event Run Move)} (known : ∀ x, x ∉ targets → outcomesOf x events = []) :
    arrivals events = (targets.map fun x => (outcomesOf x events).countP (·.isOk)).sum := by
  induction events using List.reverseRecOn with
  | nil => simp [arrivals, outcomesOf]
  | append_singleton events e ih =>
      have earlier : ∀ x, x ∉ targets → outcomesOf x events = [] := by
        intro x other
        have := known x other
        rw [outcomesOf_concat] at this
        exact (List.append_eq_nil_iff.mp this).1
      rw [arrivals_concat, ih earlier]
      cases answer : answer? e with
      | none => simp [outcomesOf_concat, answer]
      | some a =>
          obtain ⟨y, o⟩ := a
          have isTarget : y ∈ targets := by
            by_contra other
            simpa [outcomesOf_concat, answer] using known y other
          have each (x : Recipient) : (outcomesOf x (events ++ [e])).countP (·.isOk) =
              (outcomesOf x events).countP (·.isOk) + if y = x then [o].countP (·.isOk) else 0 := by
            rw [outcomesOf_concat, List.countP_append, answer]
            by_cases same : y = x <;> simp [same]
          simp only [each, List.sum_map_add, sum_ite_eq_count,
            List.count_eq_one_of_mem distinct isTarget, Nat.one_mul]
          rfl

/-! ## A whole run -/

section Courses

variable {events : List (Event Run Move)} {plan : Plan} {began : Moment} {cancelled : Bool}
  {r : Run} {outcome : Recipient → Nat → Except DeliveryError Unit}

/-- No target is tried more often than is due. -/
theorem le_due_of_course (course : Course step (opening plan began cancelled) events r)
    (distinct : plan.targets.Nodup) (follows : Follows outcome events) {x : Recipient}
    (target : x ∈ plan.targets) :
    attemptsTo x events ≤ dueAttempts plan.maxRetries.toNat (outcome x) := by
  have tracked := tracked_of_course course distinct
  have samePlan : r.plan = plan := (plan_of_course course).1
  rcases tracked.target x (samePlan ▸ target) with ⟨begun, goesOn⟩ | settled
  · exact samePlan ▸ goesOn.le_due follows
  · exact samePlan ▸ (settled.eq_due follows).1.le

/-- A run that was left alone has brought the deliveries to each target to their end. -/
theorem settled_of_course (course : Course step (opening plan began cancelled) events r)
    (distinct : plan.targets.Nodup) (going : r.tally.cancelled = false)
    (whole : .broken ∉ r.workers) (closing : r.stage.isClosing = true) {x : Recipient}
    (target : x ∈ plan.targets) : Settled plan.maxRetries.toNat events x := by
  have samePlan : r.plan = plan := (plan_of_course course).1
  obtain ⟨-, ended, empty⟩ := (staffed_of_course course).closed closing
  have none : r.recipients = 0 := by
    rw [recipients, pending_of_ended ended, queued, empty]
    rfl
  have fate := (tracked_of_course course distinct).ended going (lost_eq_zero_iff.mpr whole) x
    (samePlan ▸ target) (by simp [none])
  exact samePlan ▸ fate

/-- A run that was left alone has tried each target as often as is due, and counted the last
outcome of each. -/
theorem counts_of_course (course : Course step (opening plan began cancelled) events r)
    (distinct : plan.targets.Nodup) (countable : plan.targets.length < 2 ^ 64)
    (follows : Follows outcome events) (going : r.tally.cancelled = false)
    (whole : .broken ∉ r.workers) (closing : r.stage.isClosing = true) :
    (∀ x ∈ plan.targets, attemptsTo x events = dueAttempts plan.maxRetries.toNat (outcome x) ∧
      (outcomesOf x events).countP (·.isOk) =
        if (lastOutcome plan.maxRetries.toNat (outcome x)).isOk then 1 else 0) ∧
    r.success.toNat =
      plan.targets.countP (fun x => (lastOutcome plan.maxRetries.toNat (outcome x)).isOk) ∧
    r.failed.toNat =
      plan.targets.countP (fun x => !(lastOutcome plan.maxRetries.toNat (outcome x)).isOk) := by
  have tracked := tracked_of_course course distinct
  obtain ⟨samePlan, -, total⟩ := plan_of_course course
  rw [opening_plan] at samePlan
  have settled (x : Recipient) (target : x ∈ plan.targets) :=
    settled_of_course course distinct going whole closing target
  have success : r.success.toNat =
      plan.targets.countP (fun x => (lastOutcome plan.maxRetries.toNat (outcome x)).isOk) := by
    rw [success_of_course course countable, arrivals_eq_sum distinct, countP_eq_sum]
    · refine congrArg List.sum (List.map_congr_left fun x target => ?_)
      exact ((settled x target).eq_due follows).2
    · intro x other
      exact (tracked.stranger x (samePlan ▸ other)).2
  refine ⟨fun x target => (settled x target).eq_due follows, success, ?_⟩
  have sum := (balanced_of_course course countable).closed closing
  rw [total, opening_total, UInt64.toNat_ofNat_of_lt' countable, success,
    List.length_eq_countP_add_countP
      (fun x => (lastOutcome plan.maxRetries.toNat (outcome x)).isOk)] at sum
  simpa using Nat.add_left_cancel sum

end Courses

end Broadcast.Run
