import Broadcast.Proofs.Run.Attempts

/-!
# Recipients that are gone

A delivery that ends because the recipient is gone starts one removal, and nothing else does. So
the removals of a run are those of the targets whose last outcome says so, one for each; whoever
is asked to leave the directory is asked once; and the run counts those who did.
-/

namespace Broadcast.Run

/-- The outcomes that mean that the recipient is gone for good. -/
def goneErrors : List DeliveryError :=
  [.peerBlocked, .peerDeactivated, .peerInvalid, .chatForbidden, .botKicked, .chatNotFound]

theorem isGone_iff {error : DeliveryError} : error.isGone = true ↔ error ∈ goneErrors := by
  cases error <;> simp [DeliveryError.isGone, goneErrors]

theorem isGone_of_wait {error : DeliveryError} {wait : Duration}
    (limited : error.wait? = some wait) : error.isGone = false := by
  cases error <;> first | rfl | cases limited

/-- The outcome means that the recipient is gone for good. -/
def isDismissal : Except DeliveryError Unit → Bool
  | .error error => error.isGone
  | .ok () => false

/-- The deliveries to a recipient ended because the recipient is gone. -/
def Dismissed (x : Recipient) (events : List (Event Run Move)) : Prop :=
  ∃ past error, outcomesOf x events = past ++ [.error error] ∧ error ∈ goneErrors

/-- The recipient who turns out to be gone with an answer to a delivery. -/
def gone? (answer : Recipient × Except DeliveryError Unit) : Option Recipient :=
  if isDismissal answer.2 then some answer.1 else none

/-- The recipients who turned out to be gone, in order. -/
def dismissals (events : List (Event Run Move)) : List Recipient :=
  (events.filterMap answer?).filterMap gone?

/-- The recipient that is asked to leave the directory. -/
def Effect.removal? : Effect → Option Recipient
  | .ask (.remove _ x) => some x
  | _ => none

/-- How often a recipient was asked to leave the directory. -/
def requestsTo (x : Recipient) (events : List (Event Run Move)) : Nat :=
  (events.flatMap Event.effects).countP (·.removal? = some x)

/-- A recipient left the directory with the move. -/
def Move.departs : Move → Bool
  | .removal _ (.answered (.gave left)) => left
  | _ => false

/-! ## One move -/

/-- What a move does to the removals of a run. -/
inductive Parting (r : Run) : Move → Run → List Effect → Prop
  /-- Nothing. -/
  | still {move : Move} {r' : Run} {effects : List Effect} :
      (r.answerTo move).bind gone? = none → move.departs = false → r'.removals = r.removals →
      r'.removed = r.removed → (∀ effect ∈ effects, effect.removal? = none) →
      Parting r move r' effects
  /-- A recipient turns out to be gone. -/
  | dismiss {move : Move} {r' : Run} {effects : List Effect} {x : Recipient} :
      (r.answerTo move).bind gone? = some x → move.departs = false →
      r'.removals = r.removals ++ [⟨x, .queued⟩] → r'.removed = r.removed →
      (∀ effect ∈ effects, effect.removal? = none) → Parting r move r' effects
  /-- A removal goes on. -/
  | leave {k : Nat} {move : RemovalMove} {r' : Run} {effects : List Effect} :
      Leaving r k move r' effects → Parting r (.removal k move) r' effects

private theorem Turn.parting {now : Moment} {r r' : Run} {i : Nat} {move : WorkerMove}
    {effects : List Effect} (turn : Turn now r i move r' effects) :
    Parting r (.worker i move) r' effects := by
  have quiet : ∀ effect ∈ effects, effect.removal? = none := by
    cases turn <;> simp [Effect.removal?, ending]
  cases turn with
  | finish | drop | take | jam | skip | call | crash | wake =>
      exact .still rfl rfl rfl rfl quiet
  | succeed delivering =>
      exact .still (by rw [answerTo_of_delivering delivering]; rfl) rfl rfl rfl quiet
  | postpone delivering limited | exhaust delivering limited =>
      refine .still ?_ rfl rfl rfl quiet
      simp [answerTo_of_delivering delivering, gone?, isDismissal, isGone_of_wait limited]
  | refuse delivering _ stays =>
      refine .still ?_ rfl rfl rfl quiet
      simp [answerTo_of_delivering delivering, gone?, isDismissal, stays]
  | dismiss delivering _ gone =>
      refine .dismiss ?_ rfl rfl rfl quiet
      simp [answerTo_of_delivering delivering, gone?, isDismissal, gone]

private theorem Leg.parting {now : Moment} {r r' : Run} {move : Move} {effects : List Effect}
    (leg : Leg now r move r' effects) : Parting r move r' effects := by
  have announced (answer : Answer (Option Handle)) :
      ∀ effect ∈ (r.announced answer).2, effect.removal? = none := by
    intro effect brought
    rcases plain_of_announced brought with ⟨metric, rfl⟩ | ⟨part, rfl⟩ <;> rfl
  cases leg with
  | overrun | crew => exact .still rfl rfl rfl rfl (announced _)
  | join =>
      obtain ⟨removals, removed⟩ := joined_removals now r
      exact .still rfl rfl removals removed (by simp [joined, Effect.removal?])
  | lost | drain | timeOut | report | send | editLost | edited | resend | replyLost | replied
  | cancel => exact .still rfl rfl rfl rfl (by simp [Effect.removal?])

theorem parting_of_step {now : Moment} {r r' : Run} {move : Move} {effects : List Effect}
    (made : r.step now move = some (r', effects)) : Parting r move r' effects := by
  cases way_of_step made with
  | worker turn => exact turn.parting
  | removal leaving => exact .leave leaving
  | display showing =>
      cases showing <;> exact .still rfl rfl rfl rfl (by simp [Effect.removal?])
  | leg leg => exact leg.parting

/-! ## One removal for each -/

section Courses

variable {events : List (Event Run Move)} {plan : Plan} {began : Moment} {cancelled : Bool}
  {r : Run} {x : Recipient}

theorem dismissals_concat (events : List (Event Run Move)) (e : Event Run Move) :
    dismissals (events ++ [e]) = dismissals events ++ ((answer? e).bind gone?).toList := by
  rw [dismissals, List.filterMap_append, List.filterMap_append, ← dismissals]
  cases answer : answer? e with
  | none => simp [answer]
  | some answer' => cases gone : gone? answer' <;> simp [answer, gone]

private theorem recipients_setRemoval (r : Run) (k : Nat) (stage : RemovalStage) :
    (r.setRemoval k stage).removals.map Removal.recipient =
      r.removals.map Removal.recipient := by
  rw [setRemoval]
  apply List.ext_getElem?
  intro j
  rw [List.getElem?_map, List.getElem?_map, List.getElem?_modify]
  cases r.removals[j]? with
  | none => rfl
  | some removal => by_cases mine : k = j <;> simp [mine]

/-- The removals of a run are those of the recipients who turned out to be gone, in order. -/
theorem removals_of_course (course : Course step (opening plan began cancelled) events r) :
    r.removals.map Removal.recipient = dismissals events := by
  induction course with
  | start => rfl
  | @next events now s t move effects past made ih =>
      rw [dismissals_concat, ← ih, answer?]
      cases parting_of_step made with
      | still answer _ same => rw [same, answer, Option.toList_none, List.append_nil]
      | dismiss answer _ more =>
          rw [more, answer, List.map_append]
          rfl
      | leave leaving =>
          have recipients : t.removals.map Removal.recipient =
              s.removals.map Removal.recipient := by
            cases leaving with
            | begin | crash | answer => exact recipients_setRemoval _ _ _
          rw [recipients]
          exact (List.append_nil _).symm

private theorem count_dismissals (x : Recipient) (events : List (Event Run Move)) :
    (dismissals events).count x = (outcomesOf x events).countP isDismissal := by
  rw [dismissals, outcomesOf]
  induction events.filterMap answer? with
  | nil => rfl
  | cons answer answers ih =>
      obtain ⟨y, outcome⟩ := answer
      by_cases mine : y = x <;> cases gone : isDismissal outcome <;>
        simp [gone?, mine, gone, ih]

private theorem Tracked.limited (tracked : Tracked events r) (x : Recipient) :
    ∀ outcome ∈ (outcomesOf x events).dropLast, isLimited outcome = true := by
  intro outcome member
  by_cases target : x ∈ r.plan.targets
  · rcases tracked.target x target with ⟨begun, goesOn⟩ | settled
    · exact goesOn.limited outcome (List.dropLast_subset _ member)
    · obtain ⟨past, last, whole, limited, -⟩ := settled.last
      rw [whole, List.dropLast_concat] at member
      exact limited outcome member
  · rw [(tracked.stranger x target).2] at member
    cases member

/-- Whoever was dismissed turned out to be gone once, and nobody else did. -/
theorem Tracked.dismissed (tracked : Tracked events r) (x : Recipient) :
    (dismissals events).count x = 1 ∧ Dismissed x events ∨
      (dismissals events).count x = 0 ∧ ¬Dismissed x events := by
  rw [count_dismissals]
  have limited := tracked.limited x
  rcases List.eq_nil_or_concat (outcomesOf x events) with none | ⟨past, last, whole⟩
  · refine .inr ⟨by rw [none]; rfl, ?_⟩
    rintro ⟨past, error, whole, -⟩
    simp [none] at whole
  · rw [List.concat_eq_append] at whole
    rw [whole, List.dropLast_concat] at limited
    have before : past.countP isDismissal = 0 := by
      rw [List.countP_eq_zero]
      intro outcome member gone
      have again := limited outcome member
      cases outcome with
      | ok => cases gone
      | error error =>
          obtain ⟨wait, limited⟩ := Option.isSome_iff_exists.mp again
          cases (isGone_of_wait limited).symm.trans gone
    rw [whole, List.countP_append, before, Nat.zero_add, List.countP_singleton]
    cases gone : isDismissal last with
    | true =>
        cases last with
        | ok => cases gone
        | error error => exact .inl ⟨rfl, past, error, whole, isGone_iff.mp gone⟩
    | false =>
        refine .inr ⟨rfl, ?_⟩
        rintro ⟨past', error, whole', member⟩
        obtain ⟨-, same⟩ := List.append_inj' (whole.symm.trans whole') rfl
        cases same
        cases (isGone_iff.mpr member).symm.trans gone

theorem Tracked.dismissed_append {more : List (Event Run Move)} {r' : Run}
    (tracked : Tracked events r) (tracked' : Tracked (events ++ more) r')
    (dismissed : Dismissed x events) : Dismissed x (events ++ more) := by
  have once : (dismissals events).count x = 1 :=
    (tracked.dismissed x).elim And.left fun stays => absurd dismissed stays.2
  have kept : 1 ≤ (dismissals (events ++ more)).count x := by
    rw [dismissals, List.filterMap_append, List.filterMap_append, List.count_append,
      ← dismissals, once]
    exact Nat.le_add_right _ _
  rcases tracked'.dismissed x with ⟨-, dismissed⟩ | ⟨none, -⟩
  · exact dismissed
  · omega

theorem Tracked.target_of_dismissed (tracked : Tracked events r) (dismissed : Dismissed x events) :
    x ∈ r.plan.targets := by
  by_contra stranger
  obtain ⟨past, error, whole, -⟩ := dismissed
  rw [(tracked.stranger x stranger).2] at whole
  simp at whole

/-! ## One request for each -/

/-- The removals of a recipient that do not wait for a permit any more. -/
def requested (x : Recipient) (r : Run) : Nat :=
  r.removals.countP fun removal => removal.recipient = x ∧ removal.stage ≠ .queued

theorem requestsTo_concat (x : Recipient) (events : List (Event Run Move)) (e : Event Run Move) :
    requestsTo x (events ++ [e]) =
      requestsTo x events + e.effects.countP (·.removal? = some x) := by
  simp [requestsTo]

/-- The directory is asked as soon as a removal does not wait any more, and only then. -/
private theorem requested_of_step {now : Moment} {r' : Run} {move : Move} {effects : List Effect}
    (made : r.step now move = some (r', effects)) (x : Recipient) :
    r'.requested x = r.requested x + effects.countP (·.removal? = some x) := by
  have plain (quiet : ∀ effect ∈ effects, effect.removal? = none) :
      effects.countP (·.removal? = some x) = 0 := by
    rw [List.countP_eq_zero]
    intro effect member
    simp [quiet effect member]
  have moved {k : Nat} {removal : Removal} (present : r.removals[k]? = some removal)
      (stage : RemovalStage) : (r.setRemoval k stage).requested x +
        (if removal.recipient = x ∧ removal.stage ≠ .queued then 1 else 0) =
      r.requested x + if removal.recipient = x ∧ stage ≠ .queued then 1 else 0 := by
    simpa only [requested, decide_eq_true_eq] using
      countP_setRemoval (fun removal => removal.recipient = x ∧ removal.stage ≠ .queued) present
        stage
  cases parting_of_step made with
  | still _ _ same _ quiet => rw [plain quiet, requested, same, requested, Nat.add_zero]
  | dismiss _ _ more _ quiet =>
      rw [plain quiet, requested, more, List.countP_append, requested, Nat.add_zero]
      simp
  | @leave k _ _ _ leaving =>
      cases leaving with
      | begin queued => simpa [Effect.removal?] using moved queued .asking
      | crash asking => simpa [Effect.removal?] using moved asking .broken
      | answer left asking =>
          change (r.setRemoval k .done).requested x = _
          simpa [Effect.removal?] using moved asking .done

/-- The directory was asked for the removals that do not wait for a permit any more. -/
theorem requests_of_course (course : Course step (opening plan began cancelled) events r)
    (x : Recipient) : requestsTo x events = r.requested x := by
  induction course with
  | start => rfl
  | next _ made ih => rw [requestsTo_concat, ih, requested_of_step made]

private theorem countP_and_not {α : Type} (p q : α → Bool) (l : List α) :
    l.countP (fun a => p a && q a) + l.countP (fun a => p a && !q a) = l.countP p := by
  induction l with
  | nil => rfl
  | cons a l ih => cases hp : p a <;> cases hq : q a <;> simp [hp, hq] <;> omega

/-- Whoever is dismissed has one removal, which asks the directory once. -/
theorem Tracked.requests (tracked : Tracked events r)
    (course : Course step (opening plan began cancelled) events r) (x : Recipient) :
    Dismissed x events ∧ (r.removals.map Removal.recipient).count x = 1 ∧
        requestsTo x events = (if ⟨x, .queued⟩ ∈ r.removals then 0 else 1) ∨
      ¬Dismissed x events ∧ x ∉ r.removals.map Removal.recipient ∧
        requestsTo x events = 0 := by
  have split := countP_and_not (fun removal => removal.recipient = x)
    (fun removal => removal.stage = .queued) r.removals
  have card : r.removals.countP (fun removal => removal.recipient = x) =
      (dismissals events).count x := by
    rw [← removals_of_course course, List.count, List.countP_map]
    exact List.countP_congr fun removal _ => by simp
  have asked : r.requested x = r.removals.countP fun removal =>
      removal.recipient = x && !decide (removal.stage = .queued) :=
    List.countP_congr fun removal _ => by simp
  have waits : ⟨x, .queued⟩ ∈ r.removals ↔
      0 < r.removals.countP fun removal =>
        removal.recipient = x && decide (removal.stage = .queued) := by
    rw [List.countP_pos_iff]
    constructor
    · intro member
      exact ⟨_, member, by simp⟩
    · rintro ⟨⟨y, stage⟩, member, same⟩
      obtain ⟨rfl, rfl⟩ : y = x ∧ stage = .queued := by simpa using same
      exact member
  rw [requests_of_course course, removals_of_course course, asked]
  rw [card] at split
  rcases tracked.dismissed x with ⟨once, dismissed⟩ | ⟨none, stays⟩
  · refine .inl ⟨dismissed, once, ?_⟩
    split_ifs with queued
    · have := waits.mp queued
      omega
    · have := mt waits.mpr queued
      omega
  · exact .inr ⟨stays, List.count_eq_zero.mp none, by omega⟩

end Courses

end Broadcast.Run
