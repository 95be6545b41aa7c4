import Broadcast.Proofs.Desk.Change
import Mathlib.Data.List.Induction

/-!
# The history of a desk

What is in the slot, and which runs are cancelled, is told by the actions that led there: by the
runs that were attached through a claim, and by the wishes to cancel that came under it.
-/

namespace Broadcast.Desk

/-! ## Histories -/

/-- An action happens after actions with a property. -/
def Happens (occurs : List Action → Action → Prop) (actions : List Action) : Prop :=
  ∃ past action rest, actions = past ++ action :: rest ∧ occurs past action

theorem happens_concat {occurs : List Action → Action → Prop} {past : List Action}
    {action : Action} :
    Happens occurs (past ++ [action]) ↔ Happens occurs past ∨ occurs past action := by
  constructor
  · rintro ⟨early, a, rest, whole, occurs⟩
    rcases List.eq_nil_or_concat rest with rfl | ⟨rest, last, rfl⟩
    · obtain ⟨rfl, same⟩ := List.append_inj' whole rfl
      cases same
      exact .inr occurs
    · rw [List.concat_eq_append, ← List.cons_append, ← List.append_assoc] at whole
      obtain ⟨rfl, -⟩ := List.append_inj' whole rfl
      exact .inl ⟨early, a, rest, rfl, occurs⟩
  · rintro (⟨early, a, rest, rfl, occurs⟩ | occurs)
    · exact ⟨early, a, rest ++ [action], by simp, occurs⟩
    · exact ⟨past, action, [], rfl, occurs⟩

theorem run_concat (d : Desk) (past : List Action) (action : Action) :
    d.run (past ++ [action]) = ((d.run past).step action).1 := by
  simp [run]

/-- The run that an action attaches through a claim. -/
def attached? (claim : Nat) (d : Desk) : Action → Option Nat
  | .attach k run => if k = claim ∧ d.holdsClaim claim = true then some run else none
  | _ => none

/-- The runs that actions at a desk attach through a claim, in order. -/
def attachedThrough (claim : Nat) : Desk → List Action → List Nat
  | _, [] => []
  | d, action :: rest =>
    (d.attached? claim action).toList ++ attachedThrough claim (d.step action).1 rest

theorem attachedThrough_concat (claim : Nat) (d : Desk) (past : List Action) (action : Action) :
    attachedThrough claim d (past ++ [action]) =
      attachedThrough claim d past ++ ((d.run past).attached? claim action).toList := by
  induction past generalizing d with
  | nil => simp [attachedThrough, run]
  | cons first past ih =>
      rw [List.cons_append, attachedThrough, attachedThrough, ih, List.append_assoc]
      rfl

/-- A wish to cancel comes while a claim holds. -/
def CancelledUnder (claim : Nat) : List Action → Prop :=
  Happens fun past action =>
    action = .cancelFlight ∧ (empty.run past).holdsClaim claim = true

/-- An action after others cancels a run. -/
inductive Cancels (r : Nat) (past : List Action) : Action → Prop
  /-- The run is cancelled directly. -/
  | direct : Cancels r past (.cancelRun r)
  /-- The run is the current one. -/
  | current : (empty.run past).flight.current? = some r → Cancels r past .cancelFlight
  /-- The run is the first one that is attached through a claim, after a wish to cancel under the
  same claim. -/
  | first {claim : Nat} :
      (empty.run past).holdsClaim claim = true → attachedThrough claim empty past = [] →
      CancelledUnder claim past → Cancels r past (.attach claim r)

/-- Some action cancelled a run that was there. -/
def Cancelled (r : Nat) : List Action → Prop :=
  Happens fun past action => r < (empty.run past).tallies.length ∧ Cancels r past action

/-! ## The slot -/

/-- The slot is what the actions that led to it say. -/
structure Held (actions : List Action) (d : Desk) : Prop where
  /-- At most one claim holds. -/
  one : ∀ j k, d.holdsClaim j = true → d.holdsClaim k = true → j = k
  /-- The slot is busy as long as a claim holds. -/
  busy : d.flight.isBusy = true ↔ ∃ k, d.holdsClaim k = true
  /-- The current run is the one that was attached last through the claim that holds. -/
  current : ∀ k, d.holdsClaim k = true →
    d.flight.current? = (attachedThrough k empty actions).getLast?
  /-- A cancel is parked if it came under the claim that holds, and nothing has been attached. -/
  parked : ∀ k, d.holdsClaim k = true →
    (d.flight = .claimed true ↔
      attachedThrough k empty actions = [] ∧ CancelledUnder k actions)
  /-- Nothing happens under a claim that was not made. -/
  unmade : ∀ k, d.claims.length ≤ k →
    attachedThrough k empty actions = [] ∧ ¬CancelledUnder k actions

theorem lt_of_holdsClaim {d : Desk} {k : Nat} (holds : d.holdsClaim k = true) :
    k < d.claims.length := by
  by_contra unmade
  rw [holdsClaim, List.getElem?_eq_none (Nat.le_of_not_lt unmade)] at holds
  cases holds

private theorem holdsClaim_concat {d d' : Desk} {success : Bool}
    (claims : d'.claims = d.claims ++ [success]) (k : Nat) :
    d'.holdsClaim k = if k = d.claims.length then success else d.holdsClaim k := by
  rw [holdsClaim, holdsClaim, claims]
  rcases Nat.lt_trichotomy k d.claims.length with before | rfl | beyond
  · rw [List.getElem?_append_left before, if_neg (Nat.ne_of_lt before)]
  · rw [List.getElem?_concat_length, if_pos rfl]
    rfl
  · rw [List.getElem?_eq_none (by rwa [List.length_append]), if_neg (Nat.ne_of_gt beyond),
      List.getElem?_eq_none (Nat.le_of_lt beyond)]

theorem Held.idle {actions : List Action} {d : Desk} (held : Held actions d)
    (idle : d.flight = .idle) (k : Nat) : d.holdsClaim k = false := by
  cases holds : d.holdsClaim k with
  | false => rfl
  | true =>
      have busy := held.busy.mpr ⟨k, holds⟩
      simp [idle, Flight.isBusy] at busy

section Moves

variable {past : List Action} {action : Action} {k : Nat}

private theorem attachedThrough_of_quiet (quiet : (empty.run past).attached? k action = none) :
    attachedThrough k empty (past ++ [action]) = attachedThrough k empty past := by
  rw [attachedThrough_concat, quiet, Option.toList_none, List.append_nil]

private theorem cancelledUnder_of_other
    (other : (empty.run past).holdsClaim k = true → action ≠ .cancelFlight) :
    CancelledUnder k (past ++ [action]) ↔ CancelledUnder k past := by
  rw [CancelledUnder, happens_concat]
  exact or_iff_left fun now => other now.2 now.1

private theorem Held.keep {d' : Desk} (held : Held past (empty.run past))
    (flight : d'.flight = (empty.run past).flight)
    (claims : ∀ k, d'.holdsClaim k = (empty.run past).holdsClaim k)
    (more : (empty.run past).claims.length ≤ d'.claims.length)
    (quiet : ∀ k, (empty.run past).attached? k action = none)
    (other : ∀ k, (empty.run past).holdsClaim k = true → action ≠ .cancelFlight) :
    Held (past ++ [action]) d' := by
  constructor
  · intro j k
    rw [claims, claims]
    exact held.one j k
  · simp only [flight, claims]
    exact held.busy
  · intro k holds
    rw [flight, attachedThrough_of_quiet (quiet k)]
    exact held.current k (claims k ▸ holds)
  · intro k holds
    rw [flight, attachedThrough_of_quiet (quiet k), cancelledUnder_of_other (other k)]
    exact held.parked k (claims k ▸ holds)
  · intro k beyond
    rw [attachedThrough_of_quiet (quiet k), cancelledUnder_of_other (other k)]
    exact held.unmade k (Nat.le_trans more beyond)

private theorem Held.claim {d' : Desk} (held : Held past (empty.run past))
    (idle : (empty.run past).flight = .idle) (flight : d'.flight = .claimed false)
    (claims : d'.claims = (empty.run past).claims ++ [true]) : Held (past ++ [.claim]) d' := by
  have holds (k : Nat) : d'.holdsClaim k = true ↔ k = (empty.run past).claims.length := by
    rw [holdsClaim_concat claims, held.idle idle k]
    simp
  have quiet (k : Nat) : attachedThrough k empty (past ++ [.claim]) =
      attachedThrough k empty past := attachedThrough_of_quiet rfl
  have other (k : Nat) : CancelledUnder k (past ++ [.claim]) ↔ CancelledUnder k past :=
    cancelledUnder_of_other fun _ => by simp
  constructor
  · intro j k first second
    rw [(holds j).mp first, (holds k).mp second]
  · rw [flight]
    exact iff_of_true rfl ⟨_, (holds _).mpr rfl⟩
  · intro k now
    rw [flight, quiet, (held.unmade k (Nat.le_of_eq ((holds k).mp now).symm)).1]
    rfl
  · intro k now
    rw [flight, other]
    have none := (held.unmade k (Nat.le_of_eq ((holds k).mp now).symm)).2
    exact iff_of_false (by simp) fun parked => none parked.2
  · intro k beyond
    rw [quiet, other]
    rw [claims, List.length_append] at beyond
    exact held.unmade k (Nat.le_trans (Nat.le_add_right _ _) beyond)

private theorem Held.attach {d' : Desk} {run : Nat} (held : Held past (empty.run past))
    (holds : (empty.run past).holdsClaim k = true) (flight : d'.flight = .attached run)
    (claims : d'.claims = (empty.run past).claims) : Held (past ++ [.attach k run]) d' := by
  have same (j : Nat) : d'.holdsClaim j = (empty.run past).holdsClaim j := by
    rw [holdsClaim, holdsClaim, claims]
  have attached : attachedThrough k empty (past ++ [.attach k run]) =
      attachedThrough k empty past ++ [run] := by
    rw [attachedThrough_concat, attached?, if_pos ⟨rfl, holds⟩]
    rfl
  have mine {j : Nat} (now : d'.holdsClaim j = true) : j = k :=
    held.one j k (same j ▸ now) holds
  constructor
  · intro i j
    rw [same, same]
    exact held.one i j
  · rw [flight]
    exact iff_of_true rfl ⟨k, (same k).trans holds⟩
  · intro j now
    rw [flight, mine now, attached, List.getLast?_concat]
    rfl
  · intro j now
    rw [flight, mine now, attached]
    exact iff_of_false (by simp) fun parked => by simp at parked
  · intro j beyond
    rw [claims] at beyond
    have other : k ≠ j := Nat.ne_of_lt (Nat.lt_of_lt_of_le (lt_of_holdsClaim holds) beyond)
    rw [attachedThrough_of_quiet (by simp [attached?, other]),
      cancelledUnder_of_other fun _ => by simp]
    exact held.unmade j beyond

private theorem Held.release {d' : Desk} (held : Held past (empty.run past))
    (holds : (empty.run past).holdsClaim k = true) (flight : d'.flight = .idle)
    (claims : d'.claims = (empty.run past).claims.set k false) :
    Held (past ++ [.release k]) d' := by
  have nobody (j : Nat) : d'.holdsClaim j ≠ true := by
    intro now
    rw [holdsClaim, claims] at now
    by_cases mine : k = j
    · subst mine
      rw [List.getElem?_set_self (lt_of_holdsClaim holds)] at now
      cases now
    · rw [List.getElem?_set_ne mine] at now
      exact mine (held.one k j holds now)
  constructor
  · exact fun j _ now => absurd now (nobody j)
  · rw [flight]
    exact iff_of_false (by simp [Flight.isBusy]) fun ⟨j, now⟩ => nobody j now
  · exact fun j now => absurd now (nobody j)
  · exact fun j now => absurd now (nobody j)
  · intro j beyond
    rw [attachedThrough_of_quiet rfl, cancelledUnder_of_other fun _ => by simp]
    exact held.unmade j (by rwa [claims, List.length_set] at beyond)

private theorem Held.cancel {d' : Desk} (held : Held past (empty.run past))
    (busy : (empty.run past).flight.isBusy = true)
    (flight : d'.flight = (empty.run past).flight.cancel.1)
    (claims : d'.claims = (empty.run past).claims) : Held (past ++ [.cancelFlight]) d' := by
  have same (j : Nat) : d'.holdsClaim j = (empty.run past).holdsClaim j := by
    rw [holdsClaim, holdsClaim, claims]
  have quiet (j : Nat) : attachedThrough j empty (past ++ [.cancelFlight]) =
      attachedThrough j empty past := attachedThrough_of_quiet rfl
  have current : d'.flight.current? = (empty.run past).flight.current? ∧ d'.flight.isBusy = true ∧
      (d'.flight = .claimed true ↔ (empty.run past).flight.current? = none) := by
    rw [flight]
    cases before : (empty.run past).flight with
    | idle => simp [before, Flight.isBusy] at busy
    | claimed | attached => simp [Flight.cancel, Flight.current?, Flight.isBusy]
  constructor
  · intro i j
    rw [same, same]
    exact held.one i j
  · simp only [same]
    exact iff_of_true current.2.1 (held.busy.mp busy)
  · intro j now
    rw [current.1, quiet]
    exact held.current j (same j ▸ now)
  · intro j now
    have holds : (empty.run past).holdsClaim j = true := same j ▸ now
    have cancelled : CancelledUnder j (past ++ [.cancelFlight]) :=
      happens_concat.mpr (.inr ⟨rfl, holds⟩)
    rw [current.2.2, held.current j holds, quiet, List.getLast?_eq_none_iff]
    exact (and_iff_left cancelled).symm
  · intro j beyond
    rw [claims] at beyond
    rw [quiet, cancelledUnder_of_other fun holds =>
      absurd (lt_of_holdsClaim holds) (Nat.not_lt_of_le beyond)]
    exact held.unmade j beyond

/-- Every action leaves the slot as its history says. -/
private theorem held_of_step (held : Held past (empty.run past)) :
    Held (past ++ [action]) (empty.run (past ++ [action])) := by
  rw [run_concat]
  have change := change_of_step (empty.run past) action
  generalize ((empty.run past).step action).1 = d' at change
  cases change with
  | count isCount =>
      refine held.keep rfl (fun _ => rfl) (Nat.le_refl _) ?_ ?_
      · intro k
        cases action <;> first | rfl | cases isCount
      · rintro k - rfl
        cases isCount
  | newRun | cancelRun =>
      exact held.keep rfl (fun _ => rfl) (Nat.le_refl _) (fun _ => rfl) (fun _ _ => by simp)
  | claim idle => exact held.claim idle rfl rfl
  | deny =>
      refine held.keep rfl ?_ (by simp) (fun _ => rfl) (fun _ _ => by simp)
      intro k
      rw [holdsClaim_concat rfl]
      split
      next last =>
        rw [last, holdsClaim, List.getElem?_eq_none (Nat.le_refl _)]
        rfl
      next => rfl
  | meet holds => exact held.attach holds rfl rfl
  | attach holds => exact held.attach holds rfl rfl
  | detached stray =>
      refine held.keep rfl (fun _ => rfl) (Nat.le_refl _) ?_ (fun _ _ => by simp)
      intro k
      rw [attached?, if_neg]
      rintro ⟨rfl, holds⟩
      cases stray.symm.trans holds
  | release holds => exact held.release holds rfl rfl
  | released =>
      exact held.keep rfl (fun _ => rfl) (Nat.le_refl _) (fun _ => rfl) (fun _ _ => by simp)
  | refuse idle =>
      refine held.keep rfl (fun _ => rfl) (Nat.le_refl _) (fun _ => rfl) fun k holds => ?_
      cases (held.idle idle k).symm.trans holds
  | park claimed =>
      exact held.cancel (by simp [claimed, Flight.isBusy]) (by simp [claimed, Flight.cancel]) rfl
  | stop attached =>
      refine held.cancel (by simp [attached, Flight.isBusy]) ?_ rfl
      simp [attached, Flight.cancel, updateRun]

end Moves

/-- The slot is always what the actions that led to it say. -/
theorem held_of_run (actions : List Action) : Held actions (empty.run actions) := by
  induction actions using List.reverseRecOn with
  | nil =>
      have nobody (k : Nat) : (empty.run []).holdsClaim k ≠ true := by simp [holdsClaim, run, empty]
      refine ⟨fun j _ holds => absurd holds (nobody j), ?_, fun k holds => absurd holds (nobody k),
        fun k holds => absurd holds (nobody k), fun k _ => ⟨rfl, ?_⟩⟩
      · exact iff_of_false (by simp [run, empty, Flight.isBusy]) fun ⟨k, holds⟩ => nobody k holds
      · rintro ⟨past, action, rest, whole, -⟩
        simp at whole
  | append_singleton past action ih => exact held_of_step ih

end Broadcast.Desk
