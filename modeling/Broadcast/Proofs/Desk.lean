import Broadcast.Proofs.Desk.History

/-!
# The desk in every order of actions

Claims, attached runs, releases and wishes to cancel may come in any order. What is in the slot is
told by the claim that holds and by what came under it, and a run is cancelled for one of three
reasons: it was cancelled directly, a wish to cancel met it as the current run, or it was the first
run attached through a claim under which such a wish had come already. A wish that meets a run is
not kept for the runs that are attached later.
-/

namespace Broadcast.Desk

/-! ## The flags -/

/-- The flags are what the actions that led to them say. -/
def Flagged (actions : List Action) (d : Desk) : Prop :=
  ∀ r, d.flags[r]? = some true ↔ Cancelled r actions

private theorem flags_cancel (d : Desk) (run r : Nat) :
    (d.updateRun run Tally.cancel).flags[r]? = some true ↔
      d.flags[r]? = some true ∨ r < d.tallies.length ∧ r = run := by
  rw [flags, flags, updateRun, List.getElem?_map, List.getElem?_map, List.getElem?_modify]
  by_cases there : r < d.tallies.length
  · rw [List.getElem?_eq_getElem there]
    by_cases mine : run = r
    · simp [mine, Tally.cancel, there]
    · simp [mine, there, Ne.symm mine]
  · rw [List.getElem?_eq_none (Nat.le_of_not_lt there)]
    simp [there]

private theorem flags_newRun {d d' : Desk} {t : Tally} (tallies : d'.tallies = d.tallies ++ [t])
    (fresh : t.cancelled = false) (r : Nat) :
    d'.flags[r]? = some true ↔ d.flags[r]? = some true := by
  rw [flags, flags, tallies, List.map_append, List.getElem?_append]
  split
  next => rfl
  next beyond =>
    rw [List.getElem?_eq_none (l := d.tallies.map _) (Nat.le_of_not_lt beyond)]
    cases r - (d.tallies.map Tally.cancelled).length <;> simp [fresh]

section Moves

variable {past : List Action} {action : Action} {d' : Desk}

private theorem Flagged.after (flagged : Flagged past (empty.run past))
    (change : ∀ r, d'.flags[r]? = some true ↔
      (empty.run past).flags[r]? = some true ∨
        r < (empty.run past).tallies.length ∧ Cancels r past action) :
    Flagged (past ++ [action]) d' := by
  intro r
  rw [change, flagged r, Cancelled, happens_concat]

private theorem Flagged.keep (flagged : Flagged past (empty.run past))
    (same : ∀ r : Nat, d'.flags[r]? = some true ↔ (empty.run past).flags[r]? = some true)
    (spares : ∀ r, ¬Cancels r past action) : Flagged (past ++ [action]) d' :=
  flagged.after fun r => by simp [same, spares]

private theorem Flagged.cancel {d : Desk} {run : Nat} (flagged : Flagged past (empty.run past))
    (tallies : d.tallies = (empty.run past).tallies) (mine : ∀ r, Cancels r past action ↔ r = run) :
    Flagged (past ++ [action]) (d.updateRun run Tally.cancel) := by
  apply flagged.after
  intro r
  rw [flags_cancel, flags, tallies, mine]
  rfl

/-- Every action cancels the runs that its history says. -/
private theorem flagged_of_step (held : Held past (empty.run past))
    (flagged : Flagged past (empty.run past)) :
    Flagged (past ++ [action]) (empty.run (past ++ [action])) := by
  rw [run_concat]
  have change := change_of_step (empty.run past) action
  generalize ((empty.run past).step action).1 = d' at change
  cases change with
  | count isCount same =>
      refine flagged.keep (fun r => by rw [flags, same]) ?_
      rintro r (_ | _ | _) <;> cases isCount
  | newRun => exact flagged.keep (flags_newRun rfl rfl) (fun _ met => by cases met)
  | claim | deny | release | released =>
      exact flagged.keep (fun _ => Iff.rfl) (fun _ met => by cases met)
  | cancelRun =>
      refine flagged.cancel rfl fun r => ⟨?_, ?_⟩
      · rintro ⟨⟩
        rfl
      · rintro rfl
        exact .direct
  | @meet k run holds flight =>
      obtain ⟨first, cancelled⟩ := (held.parked k holds).mp flight
      refine flagged.cancel rfl fun r => ⟨?_, ?_⟩
      · rintro ⟨⟩
        rfl
      · rintro rfl
        exact .first holds first cancelled
  | attach holds flight =>
      refine flagged.keep (fun _ => Iff.rfl) ?_
      rintro r (_ | _ | ⟨-, first, cancelled⟩)
      exact flight ((held.parked _ holds).mpr ⟨first, cancelled⟩)
  | detached stray =>
      refine flagged.keep (fun _ => Iff.rfl) ?_
      rintro r (_ | _ | ⟨holds, -, -⟩)
      cases stray.symm.trans holds
  | refuse idle =>
      refine flagged.keep (fun _ => Iff.rfl) ?_
      rintro r (_ | current)
      simp [idle, Flight.current?] at current
  | park claimed =>
      refine flagged.keep (fun _ => Iff.rfl) ?_
      rintro r (_ | current)
      simp [claimed, Flight.current?] at current
  | @stop run attached =>
      refine flagged.cancel rfl fun r => ⟨?_, ?_⟩
      · rintro (_ | current)
        simpa [attached, Flight.current?] using current.symm
      · rintro rfl
        exact .current (by simp [attached, Flight.current?])

end Moves

/-- The flags are always what the actions that led to them say. -/
theorem flagged_of_run (actions : List Action) : Flagged actions (empty.run actions) := by
  induction actions using List.reverseRecOn with
  | nil =>
      intro r
      refine iff_of_false (by simp [flags, run, empty]) ?_
      rintro ⟨past, action, rest, whole, -⟩
      simp at whole
  | append_singleton past action ih => exact flagged_of_step (held_of_run past) ih

/-! ## All actions -/

/-- What the actions that led to a desk say about it. -/
structure Orderly (actions : List Action) (d : Desk) : Prop extends Held actions d where
  /-- Without a claim that holds there is no current run, and no cancel is parked. -/
  vacant : (∀ k, d.holdsClaim k = false) → d.flight.current? = none ∧ d.flight ≠ .claimed true
  /-- A wish to cancel is accepted if the slot is busy. -/
  accepted : (d.step .cancelFlight).2 = .yesNo d.flight.isBusy
  /-- A run is cancelled if it has a reason. -/
  cancelled : ∀ r t, d.tallies[r]? = some t → (t.cancelled = true ↔ Cancelled r actions)

/-- After any actions the desk is what they say. -/
theorem desk_is_orderly (actions : List Action) : Orderly actions (empty.run actions) where
  toHeld := held_of_run actions
  vacant := by
    intro nobody
    have idle : ¬(empty.run actions).flight.isBusy = true := by
      rw [(held_of_run actions).busy]
      rintro ⟨k, holds⟩
      cases (nobody k).symm.trans holds
    cases flight : (empty.run actions).flight with
    | idle => exact ⟨rfl, by simp⟩
    | claimed | attached => simp [flight, Flight.isBusy] at idle
  accepted := by
    cases flight : (empty.run actions).flight <;>
      simp [step, flight, Flight.cancel, Flight.isBusy, Flight.Cancellation.isAccepted]
  cancelled := by
    intro r t present
    rw [← flagged_of_run actions r, flags, List.getElem?_map, present]
    simp

/-- A parked cancel does not outlive the claim under which it came. -/
example : (empty.run [.newRun 2 .copy ⟨0⟩, .claim, .cancelFlight, .release 0, .claim,
    .attach 1 0]).flags = [false] := rfl

end Broadcast.Desk
