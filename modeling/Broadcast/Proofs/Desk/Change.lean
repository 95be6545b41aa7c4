import Broadcast.Flight.Desk

/-!
# What an action does at a desk

Only few kinds of actions matter to the slot and to the flags of the runs. `change_of_step` says
that there are no others, and nothing after it has to look into the definition of a step again.
-/

namespace Broadcast.Desk

/-- An action that is about the counters of a run only. -/
def Action.isCount : Action → Bool
  | success _ | failure _ | removed _ | settle _ | report _ => true
  | newRun _ _ _ | cancelRun _ | claim | attach _ _ | release _ | cancelFlight => false

/-- For each run whether it was cancelled. -/
def flags (d : Desk) : List Bool :=
  d.tallies.map Tally.cancelled

/-- What an action does to slot, claims and flags. -/
inductive Change (d : Desk) : Action → Desk → Prop
  /-- A run counts, or is asked what it has counted. -/
  | count {action : Action} {tallies : List Tally} :
      action.isCount = true → tallies.map Tally.cancelled = d.flags →
      Change d action { d with tallies }
  /-- There is one more run. -/
  | newRun {total : UInt64} {mode : DeliveryMode} {delay : Duration} :
      Change d (.newRun total mode delay)
        { d with tallies := d.tallies ++ [.start total mode delay] }
  /-- A run is cancelled. -/
  | cancelRun {run : Nat} : Change d (.cancelRun run) (d.updateRun run Tally.cancel)
  /-- The slot is claimed. -/
  | claim :
      d.flight = .idle →
      Change d .claim { d with flight := .claimed false, claims := d.claims ++ [true] }
  /-- Someone else holds the slot. -/
  | deny : d.flight.isBusy = true → Change d .claim { d with claims := d.claims ++ [false] }
  /-- A run is attached, and a parked cancel meets it. -/
  | meet {claim run : Nat} :
      d.holdsClaim claim = true → d.flight = .claimed true →
      Change d (.attach claim run) ({ d with flight := .attached run }.updateRun run Tally.cancel)
  /-- A run is attached. -/
  | attach {claim run : Nat} :
      d.holdsClaim claim = true → d.flight ≠ .claimed true →
      Change d (.attach claim run) { d with flight := .attached run }
  /-- Nothing is attached through a claim that does not hold. -/
  | detached {claim run : Nat} : d.holdsClaim claim = false → Change d (.attach claim run) d
  /-- The slot is free again. -/
  | release {claim : Nat} :
      d.holdsClaim claim = true →
      Change d (.release claim) { d with flight := .idle, claims := d.claims.set claim false }
  /-- A claim that does not hold is not released. -/
  | released {claim : Nat} : d.holdsClaim claim = false → Change d (.release claim) d
  /-- There is nothing to cancel. -/
  | refuse : d.flight = .idle → Change d .cancelFlight d
  /-- The cancel is parked. -/
  | park {parked : Bool} :
      d.flight = .claimed parked → Change d .cancelFlight { d with flight := .claimed true }
  /-- The run that is attached is cancelled. -/
  | stop {run : Nat} :
      d.flight = .attached run → Change d .cancelFlight (d.updateRun run Tally.cancel)

private theorem flags_updateRun (d : Desk) (run : Nat) (f : Tally → Tally)
    (spares : ∀ t, (f t).cancelled = t.cancelled) : (d.updateRun run f).flags = d.flags := by
  rw [flags, flags, updateRun]
  apply List.ext_getElem?
  intro r
  rw [List.getElem?_map, List.getElem?_map, List.getElem?_modify]
  cases d.tallies[r]? with
  | none => rfl
  | some t =>
      by_cases mine : run = r
      · simp [mine, spares]
      · simp [mine]

private theorem change_of_claim (d : Desk) : Change d .claim (d.step .claim).1 := by
  cases flight : d.flight with
  | idle => simpa [step, flight, Flight.claim?] using Change.claim flight
  | claimed | attached =>
      have busy : d.flight.isBusy = true := by simp [flight, Flight.isBusy]
      simpa [step, flight, Flight.claim?] using Change.deny busy

private theorem change_of_attach (d : Desk) (claim run : Nat) :
    Change d (.attach claim run) (d.step (.attach claim run)).1 := by
  cases holds : d.holdsClaim claim with
  | false => simpa [step, holds] using Change.detached holds
  | true =>
      by_cases parked : d.flight = .claimed true
      · simpa [step, holds, parked, Flight.attach] using Change.meet holds parked
      · have free : d.flight.attach run = (.attached run, false) := by
          cases flight : d.flight with
          | idle | attached => rfl
          | claimed parked =>
              cases parked with
              | false => rfl
              | true => contradiction
        simpa [step, holds, free] using Change.attach holds parked

private theorem change_of_release (d : Desk) (claim : Nat) :
    Change d (.release claim) (d.step (.release claim)).1 := by
  cases holds : d.holdsClaim claim with
  | false => simpa [step, holds] using Change.released holds
  | true => simpa [step, holds] using Change.release holds

private theorem change_of_cancelFlight (d : Desk) :
    Change d .cancelFlight (d.step .cancelFlight).1 := by
  have same {flight : Flight} (held : d.flight = flight) : { d with flight } = d := by
    subst held
    rfl
  cases flight : d.flight with
  | idle => simpa [step, flight, Flight.cancel, same flight] using Change.refuse flight
  | claimed => simpa [step, flight, Flight.cancel] using Change.park flight
  | attached =>
      simpa [step, flight, Flight.cancel, same flight] using Change.stop flight

/-- Every action does one of the things that `Change` lists. -/
theorem change_of_step (d : Desk) (action : Action) : Change d action (d.step action).1 := by
  cases action with
  | newRun => exact .newRun
  | success run => exact .count rfl (flags_updateRun d run Tally.addSuccess fun _ => rfl)
  | failure run => exact .count rfl (flags_updateRun d run Tally.addFailure fun _ => rfl)
  | removed run => exact .count rfl (flags_updateRun d run Tally.addRemoved fun _ => rfl)
  | settle run => exact .count rfl (flags_updateRun d run Tally.settle fun _ => rfl)
  | report => exact .count rfl rfl
  | cancelRun => exact .cancelRun
  | claim => exact change_of_claim d
  | attach claim run => exact change_of_attach d claim run
  | release claim => exact change_of_release d claim
  | cancelFlight => exact change_of_cancelFlight d

end Broadcast.Desk
