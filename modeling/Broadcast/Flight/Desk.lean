import Broadcast.Flight
import Broadcast.Tally

/-!
# A desk with one slot

A slot together with all tallies and all claims ever made, and the actions on them in any order.
Tallies and claims are known by their number.
-/

namespace Broadcast

/-- A slot, the tallies of all runs, and for every try to claim the slot whether that claim holds. -/
structure Desk where
  flight : Flight
  tallies : List Tally
  claims : List Bool
deriving Repr

namespace Desk

/-- Nothing has happened yet. -/
def empty : Desk := ⟨.idle, [], []⟩

/-- What can happen at a desk. -/
inductive Action
  | newRun (total : UInt64) (mode : DeliveryMode) (delay : Duration)
  | success (run : Nat)
  | failure (run : Nat)
  | removed (run : Nat)
  | settle (run : Nat)
  | report (run : Nat)
  | cancelRun (run : Nat)
  | claim
  | attach (claim run : Nat)
  | release (claim : Nat)
  | cancelFlight
deriving DecidableEq, Repr

/-- What an action answers. -/
inductive Answer
  | nothing
  | number (n : UInt64)
  | index (n : Nat)
  | yesNo (b : Bool)
  | figures (t : Tally)
  | noClaim

/-- The claim of a number holds. -/
def holdsClaim (d : Desk) (claim : Nat) : Bool :=
  (d.claims[claim]?).getD false

/-- The desk with the tally of a run changed. -/
def updateRun (d : Desk) (run : Nat) (f : Tally → Tally) : Desk :=
  { d with tallies := d.tallies.modify run f }

/-- The desk after an action, and the answer. -/
def step (d : Desk) : Action → Desk × Answer
  | .newRun total mode delay =>
    ({ d with tallies := d.tallies ++ [.start total mode delay] }, .index d.tallies.length)
  | .success run => (d.updateRun run Tally.addSuccess, .nothing)
  | .failure run => (d.updateRun run Tally.addFailure, .nothing)
  | .removed run => (d.updateRun run Tally.addRemoved, .nothing)
  | .settle run =>
    (d.updateRun run Tally.settle,
      .number ((d.tallies[run]?).elim 0 fun t => t.progress.missing))
  | .report run => (d, (d.tallies[run]?).elim .nothing .figures)
  | .cancelRun run =>
    (d.updateRun run Tally.cancel, .yesNo ((d.tallies[run]?).elim false fun t => !t.cancelled))
  | .claim =>
    match d.flight.claim? with
    | some flight => ({ d with flight, claims := d.claims ++ [true] }, .yesNo true)
    | none => ({ d with claims := d.claims ++ [false] }, .yesNo false)
  | .attach claim run =>
    if d.holdsClaim claim then
      let (flight, meetsCancel) := d.flight.attach run
      let d := { d with flight }
      (if meetsCancel then d.updateRun run Tally.cancel else d, .nothing)
    else
      (d, .noClaim)
  | .release claim =>
    if d.holdsClaim claim then
      ({ d with flight := .idle, claims := d.claims.set claim false }, .yesNo true)
    else
      (d, .yesNo false)
  | .cancelFlight =>
    match d.flight.cancel with
    | (flight, .applied run) =>
      ({ d with flight }.updateRun run Tally.cancel, .yesNo true)
    | (flight, cancellation) => ({ d with flight }, .yesNo cancellation.isAccepted)

/-- Some run has counted more jobs than can be told. -/
def overflows (d : Desk) : Bool :=
  d.tallies.any (·.progress.overflows)

/-- The desk after actions in order. -/
def run (d : Desk) (actions : List Action) : Desk :=
  actions.foldl (fun d action => (d.step action).1) d

end Desk

end Broadcast
