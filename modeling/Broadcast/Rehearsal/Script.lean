import Broadcast.Dispatcher

/-!
# Scripts

A script says how the outside behaves during a rehearsal: what each delivery comes to and how long
it takes, which listings, removals and notices fail, and what else happens inside a call.
-/

namespace Broadcast.Rehearsal

/-- The points at which the dispatcher turns to the outside. -/
inductive Point
  | deliver
  | listUsers
  | listChats
  | remove
  | reply
  | edit
deriving DecidableEq, Hashable, Repr

/-- What a step of a rehearsal does. -/
inductive Action
  | errand (errand : Errand)
  | addUser (r : Recipient)
  | addChat (r : Recipient)
  | sleep (millis : Nat)
deriving Repr

/-- A step of a rehearsal, perhaps with a wish to cancel some time after its start. -/
structure Step where
  action : Action
  cancelAfter : Option Nat := none
deriving Repr

/-- How a call fails. -/
inductive Failure
  | refuses (text : String)
  | breaks
deriving Repr

/-- What a delivery comes to, after some time; without an outcome it breaks down. -/
structure Delivery where
  millis : Nat := 0
  outcome : Option (Except DeliveryError Unit) := some (.ok ())
deriving Repr

/-- A step that happens inside the call with a given number at a point. -/
structure Hook where
  point : Point
  arrival : Nat
  step : Step
deriving Repr

/-- How the outside behaves. Unless permits take time, a worker that waits for one gets it as soon
as everyone else has to wait too, and nobody but the task that shows progress waits for a moment. -/
structure Script where
  delivery : Recipient → (attempt : Nat) → Delivery
  listMillis : Nat := 0
  removeMillis : Nat := 0
  hooks : List Hook := []
  failure : Point → (arrival : Nat) → Option Failure := fun _ _ => none
  removalFailure : Recipient → Option Failure := fun _ => none
  permitsTakeTime : Bool := false

/-- The deliveries of successive attempts come to what is listed, one after the other, and the last
one stands for all that follow. The first attempt has number zero. -/
def inTurn (deliveries : List Delivery) (attempt : Nat) : Delivery :=
  (deliveries[min attempt (deliveries.length - 1)]?).getD {}

/-- The steps that happen inside a call. -/
def Script.stepsAt (script : Script) (point : Point) (arrival : Nat) : List Step :=
  (script.hooks.filter fun hook => hook.point = point ∧ hook.arrival = arrival).map (·.step)

end Broadcast.Rehearsal
