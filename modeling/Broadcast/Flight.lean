/-!
# The single flight

At most one broadcast is under way. Whoever claims the slot holds it until its release. A cancel
that comes before a run is attached is parked and meets the run that is attached next under the
same claim.
-/

namespace Broadcast

/-- The slot for the broadcast that is under way; runs are known by their number. -/
inductive Flight
  | idle
  | claimed (cancelParked : Bool)
  | attached (run : Nat)
deriving DecidableEq, Repr, Inhabited

namespace Flight

/-- Someone holds the slot. -/
def isBusy : Flight → Bool
  | idle => false
  | _ => true

/-- The run that was attached last under the present claim. -/
def current? : Flight → Option Nat
  | attached run => some run
  | _ => none

/-- The slot claimed, if nobody holds it. -/
def claim? : Flight → Option Flight
  | idle => some (claimed false)
  | _ => none

/-- The slot with a run attached, and whether a parked cancel meets it. -/
def attach (run : Nat) : Flight → Flight × Bool
  | claimed parked => (attached run, parked)
  | _ => (attached run, false)

/-- What becomes of a wish to cancel. -/
inductive Cancellation
  | refused
  | parked
  | applied (run : Nat)
deriving DecidableEq, Repr

/-- The wish was accepted. -/
def Cancellation.isAccepted : Cancellation → Bool
  | refused => false
  | _ => true

/-- The slot after a wish to cancel, and what became of the wish. -/
def cancel : Flight → Flight × Cancellation
  | idle => (idle, .refused)
  | claimed _ => (claimed true, .parked)
  | attached run => (attached run, .applied run)

end Flight

end Broadcast
