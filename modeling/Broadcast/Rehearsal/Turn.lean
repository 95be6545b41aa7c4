import Broadcast.Dispatcher

/-!
# Turns

What a caller or a part of a run does when it is its turn and nobody owes it an answer, and when
it will have a turn again if it can do nothing now.
-/

namespace Broadcast

namespace Run

/-- The move that the run itself makes next, if it can make one now. -/
def next? (now : Moment) (r : Run) : Option Move :=
  match r.stage with
  | .delivering => if r.workers.all Worker.hasEnded then some .joined else none
  | .draining deadline =>
    if r.removals.all Removal.hasEnded then some .drained
    else if deadline ≤ now then some .timedOut
    else none
  | .stopping => if r.display.hasEnded then some .concluded else none
  | _ => none

/-- The first removal that waits for its permit. -/
def firstQueued? (r : Run) : Option Nat :=
  r.removals.findIdx? (·.stage = .queued)

/-- A removal could begin. -/
def hasRemovalPermit (r : Run) : Bool :=
  r.asking < r.plan.removalPermits

/-- The move that a part of the run makes next, if it can make one now. Removals get their permits
in order. -/
def nextOf? (now : Moment) (r : Run) : Part → Option Move
  | .worker i =>
    match r.workers[i]? with
    | some .idle => some (.worker i .pop)
    | some (.waiting _) => some (.worker i .permit)
    | some (.resting wakeAt) => if wakeAt ≤ now then some (.worker i .wake) else none
    | _ => none
  | .removal k =>
    if r.firstQueued? = some k ∧ r.hasRemovalPermit then some (.removal k .begin) else none
  | .display =>
    match r.display with
    | .fresh => some (.display .begin)
    | .watching next _ =>
      if r.stopSent then some (.display .halt)
      else if next ≤ now then some (.display .tick)
      else none
    | _ => none

/-- The part will not move any more. -/
def partEnded (r : Run) : Part → Bool
  | .worker i => (r.workers[i]?).all Worker.hasEnded
  | .removal k => (r.removals[k]?).all Removal.hasEnded
  | .display => r.display.hasEnded

/-- The moment at which the run itself can go on without anybody's doing. -/
def due? (r : Run) : Option Moment :=
  match r.stage with
  | .draining deadline => some deadline
  | _ => none

/-- The moment at which a part can go on without anybody's doing. -/
def dueOf? (r : Run) : Part → Option Moment
  | .worker i =>
    match r.workers[i]? with
    | some (.resting wakeAt) => some wakeAt
    | _ => none
  | .removal _ => none
  | .display =>
    match r.display with
    | .watching next _ => some next
    | _ => none

end Run

namespace Dispatcher

/-- The move that a caller makes next, if it can make one now. -/
def next? (now : Moment) (d : Dispatcher) (c : Nat) : Option Move :=
  match d.callers[c]? with
  | some ⟨_, .opening⟩ => some (.caller c .begin)
  | some ⟨_, .running r⟩ => ((d.runs[r]?).bind (Run.next? now)).map (.run r)
  | _ => none

/-- The moment at which a caller can go on without anybody's doing. -/
def due? (d : Dispatcher) (c : Nat) : Option Moment :=
  match d.callers[c]? with
  | some ⟨_, .running r⟩ => (d.runs[r]?).bind Run.due?
  | _ => none

end Dispatcher

end Broadcast
