import Broadcast.Rehearsal.Script
import Broadcast.Rehearsal.Turn
import Std.Data.HashMap

/-!
# The stage of a rehearsal

A rehearsal plays a dispatcher against a script in virtual time. The players are threads. A thread
is a stack of scenes, of which only the uppermost plays: a call to the outside lies on top of the
player who made it, and a step that happens inside a call lies on top of the call.
-/

namespace Broadcast.Rehearsal

/-- What a call to the outside has to go through before its answer. -/
inductive Chore
  | nap (millis : Nat)
  | hook (step : Step)
  | draw (r : Recipient)
deriving Repr

/-- What a call to the outside comes to. -/
inductive Verdict
  | handle (notice : Option Handle)
  | edited (success : Bool)
  | reach (reach : Reach)
  | delivery (outcome : Except DeliveryError Unit)
deriving Repr

/-- A call to the outside; without a verdict it breaks down once its chores are done. -/
structure Call where
  chores : List Chore
  verdict : Option Verdict
deriving Repr

/-- One layer of a thread. -/
inductive Scene
  | action (action : Action)
  | nap (millis : Nat)
  | asleep (wakeAt : Moment)
  | caller (c : Nat)
  | part (r : Nat) (part : Run.Part)
  | call (call : Call)
deriving Repr

/-- What came of a step. -/
inductive StepResult
  | outcome (outcome : Outcome)
  | added (isNew : Bool)
  | slept
  | broke
deriving Repr

/-- A player. `due` is the millisecond at which it wakes by itself, with the number that puts
threads due at the same time in order. -/
structure Thread where
  id : Nat
  scenes : List Scene
  due : Option (Nat × Nat) := none
  permitted : Bool := false
  result : StepResult := .slept
deriving Repr

/-- A notice as it was seen outside. -/
inductive NoticeEntry
  | reply (notice : Option Handle) (text : String) (millis : Nat)
  | edit (success : Bool) (notice : Handle) (text : String) (millis : Nat)
deriving Repr

/-- A delivery as it was seen outside. -/
structure DeliveryEntry where
  recipient : Recipient
  mode : DeliveryMode
  source : SourceMessage
  millis : Nat
deriving Repr

/-- A removal as it was seen outside. -/
structure RemovalEntry where
  listing : Listing
  recipient : Recipient
  millis : Nat
deriving Repr

/-- All that was seen outside. -/
structure Log where
  notices : Array NoticeEntry := #[]
  deliveries : Array DeliveryEntry := #[]
  removals : Array RemovalEntry := #[]
  metrics : Array Metric := #[]
deriving Repr

end Rehearsal

open Rehearsal in
/-- The state of a rehearsal; the clock shows milliseconds. `pausing` holds the threads that wait
for a permit in no time, and `permits` the moment of the next permit for each run that has had
one. -/
structure Rehearsal where
  script : Script
  dispatcher : Dispatcher
  clock : Nat := 0
  arrivals : Std.HashMap Point Nat := ∅
  attempts : Std.HashMap Recipient Nat := ∅
  handles : Nat := 0
  threads : List Thread := []
  ready : List Nat := []
  pausing : List Nat := []
  permits : List (Nat × Moment) := []
  opened : Nat := 0
  ordered : Nat := 0
  log : Log := {}

namespace Rehearsal

/-- The beginning of a rehearsal. -/
def start (script : Script) (dispatcher : Dispatcher) : Rehearsal :=
  { script, dispatcher }

/-- The point of time that the clock shows. -/
def now (r : Rehearsal) : Moment :=
  r.clock * 1000000

/-- The first millisecond that is not before a point of time. -/
def millisecond (m : Moment) : Nat :=
  (m + 999999) / 1000000

/-- The thread of a number. -/
def thread? (r : Rehearsal) (id : Nat) : Option Thread :=
  r.threads.find? (·.id = id)

/-- The rehearsal with a thread changed. -/
def modifyThread (r : Rehearsal) (id : Nat) (f : Thread → Thread) : Rehearsal :=
  { r with threads := r.threads.map fun t => if t.id = id then f t else t }

/-- A thread gets its turn behind those that wait for theirs already. -/
def wake (r : Rehearsal) (id : Nat) : Rehearsal :=
  { r.modifyThread id fun t => { t with due := none } with
    ready := if r.ready.contains id then r.ready else r.ready ++ [id] }

/-- A new thread, which gets its turn behind the others. -/
def spawn (r : Rehearsal) (scenes : List Scene) : Rehearsal :=
  { r with
    threads := r.threads ++ [{ id := r.opened, scenes }]
    ready := r.ready ++ [r.opened]
    opened := r.opened + 1 }

/-- The thread on top of which a scene lies gets its turn. -/
def wakeScene (r : Rehearsal) (isScene : Scene → Bool) : Rehearsal :=
  match r.threads.find? fun t => t.scenes.head?.any isScene with
  | some t => r.wake t.id
  | none => r

/-- The thread in which a part of a run plays gets its turn. -/
def wakePart (r : Rehearsal) (run : Nat) (part : Run.Part) : Rehearsal :=
  r.wakeScene fun
    | .part run' part' => run' = run ∧ part' = part
    | _ => false

/-- The thread in which a run itself plays gets its turn. -/
def wakeRun (r : Rehearsal) (run : Nat) : Rehearsal :=
  match r.dispatcher.callerOf? run with
  | some c => r.wakeScene fun
    | .caller c' => c' = c
    | _ => false
  | none => r

end Rehearsal

end Broadcast
