import Broadcast.Delivery
import Broadcast.Job.Bench
import Broadcast.Metric
import Broadcast.Notice
import Broadcast.Pacing

/-!
# One run

A run announces itself, lets workers empty the queue of jobs, waits for the removals that failed
deliveries started, and reports. Its workers, its removals, the task that shows its progress and
the run's own course move independently of each other: a step is one move of one of them, and
whatever they ask of the outside is answered by a later move. Nothing is assumed about the order
of moves or about the answers.

A move is the code between two points at which its task waits for something, and nobody else's move
falls into it. So the counters of a notice are read together, and the answer to the announcement
and the start of the crew, with nothing to wait for in between, are one move.
-/

namespace Broadcast

/-- A notice that was sent to the operator. -/
abbrev Handle := Nat

/-- What is asked of the outside. -/
inductive Ask
  | listChats
  | listUsers
  | deliver (recipient : Recipient) (source : SourceMessage) (mode : DeliveryMode)
  | remove (listing : Listing) (recipient : Recipient)
  | reply (text : String)
  | edit (notice : Handle) (text : String)
deriving DecidableEq, Repr

/-- An answer from the outside, which may also break down. -/
inductive Answer (α : Type)
  | gave (a : α)
  | broke
deriving Repr

/-- All that a run is given at its start. -/
structure Plan where
  source : SourceMessage
  mode : DeliveryMode
  delay : Duration
  counts : KindCounts
  targets : List Recipient
  workers : UInt64
  maxRetries : UInt32
  progressEvery : Option Duration
  removalConcurrency : UInt64
  drainTimeout : Duration
  clocks : Clocks
deriving Repr

namespace Plan

/-- The text that announces the run. -/
def announcement (p : Plan) : String :=
  Notice.started p.counts p.targets.length p.mode p.delay

/-- How many workers deliver: no more than there are targets, and at least one. -/
def crew (p : Plan) : Nat :=
  max (min (max p.workers.toNat 1) p.targets.length) 1

/-- How many removals may be going on at once. -/
def removalPermits (p : Plan) : Nat :=
  max p.removalConcurrency.toNat 1

/-- The number of removals going on at once that can be told apart; a plan that allows more breaks
down. -/
def maxRemovalPermits : Nat := 2 ^ 61 - 1

end Plan

namespace Run

/-- What a worker is doing. -/
inductive Worker
  | idle
  | waiting (job : Job)
  | delivering (job : Job)
  | resting (wakeAt : Moment)
  | finished
  | broken
deriving DecidableEq, Repr

/-- The worker will not move any more. -/
def Worker.hasEnded : Worker → Bool
  | finished | broken => true
  | _ => false

/-- What a removal is doing. -/
inductive RemovalStage
  | queued
  | asking
  | done
  | broken
deriving DecidableEq, Repr

/-- A recipient on its way out of the directory. -/
structure Removal where
  recipient : Recipient
  stage : RemovalStage
deriving DecidableEq, Repr

/-- The removal will not move any more. -/
def Removal.hasEnded (r : Removal) : Bool :=
  r.stage = .done || r.stage = .broken

/-- The listing that the recipient is to leave. -/
def Removal.listing (r : Removal) : Listing :=
  if r.recipient.isUser then .user else .chat

/-- What the task that shows progress is doing; `last` is what it tried to show last. -/
inductive Display
  | absent
  | fresh
  | watching (next : Moment) (last : Progress)
  | editing (next : Moment) (last : Progress)
  | ended
deriving DecidableEq, Repr

/-- The task will not move any more. -/
def Display.hasEnded : Display → Bool
  | absent | ended => true
  | _ => false

/-- How far the run itself has come. -/
inductive Stage
  | announcing
  | delivering
  | draining (deadline : Moment)
  | stopping
  | editing (report : Report)
  | replying (report : Report)
  | finished (report : Report)
  | broken
deriving DecidableEq, Repr

end Run

/-- A run that has started; it is paced once a worker got a permit. -/
structure Run where
  plan : Plan
  began : Moment
  stage : Run.Stage
  notice : Option Handle
  tally : Tally
  queue : List Job
  workers : List Run.Worker
  removals : List Run.Removal
  display : Run.Display
  stopSent : Bool
  paced : Bool
deriving Repr

namespace Run

/-- The parts of a run that move on their own, beside its own course. -/
inductive Part
  | worker (i : Nat)
  | removal (k : Nat)
  | display
deriving DecidableEq, Repr

/-- What a move brings about outside the run. -/
inductive Effect
  | publish (metric : Metric)
  | ask (ask : Ask)
  | spawn (part : Part)
deriving Repr

/-- A move of a worker. -/
inductive WorkerMove
  | pop
  | permit
  | answered (answer : Answer (Except DeliveryError Unit))
  | wake
deriving Repr

/-- A move of a removal; the answer says whether the recipient left its listing. -/
inductive RemovalMove
  | begin
  | answered (answer : Answer Bool)
deriving Repr

/-- A move of the task that shows progress. -/
inductive DisplayMove
  | begin
  | tick
  | answered (answer : Answer Bool)
  | halt
deriving Repr

/-- A move of a run. -/
inductive Move
  | announced (answer : Answer (Option Handle))
  | worker (i : Nat) (move : WorkerMove)
  | removal (k : Nat) (move : RemovalMove)
  | display (move : DisplayMove)
  | joined
  | drained
  | timedOut
  | concluded
  | edited (answer : Answer Bool)
  | replied (answer : Answer Unit)
  | cancel
deriving Repr

/-- A run at its start, asking for its announcement to be sent. -/
def start (plan : Plan) (now : Moment) : Run × List Effect :=
  ({ plan
     began := now
     stage := .announcing
     notice := none
     tally := .start (UInt64.ofNat plan.targets.length) plan.mode plan.delay
     queue := plan.targets.map Job.fresh
     workers := []
     removals := []
     display := .absent
     stopSent := false
     paced := false },
   [.publish (.count .runsStarted), .publish (.set .runTargets plan.targets.length),
    .publish (.set .runInProgress 1), .ask (.reply plan.announcement)])

end Run

end Broadcast
