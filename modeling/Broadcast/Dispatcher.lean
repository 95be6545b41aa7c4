import Broadcast.Flight
import Broadcast.Pacing
import Broadcast.Run.Step
import Broadcast.Settings
import Broadcast.Targets

/-!
# The dispatcher

A dispatcher serves any number of callers, who give commands or start broadcasts, over one
directory and one slot for the broadcast that is under way. A step is one move of one caller, of
one run, or of someone who changes the directory from outside.
-/

namespace Broadcast

/-- Why a broadcast did not start. -/
inductive DispatchError
  | alreadyRunning
  | noTargets
  | invalidPacing (interval : Duration)
deriving DecidableEq, Repr

/-- The reason in words. -/
def DispatchError.message : DispatchError → String
  | alreadyRunning => "A broadcast is already in progress"
  | noTargets => "No targets found"
  | invalidPacing interval => s!"Invalid pacing interval: {interval.exact}"

/-- The notice that tells the operator the reason. -/
def DispatchError.notice : DispatchError → String
  | alreadyRunning => Notice.alreadyRunning
  | noTargets => Notice.noTargets
  | invalidPacing interval => Notice.invalidPacing interval

/-- What a caller wants: either command of the operator, a broadcast without a command, or the
targets of a request. -/
inductive Errand
  | broadcast (replyTo : Option SourceMessage) (args : String)
  | cancel
  | run (request : Request)
  | resolve (request : Request)
deriving Repr

/-- What a caller gets. A command gets nothing but the end of its handling. -/
inductive Outcome
  | handled
  | report (r : Report)
  | refused (e : DispatchError)
  | targets (t : Targets)
deriving Repr

/-- The outcome of an errand whose run has finished. -/
def Errand.outcome (errand : Errand) (report : Report) : Outcome :=
  match errand with
  | .broadcast _ _ => .handled
  | _ => .report report

/-- What came of an operation of the directory: it was carried out, or the directory could not be
reached. -/
inductive Reach
  | performed
  | unavailable (text : String)
deriving Repr

namespace Caller

/-- How far a caller has come. -/
inductive Stage
  | opening
  | listingChats (request : Request)
  | listingUsers (request : Request) (chats : Except Directory.Fault (List Recipient))
  | running (run : Nat)
  | replying
  | done (outcome : Outcome)
  | broken
deriving Repr

/-- A move of a caller. -/
inductive Move
  | begin
  | chatsListed (answer : Answer Reach)
  | usersListed (answer : Answer Reach)
  | replied (answer : Answer Unit)
deriving Repr

end Caller

/-- Someone who wants something of the dispatcher. -/
structure Caller where
  errand : Errand
  stage : Caller.Stage
deriving Repr

/-- The state of a dispatcher. Callers and runs are known by their number. -/
structure Dispatcher where
  clocks : Clocks
  settings : Settings
  directory : Directory
  flight : Flight
  runs : List Run
  callers : List Caller

namespace Dispatcher

/-- A move in the system. The answer to a removal comes from the directory. -/
inductive Move
  | open (errand : Errand)
  | caller (c : Nat) (move : Caller.Move)
  | run (r : Nat) (move : Run.Move)
  | removed (r k : Nat) (answer : Answer Reach)
  | addUser (r : Recipient)
  | addChat (r : Recipient)
deriving Repr

/-- A dispatcher that nobody has called yet. -/
def start (settings : Settings) (directory : Directory) (clocks : Clocks := .usual) : Dispatcher :=
  { clocks, settings, directory, flight := .idle, runs := [], callers := [] }

/-- A broadcast is under way. -/
def isRunning (d : Dispatcher) : Bool :=
  d.flight.isBusy

/-- The pause between the deliveries of a request. -/
def pause (d : Dispatcher) (request : Request) : Duration :=
  request.delay.getD d.settings.defaultPause

/-- The plan of a run for the targets of a request. -/
def plan (d : Dispatcher) (request : Request) (targets : Targets) : Plan where
  source := request.source
  mode := request.mode
  delay := d.pause request
  counts := targets.counts
  targets := targets.list
  workers := d.settings.workers
  maxRetries := d.settings.maxRetries
  progressEvery := d.settings.progressEvery?
  removalConcurrency := d.settings.removalConcurrency
  drainTimeout := d.settings.drainTimeout
  clocks := d.clocks

/-- The dispatcher with a caller at another stage. -/
def setStage (d : Dispatcher) (c : Nat) (stage : Caller.Stage) : Dispatcher :=
  { d with callers := d.callers.modify c fun caller => { caller with stage } }

/-- The slot is free again. -/
def release (d : Dispatcher) : Dispatcher :=
  { d with flight := .idle }

/-- A caller asks for a notice to be sent. -/
def reply (d : Dispatcher) (c : Nat) (text : String) : Dispatcher × List Run.Effect :=
  (d.setStage c .replying, [.ask (.reply text)])

/-- A caller is told that its broadcast did not start: by a notice if it gave a command. -/
def refuse (d : Dispatcher) (c : Nat) (errand : Errand) (error : DispatchError) :
    Dispatcher × List Run.Effect :=
  match errand with
  | .broadcast _ _ => d.reply c error.notice
  | _ => (d.setStage c (.done (.refused error)), [])

/-- A run is rejected for a reason that is counted. -/
def reject (d : Dispatcher) (c : Nat) (errand : Errand) (error : DispatchError)
    (reason : Metric.Rejection) : Dispatcher × List Run.Effect :=
  let (d, effects) := d.refuse c errand error
  (d, .publish (.count (.runsRejected reason)) :: effects)

/-- A caller begins a broadcast: it claims the slot and checks the pace. It breaks down over a
pause that is too long. -/
def beginBroadcast (d : Dispatcher) (c : Nat) (errand : Errand) (request : Request) :
    Dispatcher × List Run.Effect :=
  match d.flight.claim? with
  | none => d.reject c errand .alreadyRunning .alreadyRunning
  | some flight =>
    match Pacer.ofInterval (d.pause request) with
    | .error .empty => d.refuse c errand (.invalidPacing (d.pause request))
    | .error .tooLong => (d.setStage c .broken, [])
    | .ok _ =>
      ({ d with flight }.setStage c (.listingChats request), [.ask .listChats])

/-- The run of a number was cancelled. -/
def cancelRun (d : Dispatcher) (r : Nat) : Dispatcher :=
  { d with runs := d.runs.modify r fun run => { run with tally := run.tally.cancel } }

/-- A caller wishes to cancel the broadcast that is under way. -/
def beginCancel (d : Dispatcher) (c : Nat) : Dispatcher × List Run.Effect :=
  let (flight, cancellation) := d.flight.cancel
  let d := { d with flight }
  match cancellation with
  | .refused => d.reply c Notice.nothingToCancel
  | .parked => d.reply c Notice.cancelled
  | .applied r => (d.cancelRun r).reply c Notice.cancelled

/-- A caller begins its errand. -/
def begin (d : Dispatcher) (c : Nat) (errand : Errand) : Dispatcher × List Run.Effect :=
  match errand with
  | .broadcast replyTo args =>
    match replyTo.elim (.error .missingSource) (Request.ofArgs · args) with
    | .error error => d.reply c (Notice.wrongUsage error)
    | .ok request => d.beginBroadcast c errand request
  | .cancel => d.beginCancel c
  | .run request => d.beginBroadcast c errand request
  | .resolve request => (d.setStage c (.listingChats request), [.ask .listChats])

/-- What a listing returned. -/
def listed (recipients : List Recipient) : Reach → Except Directory.Fault (List Recipient)
  | .performed => .ok recipients
  | .unavailable text => .error (.unavailable text)

/-- A caller breaks down; the slot is free again if it held it. -/
def breakDown (d : Dispatcher) (c : Nat) (errand : Errand) : Dispatcher :=
  let d := d.setStage c .broken
  match errand with
  | .resolve _ => d
  | _ => d.release

/-- A run starts under the claim of a caller. -/
def startRun (now : Moment) (d : Dispatcher) (c : Nat) (request : Request) (targets : Targets) :
    Dispatcher × List Run.Effect :=
  let r := d.runs.length
  let (run, effects) := Run.start (d.plan request targets) now
  let (flight, meetsCancel) := d.flight.attach r
  let run := if meetsCancel then { run with tally := run.tally.cancel } else run
  ({ d with flight, runs := d.runs ++ [run] }.setStage c (.running r), effects)

/-- A caller knows the targets of its request. -/
def targetsKnown (now : Moment) (d : Dispatcher) (c : Nat) (errand : Errand) (request : Request)
    (targets : Targets) : Dispatcher × List Run.Effect :=
  match errand with
  | .resolve _ => (d.setStage c (.done (.targets targets)), [])
  | _ =>
    if targets.list = [] then d.release.reject c errand .noTargets .noTargets
    else d.startRun now c request targets

/-- One move of a caller. -/
def stepCaller (now : Moment) (d : Dispatcher) (c : Nat) (move : Caller.Move) :
    Option (Dispatcher × List Run.Effect) := do
  let ⟨errand, stage⟩ ← d.callers[c]?
  match stage, move with
  | .opening, .begin => some (d.begin c errand)
  | .listingChats _, .chatsListed .broke => some (d.breakDown c errand, [])
  | .listingChats request, .chatsListed (.gave reach) =>
    let chats := listed d.directory.chats reach
    some (d.setStage c (.listingUsers request chats), [.ask .listUsers])
  | .listingUsers _ _, .usersListed .broke => some (d.breakDown c errand, [])
  | .listingUsers request chats, .usersListed (.gave reach) =>
    let users := listed d.directory.users reach
    let targets := Targets.collect d.settings.channelThreshold request chats users
    some (d.targetsKnown now c errand request targets)
  | .replying, .replied .broke => some (d.setStage c .broken, [])
  | .replying, .replied (.gave ()) => some (d.setStage c (.done .handled), [])
  | _, _ => none

/-- The caller whose run has a number. -/
def callerOf? (d : Dispatcher) (r : Nat) : Option Nat :=
  d.callers.findIdx? fun caller =>
    match caller.stage with
    | .running r' => r' = r
    | _ => false

/-- Once a run is over the slot is free and its caller goes on. -/
def conclude (d : Dispatcher) (r : Nat) (run : Run) (effects : List Run.Effect) :
    Dispatcher × List Run.Effect :=
  match run.stage, d.callerOf? r with
  | .finished report, some c =>
    let outcome := (d.callers[c]?).elim .handled fun caller => caller.errand.outcome report
    (d.release.setStage c (.done outcome), effects ++ [.publish (.set .runInProgress 0)])
  | .broken, some c => (d.release.setStage c .broken, effects)
  | _, _ => (d, effects)

/-- One move of a run. -/
def stepRun (now : Moment) (d : Dispatcher) (r : Nat) (move : Run.Move) :
    Option (Dispatcher × List Run.Effect) := do
  let run ← d.runs[r]?
  let (run, effects) ← run.step now move
  some ({ d with runs := d.runs.set r run }.conclude r run effects)

/-- The directory answers a removal of a run, and forgets the recipient if it was listed. -/
def stepRemoved (now : Moment) (d : Dispatcher) (r k : Nat) (answer : Answer Reach) :
    Option (Dispatcher × List Run.Effect) := do
  let run ← d.runs[r]?
  let removal ← run.removals[k]?
  match answer with
  | .broke => d.stepRun now r (.removal k (.answered .broke))
  | .gave (.unavailable _) => d.stepRun now r (.removal k (.answered (.gave false)))
  | .gave .performed =>
    let recipient := removal.recipient
    let (listed, directory) := match removal.listing with
      | .user => (d.directory.users.contains recipient, d.directory.removeUser recipient)
      | .chat => (d.directory.chats.contains recipient, d.directory.removeChat recipient)
    let (d, effects) ← d.stepRun now r (.removal k (.answered (.gave listed)))
    some ({ d with directory }, effects)

/-- One move in the system at a moment, if the move is possible then. A run is cancelled through
the slot only, and its removals are answered by the directory only. -/
def step (now : Moment) (d : Dispatcher) : Move → Option (Dispatcher × List Run.Effect)
  | .open errand => some ({ d with callers := d.callers ++ [⟨errand, .opening⟩] }, [])
  | .caller c move => d.stepCaller now c move
  | .run _ .cancel => none
  | .run _ (.removal _ (.answered _)) => none
  | .run r move => d.stepRun now r move
  | .removed r k answer => d.stepRemoved now r k answer
  | .addUser r => some ({ d with directory := d.directory.addUser r }, [])
  | .addChat r => some ({ d with directory := d.directory.addChat r }, [])

end Dispatcher

end Broadcast
