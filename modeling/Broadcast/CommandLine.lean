import Broadcast.CommandLine.Help
import Broadcast.EnvironmentFile
import Broadcast.FileTree
import Broadcast.Rehearsal.Faults
import Broadcast.Rehearsal.Play

/-!
# The command line

One command to broadcast is given over a directory of recipients that comes from a seed or is made
up, and its deliveries are simulated. What the program will do is a function of its words, of the
environment, of the files and of a seed of chance. Each notice to the operator is printed with its
number, and again each time it is edited; an edit that would change nothing is not printed.
-/

namespace Broadcast.CommandLine

/-- A text printed at a millisecond of a run. -/
structure Printed where
  millis : Nat
  text : String
deriving DecidableEq, Repr

namespace Printed

/-- What is printed of notices that were sent and edited, beside the texts that the notices have
at first. -/
def ofEntries (shown : List (Handle × String)) : List Rehearsal.NoticeEntry → List Printed
  | [] => []
  | .reply (some notice) text millis :: entries =>
    ⟨millis, s!"\n[notice #{notice}]\n{text}\n"⟩ :: ofEntries ((notice, text) :: shown) entries
  | .edit true notice text millis :: entries =>
    if shown.lookup notice = some text then
      ofEntries shown entries
    else
      ⟨millis, s!"\n[notice #{notice} edited]\n{text}\n"⟩ ::
        ofEntries ((notice, text) :: shown) entries
  | _ :: entries => ofEntries shown entries

end Printed

/-- Why the program fails. -/
inductive Failure
  | configuration (fault : Config.Fault)
  | seed
  | broadcast
  | writing (path : String) (fault : PathFault)
deriving DecidableEq, Repr

namespace Failure

/-- The failure in words. -/
def message : Failure → String
  | configuration _ => "Failed to load configuration"
  | seed => "Invalid seed data"
  | broadcast => "Broadcast task failed"
  | writing path _ => s!"Failed to write seed file {path}"

/-- What led to the failure, the nearest cause first. -/
def causes : Failure → List String
  | configuration .unreadable => ["Failed to read config file", "The file holds no text"]
  | configuration .unparsable => ["Failed to parse TOML", "The text is not a configuration"]
  | configuration (.invalid rule) => [rule.message]
  | seed => []
  | broadcast => ["The broadcast broke down"]
  | writing _ fault => [fault.message]

/-- All that is said about the failure. The causes are numbered if there is more than one. -/
def report (f : Failure) : String :=
  let causes := match f.causes with
    | [] => []
    | [cause] => ["", "Caused by:", s!"    {cause}"]
    | causes => "" :: "Caused by:" :: causes.mapIdx fun i cause => s!"    {i}: {cause}"
  String.join ((s!"Error: {f.message}" :: causes).map (· ++ "\n"))

end Failure

/-- What is left to do after a broadcast: nothing, or to write a seed to a path, unless the
broadcast broke down. -/
inductive Ending
  | quiet
  | seed (path content : String)
  | broke
deriving DecidableEq, Repr

/-- What the program does. -/
inductive Course
  | refused
  | helped (text : String)
  | failed (failure : Failure)
  | played (printed : List Printed) (ending : Ending)
deriving DecidableEq, Repr

/-- What is seen of the program in the end. -/
structure Result where
  exitCode : UInt32
  printed : List Printed := []
  errors : String := ""
deriving DecidableEq, Repr

namespace Course

/-- The path and the content of the seed that is to be written. -/
def seed? : Course → Option (String × String)
  | played _ (.seed path content) => some (path, content)
  | _ => none

/-- What is seen in the end, given what came of writing the seed. -/
def result (writing : Except PathFault Unit) : Course → Result
  | refused => { exitCode := 2, errors := refusalText }
  | helped text => { exitCode := 0, printed := [⟨0, text⟩] }
  | failed failure => { exitCode := 1, errors := failure.report }
  | played printed ending =>
    match ending, writing with
    | .broke, _ => { exitCode := 1, printed, errors := Failure.broadcast.report }
    | .seed path _, .error fault =>
      { exitCode := 1, printed, errors := (Failure.writing path fault).report }
    | _, _ => { exitCode := 0, printed }

end Course

/-- The environment of the program: its own one and what the environment file adds to it. -/
def environment (files : FileView) (env : Environment) : Environment :=
  EnvironmentFile.load files env

/-- The directory that a broadcast starts from. -/
def directory? (files : FileView) (o : Options) (config : Config) : Option Directory :=
  match o.seedFile <|> config.seedFile with
  | some path => (files.text? path).bind Directory.ofSeed?
  | none => some (.generated o.sizes config.broadcast.channelThreshold)

namespace Options

/-- The message that the command replies to. -/
def source? (o : Options) : Option SourceMessage :=
  if o.withoutSource then none else some ⟨-1, 1⟩

/-- The profile of the simulated deliveries. -/
def faults (o : Options) : Rehearsal.FaultProfile where
  failureRate := o.failureRate
  rateLimitRate := o.rateLimitRate
  floodWaitSecs := o.floodWaitSecs
  maxLatencyMillis := o.maxLatencyMillis

/-- The command as a step of a rehearsal. A wish to cancel comes after the command itself, however
soon it comes. -/
def step (o : Options) : Rehearsal.Step where
  action := .errand (.broadcast o.source? o.args)
  cancelAfter := o.cancelAfter.map fun millis => max millis.toNat 1

end Options

/-- The broadcast over a directory. -/
def play (o : Options) (config : Config) (directory : Directory) (chance : UInt64) : Course :=
  let dispatcher := Dispatcher.start config.broadcast directory
  let (rehearsal, result) := (Rehearsal.start (o.faults.script chance) dispatcher).playStep o.step
  .played (Printed.ofEntries [] rehearsal.log.notices.toList)
    (match result, o.writeSeed with
      | .broke, _ => .broke
      | _, some path => .seed path rehearsal.dispatcher.directory.toSeed
      | _, none => .quiet)

/-- What the program does. -/
def run (files : FileView) (env : Environment) (words : List String) (chance : UInt64) : Course :=
  let env := environment files env
  match Options.read env words with
  | .error .usage => .refused
  | .error .help => .helped (help env)
  | .ok o =>
    match Config.load files env o.config with
    | .error fault => .failed (.configuration fault)
    | .ok config =>
      match directory? files o config with
      | none => .failed .seed
      | some directory => play o config directory chance

/-- The paths that the program looks at, as far as they can be told from a part of the files. -/
def paths (files : FileView) (env : Environment) (words : List String) : List String :=
  EnvironmentFile.path ::
    let env := environment files env
    match Options.read env words with
    | .error _ => []
    | .ok o =>
      Config.candidates o.config env ++
        match Config.load files env o.config with
        | .error _ => []
        | .ok config => (o.seedFile <|> config.seedFile).toList

end Broadcast.CommandLine
