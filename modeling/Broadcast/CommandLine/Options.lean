import Broadcast.Config.Loading
import Broadcast.Directory

/-!
# Options of the command line

An option is given on the command line, at most once, or else by a variable of the environment,
or else it has its default. The first thing on the command line that does not fit decides that it
is refused, unless help was asked for before.
-/

namespace Broadcast.CommandLine

/-- The names of the options. -/
inductive OptionName
  | args
  | config
  | seedFile
  | users
  | groups
  | channels
  | writeSeed
  | withoutSource
  | cancelAfter
  | failureRate
  | rateLimitRate
  | floodWait
  | maxLatency
deriving DecidableEq, Repr

namespace OptionName

/-- The options in the order in which help lists them. -/
def all : List OptionName :=
  [args, config, seedFile, users, groups, channels, writeSeed, withoutSource, cancelAfter,
   failureRate, rateLimitRate, floodWait, maxLatency]

/-- The name as it is written behind two dashes. -/
def label : OptionName → String
  | args => "args"
  | config => "config"
  | seedFile => "seed-file"
  | users => "users"
  | groups => "groups"
  | channels => "channels"
  | writeSeed => "write-seed"
  | withoutSource => "without-source"
  | cancelAfter => "cancel-after-ms"
  | failureRate => "failure-rate"
  | rateLimitRate => "rate-limit-rate"
  | floodWait => "flood-wait-secs"
  | maxLatency => "max-latency-ms"

/-- The variable of the environment that gives the option too. -/
def envName? : OptionName → Option String
  | args => some "BC_DEV_ARGS"
  | config => some "BROADCAST_CONFIG"
  | seedFile | writeSeed | withoutSource => none
  | users => some "BC_DEV_USERS"
  | groups => some "BC_DEV_GROUPS"
  | channels => some "BC_DEV_CHANNELS"
  | cancelAfter => some "BC_DEV_CANCEL_AFTER_MS"
  | failureRate => some "BC_DEV_FAILURE_RATE"
  | rateLimitRate => some "BC_DEV_RATE_LIMIT_RATE"
  | floodWait => some "BC_DEV_FLOOD_WAIT_SECS"
  | maxLatency => some "BC_DEV_MAX_LATENCY_MS"

/-- The default as help shows it. -/
def default? : OptionName → Option String
  | args => some ""
  | config | seedFile | writeSeed | withoutSource | cancelAfter => none
  | users => some "50"
  | groups => some "5"
  | channels => some "2"
  | failureRate => some "0.05"
  | rateLimitRate => some "0.02"
  | floodWait => some "1"
  | maxLatency => some "20"

/-- What the option is for. -/
def purpose : OptionName → String
  | args => "Command flags, e.g. \"-copy -limit 100 -delay 50ms\""
  | config => "Config file path"
  | seedFile =>
    "JSON seed file (\x7b\"users\": [..], \"chats\": [..]\x7d); overrides the configured one"
  | users => "Users to generate when no seed file is given"
  | groups => "Groups to generate when no seed file is given"
  | channels => "Channels to generate when no seed file is given"
  | writeSeed => "Write the directory as it stands after the run to this seed file"
  | withoutSource => "Run the command as if it did not reply to a message"
  | cancelAfter => "Cancel the broadcast after this many milliseconds"
  | failureRate => "Probability of a terminal delivery error"
  | rateLimitRate => "Probability of a rate-limit signal"
  | floodWait => "Wait carried by simulated rate-limit signals, in seconds"
  | maxLatency => "Maximum simulated delivery latency"

/-- The option stands alone, without a value. -/
def isFlag (name : OptionName) : Bool :=
  name = withoutSource

/-- The option with a label. -/
def ofLabel? (label : String) : Option OptionName :=
  all.find? (·.label = label)

end OptionName

/-! ## Values -/

/-- The ratio that a decimal text denotes, as near as a floating point number can be. -/
def ratio? (text : List Char) : Option Float :=
  match text with
  | '-' :: s => (magnitude? s).map (-·)
  | '+' :: s => magnitude? s
  | s => magnitude? s
where
  /-- The number that a text without a sign denotes. -/
  magnitude? (s : List Char) : Option Float :=
    let lower := s.map Char.toLower
    if lower = "inf".toList ∨ lower = "infinity".toList then some (1.0 / 0.0)
    else if lower = "nan".toList then some (0.0 / 0.0)
    else
      let whole := s.takeWhile Char.isDigit
      let (fraction, rest) := match s.dropWhile Char.isDigit with
        | '.' :: rest => (rest.takeWhile Char.isDigit, rest.dropWhile Char.isDigit)
        | rest => ([], rest)
      let exponent? : Option Int := match rest with
        | [] => some 0
        | e :: rest => if e = 'e' ∨ e = 'E' then Text.signed? rest else none
      if whole ++ fraction = [] then none
      else exponent?.map fun exponent =>
        scaled (Text.ofDigits (whole ++ fraction)) (exponent - fraction.length)
  /-- A number times a power of ten; beyond the numbers there are it does not matter how far. -/
  scaled (digits : Nat) (exponent : Int) : Float :=
    if digits = 0 ∨ exponent + (toString digits).length < -400 then 0.0
    else if 400 < exponent then 1.0 / 0.0
    else Float.ofScientific digits (exponent < 0) exponent.natAbs

/-- The signed number that a text denotes. -/
def signed? (text : String) : Option Int64 :=
  (Text.signed? text.toList).bind Word.signed64?

/-- The unsigned number that a text denotes. -/
def unsigned? (text : String) : Option UInt64 :=
  (Text.unsigned? text.toList).bind fun n => Word.unsigned64? n

/-- A path, which is not empty. -/
def path? (text : String) : Option String :=
  if text = "" then none else some text

/-- The values of the options. -/
structure Options where
  args : String := ""
  config : Option String := none
  seedFile : Option String := none
  sizes : Directory.Sizes := {}
  writeSeed : Option String := none
  withoutSource : Bool := false
  cancelAfter : Option UInt64 := none
  failureRate : Float := 0.05
  rateLimitRate : Float := 0.02
  floodWaitSecs : UInt64 := 1
  maxLatencyMillis : UInt64 := 20
deriving Repr

namespace Options

/-- The options with a value for one of them, if the text denotes one. -/
def set? (o : Options) (text : String) : OptionName → Option Options
  | .args => some { o with args := text }
  | .config => (path? text).map fun path => { o with config := some path }
  | .seedFile => some { o with seedFile := some text }
  | .users => (signed? text).map fun n => { o with sizes.users := n }
  | .groups => (signed? text).map fun n => { o with sizes.groups := n }
  | .channels => (signed? text).map fun n => { o with sizes.channels := n }
  | .writeSeed => (path? text).map fun path => { o with writeSeed := some path }
  | .withoutSource => none
  | .cancelAfter => (unsigned? text).map fun n => { o with cancelAfter := some n }
  | .failureRate => (ratio? text.toList).map fun rate => { o with failureRate := rate }
  | .rateLimitRate => (ratio? text.toList).map fun rate => { o with rateLimitRate := rate }
  | .floodWait => (unsigned? text).map fun n => { o with floodWaitSecs := n }
  | .maxLatency => (unsigned? text).map fun n => { o with maxLatencyMillis := n }

end Options

/-! ## The command line -/

/-- Why there are no options. -/
inductive Refusal
  | usage
  | help
deriving DecidableEq, Repr

/-- The label of a word that begins with two dashes, and the text behind its sign of equality. -/
def labelled? (word : String) : Option (String × Option String) :=
  match word.toList with
  | '-' :: '-' :: s =>
    let label := String.ofList (s.takeWhile (· ≠ '='))
    match s.dropWhile (· ≠ '=') with
    | _ :: value => some (label, some (String.ofList value))
    | [] => some (label, none)
  | _ => none

/-- The word can be the value of an option that stands in front of it. Only the flags of a command
may begin with a dash, but a dash alone may stand anywhere. -/
def isValueOf (name : OptionName) (word : String) : Bool :=
  name = .args || word = "-" || !word.startsWith "-"

/-- The options with one that is given by a text, beside those given before. -/
def give (given : List OptionName) (o : Options) (name : OptionName) (text : String) :
    Except Refusal (List OptionName × Options) :=
  match o.set? text name with
  | some o => .ok (name :: given, o)
  | none => .error .usage

/-- The options after the words of a command line, and the names of those that it gives. An option
may be waiting for its value. -/
def readWords (given : List OptionName) (o : Options) :
    (waiting : Option OptionName) → List String → Except Refusal (List OptionName × Options)
  | none, [] => .ok (given, o)
  | some _, [] => .error .usage
  | some name, word :: words =>
    if isValueOf name word then do
      let (given, o) ← give given o name word
      readWords given o none words
    else .error .usage
  | none, "--" :: words => if words = [] then .ok (given, o) else .error .usage
  | none, word :: words =>
    match labelled? word with
    | none => .error (if word.startsWith "-h" then .help else .usage)
    | some ("help", none) => .error .help
    | some (label, attached) =>
      match OptionName.ofLabel? label with
      | none => .error .usage
      | some name =>
        if name ∈ given then .error .usage
        else
          match name.isFlag, attached with
          | true, none => readWords (name :: given) { o with withoutSource := true } none words
          | true, some _ => .error .usage
          | false, none => readWords given o (some name) words
          | false, some value => do
            let (given, o) ← give given o name value
            readWords given o none words

/-- The options with a variable of the environment for one that the command line does not give. -/
def readVariable (env : Environment) (given : List OptionName) (o : Options)
    (name : OptionName) : Except Refusal Options :=
  if name ∈ given then .ok o
  else
    match name.envName?.bind env with
    | none => .ok o
    | some value =>
      match o.set? value name with
      | some o => .ok o
      | none => .error .usage

/-- The options that a command line and an environment give. -/
def Options.read (env : Environment) (words : List String) : Except Refusal Options := do
  let (given, o) ← readWords [] {} none words
  OptionName.all.foldlM (readVariable env given) o

end Broadcast.CommandLine
