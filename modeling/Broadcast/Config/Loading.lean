import Broadcast.Config
import Broadcast.FileTree
import Broadcast.Text.Blank
import Broadcast.Toml.Document

/-!
# Loading a configuration

The first file that exists among the candidates is read, then variables of the environment
override single settings, then the rules are checked. A file that exists but cannot be used is not
passed over.
-/

namespace Broadcast

namespace Config

/-- Why no configuration was loaded. -/
inductive Fault
  | unreadable
  | unparsable
  | invalid (rule : Rule)
deriving DecidableEq, Repr

/-- The configuration that a document writes. Sections that are written as lists are read
loosely. -/
def ofDocument? (document : String) : Option Config :=
  (Toml.parse? document).bind (read? .loosely)

/-- The configuration in a file. -/
def ofFile (files : FileView) (path : String) : Except Fault Config :=
  match files.text? path with
  | none => .error .unreadable
  | some document =>
    match ofDocument? document with
    | none => .error .unparsable
    | some c => .ok c

/-- The places that are searched in any case. -/
def standardPaths : List String :=
  ["broadcast.toml", "config.toml", "./config/broadcast.toml", "/etc/broadcaster/broadcast.toml"]

/-- The places that are searched, in order. -/
def candidates (explicit : Option String) (env : Environment) : List String :=
  explicit.toList ++ (env "BROADCAST_CONFIG").toList ++ standardPaths

/-- The file to be read, if there is one. -/
def file? (files : FileView) (env : Environment) (explicit : Option String) : Option String :=
  (candidates explicit env).find? fun path => (files path).isSome

/-- A setting after its override: the number in the variable, if it has one that fits. -/
def overridden {α : Type} (env : Environment) (name : String) (word? : Int → Option α)
    (setting : α) : α :=
  (((env name).bind fun text => Text.signed? (Text.trim text.toList)).bind word?).getD setting

/-- A setting of an unsigned word after its override; no minus sign is read, not even in front of
zero. -/
def overriddenUnsigned {α : Type} (env : Environment) (name : String) (word? : Int → Option α)
    (setting : α) : α :=
  (((env name).bind fun text => Text.unsigned? (Text.trim text.toList)).bind
    fun n => word? n).getD setting

/-- The variables that override settings. -/
def overrideNames : List String :=
  ["BROADCAST_WORKERS", "BROADCAST_MAX_RETRIES", "BROADCAST_RATE_PER_SECOND",
   "BROADCAST_CHANNEL_ID_THRESHOLD", "BROADCAST_PROGRESS_INTERVAL_MS",
   "BROADCAST_REMOVAL_CONCURRENCY", "BROADCAST_REMOVAL_DRAIN_TIMEOUT_MS", "BROADCAST_SEED_FILE"]

/-- The configuration after the overrides of the environment. -/
def withOverrides (env : Environment) (c : Config) : Config :=
  let b := c.broadcast
  { broadcast :=
      { workers := overriddenUnsigned env "BROADCAST_WORKERS" Word.unsigned64? b.workers
        maxRetries :=
          overriddenUnsigned env "BROADCAST_MAX_RETRIES" Word.unsigned32? b.maxRetries
        ratePerSecond :=
          overriddenUnsigned env "BROADCAST_RATE_PER_SECOND" Word.unsigned32? b.ratePerSecond
        channelThreshold :=
          overridden env "BROADCAST_CHANNEL_ID_THRESHOLD" Word.signed64? b.channelThreshold
        progressMillis :=
          overriddenUnsigned env "BROADCAST_PROGRESS_INTERVAL_MS" Word.unsigned64?
            b.progressMillis
        removalConcurrency :=
          overriddenUnsigned env "BROADCAST_REMOVAL_CONCURRENCY" Word.unsigned64?
            b.removalConcurrency
        drainMillis :=
          overriddenUnsigned env "BROADCAST_REMOVAL_DRAIN_TIMEOUT_MS" Word.unsigned64?
            b.drainMillis }
    seedFile :=
      match env "BROADCAST_SEED_FILE" with
      | some "" => none
      | some file => some file
      | none => c.seedFile }

/-- The configuration that is in force. -/
def load (files : FileView) (env : Environment) (explicit : Option String) :
    Except Fault Config := do
  let c ← match file? files env explicit with
    | some path => ofFile files path
    | none => .ok {}
  let c := c.withOverrides env
  match c.brokenRule? with
  | some rule => .error (.invalid rule)
  | none => .ok c

end Config

end Broadcast
