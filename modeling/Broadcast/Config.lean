import Broadcast.Settings

/-!
# Configurations

A configuration holds the settings of broadcasts and the place of the file that the directory
starts from. The dispatcher can run with it only if four of its numbers are at least one.
-/

namespace Broadcast

/-- A whole configuration. -/
structure Config where
  broadcast : Settings := {}
  seedFile : Option String := none
deriving DecidableEq, Inhabited, Repr

namespace Config

/-- A rule that settings have to keep. -/
inductive Rule
  | workers
  | rate
  | threshold
  | removalConcurrency
deriving DecidableEq, Repr

/-- The settings keep a rule. -/
def Rule.holds (s : Settings) : Rule → Bool
  | workers => s.workers ≠ 0
  | rate => s.ratePerSecond ≠ 0
  | threshold => 0 < s.channelThreshold.toInt
  | removalConcurrency => s.removalConcurrency ≠ 0

/-- What is wrong with settings that break a rule. -/
def Rule.message : Rule → String
  | workers => "Invalid configuration: broadcast.workers must be at least 1"
  | rate => "Invalid configuration: broadcast.default_rate_per_second must be at least 1"
  | threshold => "Invalid configuration: broadcast.channel_id_threshold must be positive"
  | removalConcurrency => "Invalid configuration: broadcast.removal_concurrency must be at least 1"

/-- The rules in the order in which they are checked. -/
def rules : List Rule :=
  [.workers, .rate, .threshold, .removalConcurrency]

/-- The first rule that a configuration breaks. -/
def brokenRule? (c : Config) : Option Rule :=
  rules.find? fun rule => !rule.holds c.broadcast

/-- The configuration that a value lists, read as strictly as demanded; what it leaves out has its
default. -/
def read? (demand : Data.Demand) (d : Data) : Option Config := do
  match ← d.record? demand ["broadcast", "directory"] with
  | [broadcast, directory] =>
    some {
      broadcast := ← broadcast.elim (some {}) (Settings.read? demand)
      seedFile := ← directory.elim (some none) seedFileOf? }
  | _ => none
where
  /-- The seed file that the section on the directory names. -/
  seedFileOf? (d : Data) : Option (Option String) := do
    match ← d.record? demand ["seed_file"] with
    | [file] => file.elim (some none) (Data.optional? Data.text?)
    | _ => none

/-- The configuration that a value lists. -/
def ofData? (d : Data) : Option Config :=
  read? .partly d

/-- The value that lists a whole configuration. -/
def toData (c : Config) : Data :=
  .table [("broadcast", c.broadcast.toData),
    ("directory", .table [("seed_file", c.seedFile.elim .null .text)])]

/-- A document that lists every setting with its default. -/
def exampleDocument : String :=
  "# Broadcaster Configuration\n" ++
  "# Environment variables (BROADCAST_*) override these settings\n" ++
  "\n" ++
  "[broadcast]\n" ++
  "workers = 20\n" ++
  "max_retries = 2\n" ++
  "default_rate_per_second = 25\n" ++
  "channel_id_threshold = 1000000000000\n" ++
  "progress_interval_ms = 5000     # 0 disables progress edits\n" ++
  "removal_concurrency = 8\n" ++
  "removal_drain_timeout_ms = 10000\n" ++
  "\n" ++
  "[directory]\n" ++
  "# seed_file = \"./recipients.json\"\n"

end Config

end Broadcast
