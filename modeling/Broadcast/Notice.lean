import Broadcast.Duration.Compact
import Broadcast.Request
import Broadcast.Tally

/-!
# Notices to the operator

The texts that the operator gets to see. While a run is under way its first notice is edited; the
text that announced the run stays at the top of it.
-/

namespace Broadcast.Notice

/-- The announcement of a run. -/
def started (counts : KindCounts) (total : Nat) (mode : DeliveryMode) (delay : Duration) : String :=
  s!"🚀 Broadcast Started\n\n" ++
  s!"👥 Users: {counts.users}\n" ++
  s!"💬 Groups: {counts.groups}\n" ++
  s!"📢 Channels: {counts.channels}\n" ++
  s!"📊 Total: {total}\n" ++
  s!"⚙ Mode: {mode.label}\n" ++
  s!"⏱ Delay: {delay.compact}\n\n" ++
  "Send /cancelbroadcast to stop."

/-- The announcement with the counters of the run below it. -/
def underWay (announcement : String) (p : Progress) : String :=
  s!"{announcement}\n\n" ++
  s!"⏳ Progress: {p.processed}/{p.total}\n" ++
  s!"✅ Success: {p.success}\n" ++
  s!"❌ Failed: {p.failed}\n" ++
  s!"🗑 Removed: {p.removed}"

/-- The report on a run. -/
def complete (r : Report) : String :=
  s!"📢 Broadcast Complete\n\n" ++
  s!"👥 Total: {r.total}\n" ++
  s!"✅ Success: {r.success}\n" ++
  s!"❌ Failed: {r.failed}\n" ++
  s!"🗑 Removed: {r.removed}\n" ++
  s!"⚙ Mode: {r.mode.label}\n" ++
  s!"🛑 Cancelled: {r.cancelled}\n" ++
  s!"⏱ Delay: {r.pacingDelay.compact}\n" ++
  s!"⌛ Elapsed: {r.elapsed.compact}"

/-- How to use the command. -/
def usage : String :=
  "❗ Reply to a message to broadcast.\n\n" ++
  "Flags:\n" ++
  "-copy - Send as copy (hide forward tag)\n" ++
  "-nochats - Skip groups\n" ++
  "-nousers - Skip users\n" ++
  "-nochannels - Skip channels\n" ++
  "-limit <N> - Deliver to at most N recipients\n" ++
  "-delay <duration> - Pause between deliveries (e.g. 50ms, 1s)\n\n" ++
  "Example: /broadcast -copy -limit 100"

/-- What is wrong with the words of a command. -/
def wrongUsage : UsageError → String
  | .missingSource => usage
  | error => s!"❗ {error.message}\n\n{usage}"

/-- Another broadcast is under way. -/
def alreadyRunning : String :=
  "❗ A broadcast is already in progress. Please wait for it to complete or cancel it with " ++
  "/cancelbroadcast"

/-- A request picks nobody. -/
def noTargets : String := "❗ No targets found."

/-- A request has no pause between deliveries. -/
def invalidPacing (interval : Duration) : String :=
  s!"❗ Invalid pacing interval: {interval.exact}"

/-- A wish to cancel was accepted. -/
def cancelled : String := "🚫 Broadcast cancelled."

/-- A wish to cancel found nothing to be cancelled. -/
def nothingToCancel : String := "ℹ No broadcast is in progress."

end Broadcast.Notice
