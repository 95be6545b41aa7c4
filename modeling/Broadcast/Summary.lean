import Broadcast.Duration
import Broadcast.Message
import Broadcast.Recipient
import Broadcast.Timestamp
import Broadcast.Word

/-!
# Summaries of a run

What a run reports at its end, and the documents of the values that it shares with others.
-/

namespace Broadcast

/-- What a run counted, and how it was run. -/
structure Report where
  total : UInt64
  success : UInt64
  failed : UInt64
  removed : UInt64
  mode : DeliveryMode
  cancelled : Bool
  pacingDelay : Duration
  elapsed : Duration
deriving DecidableEq, Repr

namespace Report

/-- The jobs that have ended. -/
def processed (r : Report) : Nat := r.success.toNat + r.failed.toNat

/-- More jobs have ended than a counter can tell. -/
def overflows (r : Report) : Bool := 2 ^ 64 ≤ r.processed

/-- Every job has ended one way or the other. -/
def isBalanced (r : Report) : Bool := r.processed = r.total.toNat

end Report

/-- The report of one particular run. -/
structure Summary extends Report where
  runId : String
  startedAt : Timestamp
deriving DecidableEq, Repr

namespace Summary

/-- The names of the parts in documents, in their order. -/
def names : List String :=
  ["runId", "startedAt", "total", "success", "failed", "removed", "mode", "cancelled",
   "pacingDelay", "elapsed"]

/-- A length of time in documents: its whole milliseconds, as a word of 64 bits. -/
def durationToData (d : Duration) : Data :=
  .ofUnsigned64 (UInt64.ofNat d.millis)

/-- The length of time that a value denotes in milliseconds. -/
def durationOfData? (d : Data) : Option Duration :=
  d.unsigned64?.map fun millis => .ofMillis millis.toNat

/-- The value that lists a summary. -/
def toData (s : Summary) : Data :=
  .table (names.zip
    [.text s.runId, .text s.startedAt.render, .ofUnsigned64 s.total, .ofUnsigned64 s.success,
     .ofUnsigned64 s.failed, .ofUnsigned64 s.removed, .text s.mode.name, .bool s.cancelled,
     durationToData s.pacingDelay, durationToData s.elapsed])

/-- The summary that a value lists in full. -/
def ofData? (d : Data) : Option Summary := do
  match ← d.record? .complete names with
  | [some runId, some startedAt, some total, some success, some failed, some removed, some mode,
      some cancelled, some pacingDelay, some elapsed] =>
    some {
      runId := ← runId.text?
      startedAt := ← startedAt.text?.bind Timestamp.parse?
      total := ← total.unsigned64?
      success := ← success.unsigned64?
      failed := ← failed.unsigned64?
      removed := ← removed.unsigned64?
      mode := ← mode.case?.bind DeliveryMode.ofName?
      cancelled := ← cancelled.bool?
      pacingDelay := ← durationOfData? pacingDelay
      elapsed := ← durationOfData? elapsed }
  | _ => none

end Summary

/-- The value of a recipient: its number. -/
def Recipient.toData (r : Recipient) : Data :=
  .ofSigned64 r.id

/-- The recipient that a value denotes. -/
def Recipient.ofData? (d : Data) : Option Recipient :=
  d.signed64?.map Recipient.mk

/-- The value of a kind: its name. -/
def Recipient.Kind.toData (k : Recipient.Kind) : Data :=
  .text k.name

/-- The kind that a value names. -/
def Recipient.Kind.ofData? (d : Data) : Option Recipient.Kind :=
  d.case?.bind ofName?

/-- The value of a mode: its name. -/
def DeliveryMode.toData (m : DeliveryMode) : Data :=
  .text m.name

/-- The mode that a value names. -/
def DeliveryMode.ofData? (d : Data) : Option DeliveryMode :=
  d.case?.bind ofName?

/-- The value that lists the two numbers of a message. -/
def SourceMessage.toData (m : SourceMessage) : Data :=
  .table [("chatId", .ofSigned64 m.chatId), ("messageId", .ofSigned64 m.messageId)]

/-- The message whose numbers a value lists in full. -/
def SourceMessage.ofData? (d : Data) : Option SourceMessage := do
  match ← d.record? .complete ["chatId", "messageId"] with
  | [some chatId, some messageId] =>
    some { chatId := ← chatId.signed64?, messageId := ← messageId.signed64? }
  | _ => none

/-- The value that lists the counts of the kinds. -/
def KindCounts.toData (c : KindCounts) : Data :=
  .table [("users", .ofUnsigned64 c.users), ("groups", .ofUnsigned64 c.groups),
    ("channels", .ofUnsigned64 c.channels)]

/-- The counts that a value lists in full. -/
def KindCounts.ofData? (d : Data) : Option KindCounts := do
  match ← d.record? .complete ["users", "groups", "channels"] with
  | [some users, some groups, some channels] =>
    some { users := ← users.unsigned64?
           groups := ← groups.unsigned64?
           channels := ← channels.unsigned64? }
  | _ => none

end Broadcast
