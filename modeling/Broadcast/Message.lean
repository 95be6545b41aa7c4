/-!
# Messages and the way they are delivered
-/

namespace Broadcast

/-- The message to be delivered: the chat that holds it and its number there. -/
structure SourceMessage where
  chatId : Int64
  messageId : Int64
deriving DecidableEq, Inhabited, Repr

/-- A message arrives either attributed to its chat or as a new message. -/
inductive DeliveryMode
  | forward
  | copy
deriving DecidableEq, Inhabited, Repr

namespace DeliveryMode

/-- The mode in notices and metrics. -/
def label : DeliveryMode → String
  | forward => "Forward"
  | copy => "Copy"

/-- The name of a mode in documents. -/
def name : DeliveryMode → String
  | forward => "forward"
  | copy => "copy"

/-- The mode with a given name. -/
def ofName? : String → Option DeliveryMode
  | "forward" => some .forward
  | "copy" => some .copy
  | _ => none

theorem ofName?_name (m : DeliveryMode) : ofName? m.name = some m := by
  cases m <;> rfl

end DeliveryMode

end Broadcast
