/-!
# Recipients

A recipient is known by a signed number whose sign and magnitude tell its kind: users are positive,
chats are negative, and the chats of large magnitude are channels.
-/

namespace Broadcast

/-- Someone or some place that a message can be delivered to. -/
structure Recipient where
  id : Int64
deriving DecidableEq, Hashable, Inhabited, Repr

namespace Recipient

instance : ToString Recipient where
  toString r := toString r.id.toInt

/-- What a recipient can be. -/
inductive Kind
  | user
  | group
  | channel
deriving DecidableEq, Repr

/-- The name of a kind in documents. -/
def Kind.name : Kind → String
  | user => "user"
  | group => "group"
  | channel => "channel"

/-- The kind with a given name. -/
def Kind.ofName? : String → Option Kind
  | "user" => some .user
  | "group" => some .group
  | "channel" => some .channel
  | _ => none

theorem Kind.ofName?_name (k : Kind) : ofName? k.name = some k := by
  cases k <;> rfl

/-- The magnitude from which on a chat counts as a channel, unless settings say otherwise. -/
def defaultThreshold : Int64 := 1000000000000

/-- A positive number stands for a user. -/
def isUser (r : Recipient) : Bool :=
  0 < r.id.toInt

/-- The kind of a recipient; zero is no recipient at all. -/
def kind? (threshold : Int64) (r : Recipient) : Option Kind :=
  if r.id = 0 then none
  else if r.isUser then some .user
  else if threshold.toInt.natAbs ≤ r.id.toInt.natAbs then some .channel
  else some .group

end Recipient

/-- How many recipients of each kind there are. -/
structure KindCounts where
  users : UInt64
  groups : UInt64
  channels : UInt64
deriving DecidableEq, Inhabited, Repr

end Broadcast
