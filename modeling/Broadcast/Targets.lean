import Broadcast.Directory
import Broadcast.Request

/-!
# Targets of a request

The two listings of a directory are joined, chats first, and split by kind. A request picks from
the groups, the channels and the users, in this order, and cuts the list at its limit. The counts
are those of all recipients, picked or not.
-/

namespace Broadcast

/-- Recipients by kind, each kind in order of appearance. -/
structure Partition where
  users : List Recipient
  groups : List Recipient
  channels : List Recipient
deriving DecidableEq, Repr

namespace Partition

/-- The recipients of a list by kind; repeated ones count once, and those of no kind not at all. -/
def ofList (threshold : Int64) (rs : List Recipient) : Partition where
  users := (Directory.distinct rs).filter (·.kind? threshold = some .user)
  groups := (Directory.distinct rs).filter (·.kind? threshold = some .group)
  channels := (Directory.distinct rs).filter (·.kind? threshold = some .channel)

/-- How many recipients of each kind there are. -/
def counts (p : Partition) : KindCounts where
  users := UInt64.ofNat p.users.length
  groups := UInt64.ofNat p.groups.length
  channels := UInt64.ofNat p.channels.length

/-- The recipients that a request picks. -/
def pick (p : Partition) (request : Request) : List Recipient :=
  let picked :=
    (if request.skipGroups then [] else p.groups) ++
    (if request.skipChannels then [] else p.channels) ++
    (if request.skipUsers then [] else p.users)
  match request.limit with
  | some limit => picked.take limit.count.toNat
  | none => picked

end Partition

/-- The targets of a request with the counts of all recipients. -/
structure Targets where
  counts : KindCounts
  list : List Recipient
deriving DecidableEq, Repr

/-- The targets of a request, given what the two listings returned. A listing that failed is taken
as empty. -/
def Targets.collect (threshold : Int64) (request : Request)
    (chats users : Except Directory.Fault (List Recipient)) : Targets :=
  let all := chats.toOption.getD [] ++ users.toOption.getD []
  let partition := Partition.ofList threshold all
  { counts := partition.counts, list := partition.pick request }

end Broadcast
