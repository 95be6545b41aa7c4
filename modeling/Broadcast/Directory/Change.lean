import Broadcast.Targets

/-!
# Changes of a directory

What can be asked of a directory and what it answers. A removal of someone who is not listed fails
and changes nothing, and so does a seed that cannot be read.
-/

namespace Broadcast.Directory

/-- What can be asked of a directory. -/
inductive Change
  | start (users chats : List Recipient)
  | seed (document : String)
  | addUser (r : Recipient)
  | addChat (r : Recipient)
  | removeUser (r : Recipient)
  | removeChat (r : Recipient)
deriving DecidableEq, Repr

/-- What a change answers. -/
inductive Answer
  | done
  | added (isNew : Bool)
  | failed (fault : Fault)
  | unreadable
deriving DecidableEq, Repr

/-- The directory after a change, and the answer. -/
def change (d : Directory) : Change → Directory × Answer
  | .start users chats => (ofLists users chats, .done)
  | .seed document =>
    match ofSeed? document with
    | some d => (d, .done)
    | none => (d, .unreadable)
  | .addUser r => (d.addUser r, .added (r ∉ d.users))
  | .addChat r => (d.addChat r, .added (r ∉ d.chats))
  | .removeUser r => if r ∈ d.users then (d.removeUser r, .done) else (d, .failed (.notFound r))
  | .removeChat r => if r ∈ d.chats then (d.removeChat r, .done) else (d, .failed (.notFound r))

/-- The directory after changes in order. -/
def afterAll (d : Directory) (changes : List Change) : Directory :=
  changes.foldl (fun d c => (d.change c).1) d

/-- The targets that a request picks from the directory. -/
def targets (d : Directory) (threshold : Int64) (request : Request) : Targets :=
  .collect threshold request (.ok d.chats) (.ok d.users)

end Broadcast.Directory
