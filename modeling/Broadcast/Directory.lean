import Broadcast.Json.Reader
import Broadcast.Json.Writer
import Broadcast.Summary
import Std.Data.HashSet

/-!
# The directory of recipients

Users and chats are kept in two listings without repetition, in the order in which they came. A
seed is a document that lists both. Recipients without a seed are made up: they are numbered from a
base of their kind, users upwards from 100000, groups downwards from -4000, and channels downwards
from where channels begin.
-/

namespace Broadcast

/-- The known recipients. -/
structure Directory where
  users : List Recipient
  chats : List Recipient
  users_nodup : users.Nodup
  chats_nodup : chats.Nodup

namespace Directory

/-- The members of a list in the order in which they come first. -/
def firsts : List Recipient → List Recipient
  | [] => []
  | r :: rs => r :: (firsts rs).filter (· ≠ r)

theorem mem_firsts {r : Recipient} {rs : List Recipient} : r ∈ firsts rs ↔ r ∈ rs := by
  induction rs with
  | nil => simp [firsts]
  | cons a rs ih =>
    by_cases h : r = a <;> simp [firsts, h, ih]

theorem firsts_nodup (rs : List Recipient) : (firsts rs).Nodup := by
  induction rs with
  | nil => simp [firsts]
  | cons a rs ih =>
    rw [firsts, List.nodup_cons]
    exact ⟨by simp, ih.filter _⟩

/-- A listing without repetition is its own list of first occurrences. -/
theorem firsts_of_nodup {rs : List Recipient} (h : rs.Nodup) : firsts rs = rs := by
  induction rs with
  | nil => rfl
  | cons a rs ih =>
    rw [List.nodup_cons] at h
    rw [firsts, ih h.2, List.filter_eq_self.2]
    intro r hr
    simp only [ne_eq, decide_eq_true_eq]
    rintro rfl
    exact h.1 hr

/-- A member of a list is noted, unless it was seen before. -/
def note (noted : Std.HashSet Recipient × Array Recipient) (r : Recipient) :
    Std.HashSet Recipient × Array Recipient :=
  if noted.1.contains r then noted else (noted.1.insert r, noted.2.push r)

/-- The members of a list in the order in which they come first, told apart by a set of those that
were seen before. -/
def distinct (rs : List Recipient) : List Recipient :=
  (rs.foldl note (∅, #[])).2.toList

theorem foldl_note (rs : List Recipient) (seen : Std.HashSet Recipient)
    (found : Array Recipient) :
    (rs.foldl note (seen, found)).2.toList =
      found.toList ++ (firsts rs).filter fun r => !seen.contains r := by
  induction rs generalizing seen found with
  | nil => simp [firsts]
  | cons a rs ih =>
    rw [List.foldl_cons, note, firsts, List.filter_cons]
    by_cases ha : seen.contains a = true
    · rw [if_pos ha, ih, ha, List.filter_filter]
      congr 1
      refine List.filter_congr fun r _ => ?_
      by_cases hr : r = a <;> simp [hr, ha]
    · rw [if_neg ha, ih, List.filter_filter]
      simp only [ha, Bool.not_false, if_true, Array.toList_push, List.append_assoc,
        List.singleton_append]
      congr 2
      refine List.filter_congr fun r _ => ?_
      rw [Std.HashSet.contains_insert]
      by_cases hr : r = a
      · simp [hr]
      · simp [hr, beq_false_of_ne (Ne.symm hr)]

/-- The quick way finds what comes first. -/
theorem distinct_eq_firsts (rs : List Recipient) : distinct rs = firsts rs := by
  rw [distinct, foldl_note]
  simp

/-- What can go wrong with a directory. -/
inductive Fault
  | unavailable (text : String)
  | notFound (r : Recipient)
deriving DecidableEq, Repr

/-- The fault in words. -/
def Fault.message : Fault → String
  | unavailable text => s!"Directory unavailable: {text}"
  | notFound r => s!"Recipient not found: {r}"

/-- The directory with the members of two lists. -/
def ofLists (users chats : List Recipient) : Directory where
  users := distinct users
  chats := distinct chats
  users_nodup := distinct_eq_firsts users ▸ firsts_nodup users
  chats_nodup := distinct_eq_firsts chats ▸ firsts_nodup chats

/-- The directory of nobody. -/
def empty : Directory := ofLists [] []

instance : Inhabited Directory := ⟨empty⟩

/-- The recipient is in one of the listings. -/
def contains (d : Directory) (r : Recipient) : Bool :=
  d.users.contains r || d.chats.contains r

/-- A recipient put behind a listing, if it is not in there yet. -/
private def appended (rs : List Recipient) (r : Recipient) : List Recipient :=
  if r ∈ rs then rs else rs ++ [r]

private theorem appended_nodup {rs : List Recipient} (h : rs.Nodup) (r : Recipient) :
    (appended rs r).Nodup := by
  unfold appended
  split
  · exact h
  · next hr =>
    rw [List.nodup_append]
    refine ⟨h, by simp, ?_⟩
    rintro a ha b hb rfl
    rw [List.mem_singleton] at hb
    exact hr (hb ▸ ha)

/-- The directory with one more user. -/
def addUser (d : Directory) (r : Recipient) : Directory :=
  { d with users := appended d.users r, users_nodup := appended_nodup d.users_nodup r }

/-- The directory with one more chat. -/
def addChat (d : Directory) (r : Recipient) : Directory :=
  { d with chats := appended d.chats r, chats_nodup := appended_nodup d.chats_nodup r }

/-- The directory without a user. -/
def removeUser (d : Directory) (r : Recipient) : Directory :=
  { d with users := d.users.erase r, users_nodup := d.users_nodup.erase r }

/-- The directory without a chat. -/
def removeChat (d : Directory) (r : Recipient) : Directory :=
  { d with chats := d.chats.erase r, chats_nodup := d.chats_nodup.erase r }

/-- The directory that a seed value lists; a listing that it leaves out is empty. -/
def ofSeedData? (d : Data) : Option Directory := do
  match ← d.record? .partly ["users", "chats"] with
  | [users, chats] =>
    let users ← users.elim (some []) (Data.listOf? Recipient.ofData?)
    let chats ← chats.elim (some []) (Data.listOf? Recipient.ofData?)
    some (ofLists users chats)
  | _ => none

/-- The directory of a seed document. -/
def ofSeed? (document : String) : Option Directory :=
  (Json.parse? document).bind ofSeedData?

/-- The seed value of a directory. -/
def toSeedData (d : Directory) : Data :=
  .table [("chats", .list (d.chats.map Recipient.toData)),
    ("users", .list (d.users.map Recipient.toData))]

/-- The seed document of a directory. -/
def toSeed (d : Directory) : String :=
  Json.renderIndented d.toSeedData

/-! ## Recipients made up -/

/-- How many recipients of each kind are wanted; a count below one is none. -/
structure Sizes where
  users : Int64 := 50
  groups : Int64 := 5
  channels : Int64 := 2
deriving DecidableEq, Repr

/-- One item for each of the numbers from one up to a count. -/
def upTo {α : Type} (count : Int64) (item : Int64 → α) : List α :=
  (List.range count.toInt.toNat).map fun i => item (Int64.ofNat (i + 1))

/-- The user of a number. -/
def user (i : Int64) : Recipient := ⟨100000 + i⟩

/-- The group of a number. -/
def group (i : Int64) : Recipient := ⟨-(4000 + i)⟩

/-- The channel of a number, where channels begin at a threshold. -/
def channel (threshold i : Int64) : Recipient := ⟨-(Word.saturatingAdd threshold i)⟩

/-- A directory of the wanted sizes. -/
def generated (sizes : Sizes) (threshold : Int64) : Directory :=
  .ofLists (upTo sizes.users user)
    (upTo sizes.groups group ++ upTo sizes.channels (channel threshold))

end Directory

end Broadcast
