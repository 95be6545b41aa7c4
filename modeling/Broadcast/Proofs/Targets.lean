import Broadcast.Targets
import Mathlib.Data.List.Nodup

/-!
# Targets that can be counted

Whatever two listings say, the targets of a request are recipients of some kind, and no recipient
is a target twice. So there are fewer of them than a word of 64 bits can count.
-/

namespace Broadcast

/-- The number of a recipient, taken as one without a sign. -/
private def Recipient.code (r : Recipient) : Nat :=
  r.id.toBitVec.toNat

private theorem Recipient.code_injective : Function.Injective Recipient.code := by
  intro r s same
  obtain ⟨id⟩ := r
  obtain ⟨id'⟩ := s
  obtain rfl : id = id' := Int64.toBitVec_inj.mp (BitVec.eq_of_toNat_eq same)
  rfl

/-- There are fewer recipients of some kind than a word of 64 bits can count. -/
theorem length_lt_of_nodup {rs : List Recipient} (nodup : rs.Nodup)
    (kinds : ∀ r ∈ rs, r.id ≠ 0) : rs.length < 2 ^ 64 := by
  have codes : (rs.map Recipient.code).Nodup := nodup.map Recipient.code_injective
  have inside : rs.map Recipient.code ⊆ List.range' 1 (2 ^ 64 - 1) := by
    intro code present
    obtain ⟨r, member, rfl⟩ := List.mem_map.mp present
    have positive : r.code ≠ 0 := by
      intro zero
      refine kinds r member (Int64.toBitVec_inj.mp (BitVec.eq_of_toNat_eq ?_))
      exact zero
    have bound : r.code < 2 ^ 64 := r.id.toBitVec.isLt
    exact List.mem_range'_1.mpr ⟨Nat.one_le_iff_ne_zero.mpr positive, by omega⟩
  have count := codes.length_le_of_subset inside
  rw [List.length_map, List.length_range'] at count
  omega

namespace Partition

private theorem filter_kind (threshold : Int64) (rs : List Recipient) (kind : Recipient.Kind) :
    ((Directory.distinct rs).filter (·.kind? threshold = some kind)).Nodup ∧
      ∀ r ∈ (Directory.distinct rs).filter (·.kind? threshold = some kind),
        r.kind? threshold = some kind := by
  constructor
  · rw [Directory.distinct_eq_firsts]
    exact (Directory.firsts_nodup rs).filter _
  · intro r member
    simpa using (List.mem_filter.mp member).2

/-- All that can be picked, in the order in which it is picked. -/
def all (p : Partition) : List Recipient :=
  p.groups ++ p.channels ++ p.users

theorem pick_sublist (p : Partition) (request : Request) : List.Sublist (p.pick request) p.all := by
  have leave (skip : Bool) (rs : List Recipient) : List.Sublist (if skip then [] else rs) rs := by
    cases skip
    · exact List.Sublist.refl rs
    · exact List.nil_sublist rs
  have picked := ((leave request.skipGroups p.groups).append
    (leave request.skipChannels p.channels)).append
    (leave request.skipUsers p.users)
  unfold pick
  dsimp only
  split
  · exact (List.take_sublist _ _).trans picked
  · exact picked

/-- The kinds of a list are told apart, and none of them has a member twice. -/
theorem all_ofList (threshold : Int64) (rs : List Recipient) :
    (ofList threshold rs).all.Nodup ∧
      ∀ r ∈ (ofList threshold rs).all, r.kind? threshold ≠ none := by
  obtain ⟨groups, group⟩ := filter_kind threshold rs .group
  obtain ⟨channels, channel⟩ := filter_kind threshold rs .channel
  obtain ⟨users, user⟩ := filter_kind threshold rs .user
  constructor
  · refine List.nodup_append.mpr ⟨List.nodup_append.mpr ⟨groups, channels, ?_⟩, users, ?_⟩
    · rintro r isGroup _ isChannel rfl
      cases (group r isGroup).symm.trans (channel r isChannel)
    · rintro r other _ isUser rfl
      rcases List.mem_append.mp other with isGroup | isChannel
      · cases (group r isGroup).symm.trans (user r isUser)
      · cases (channel r isChannel).symm.trans (user r isUser)
  · intro r member
    rcases List.mem_append.mp member with member | isUser
    · rcases List.mem_append.mp member with isGroup | isChannel
      · simp [group r isGroup]
      · simp [channel r isChannel]
    · simp [user r isUser]

end Partition

/-- Only those whom a listing names are targets. -/
theorem Targets.mem_collect {threshold : Int64} {request : Request}
    {chats users : Except Directory.Fault (List Recipient)} {x : Recipient}
    (target : x ∈ (Targets.collect threshold request chats users).list) :
    x ∈ chats.toOption.getD [] ∨ x ∈ users.toOption.getD [] := by
  have picked := (Partition.pick_sublist _ request).subset target
  have named : x ∈ Directory.distinct (chats.toOption.getD [] ++ users.toOption.getD []) := by
    rcases List.mem_append.mp picked with other | user
    · rcases List.mem_append.mp other with group | channel
      · exact List.mem_of_mem_filter group
      · exact List.mem_of_mem_filter channel
    · exact List.mem_of_mem_filter user
  rw [Directory.distinct_eq_firsts, Directory.mem_firsts] at named
  exact List.mem_append.mp named

theorem Targets.nodup_collect (threshold : Int64) (request : Request)
    (chats users : Except Directory.Fault (List Recipient)) :
    (Targets.collect threshold request chats users).list.Nodup :=
  (Partition.all_ofList threshold _).1.sublist (Partition.pick_sublist _ request)

theorem Targets.length_collect (threshold : Int64) (request : Request)
    (chats users : Except Directory.Fault (List Recipient)) :
    (Targets.collect threshold request chats users).list.length < 2 ^ 64 := by
  apply length_lt_of_nodup (Targets.nodup_collect threshold request chats users)
  intro r member zero
  have picked := (Partition.pick_sublist _ request).subset member
  apply (Partition.all_ofList threshold _).2 r picked
  rw [Recipient.kind?, if_pos zero]

/-- The directory of some users and no chats. -/
def Directory.ofUsers (users : List Recipient) (nodup : users.Nodup) : Directory where
  users
  chats := []
  users_nodup := nodup
  chats_nodup := .nil

/-- Some users and nobody else as targets. -/
def Targets.ofUsers (users : List Recipient) : Targets :=
  ⟨⟨UInt64.ofNat users.length, 0, 0⟩, users⟩

theorem Targets.collect_of_users {threshold : Int64} {chats users : List Recipient}
    (nodup : (chats ++ users).Nodup)
    (kinds : ∀ x ∈ chats ++ users, x.kind? threshold = some .user)
    (source : SourceMessage) (delay : Option Duration) :
    Targets.collect threshold { source, delay } (.ok chats) (.ok users) =
      .ofUsers (chats ++ users) := by
  have partition : Partition.ofList threshold (chats ++ users) = ⟨chats ++ users, [], []⟩ := by
    unfold Partition.ofList
    rw [Directory.distinct_eq_firsts, Directory.firsts_of_nodup nodup]
    congr 1
    · exact List.filter_eq_self.mpr fun x member => by simp [kinds x member]
    · exact List.filter_eq_nil_iff.mpr fun x member => by simp [kinds x member]
    · exact List.filter_eq_nil_iff.mpr fun x member => by simp [kinds x member]
  unfold Targets.collect
  simp only [Except.toOption, Option.getD_some, partition]
  rfl

theorem Targets.collect_ofUsers {threshold : Int64} {users : List Recipient}
    (nodup : users.Nodup) (kinds : ∀ x ∈ users, x.kind? threshold = some .user)
    (source : SourceMessage) (delay : Option Duration) :
    Targets.collect threshold { source, delay } (.ok []) (.ok users) = .ofUsers users :=
  collect_of_users (by simpa using nodup) (by simpa using kinds) source delay

end Broadcast
