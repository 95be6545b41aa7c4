import Broadcast.Proofs.Targets

/-!
# Who the targets of a request are

The recipients of two listings, chats first, are taken in the order in which they come first. The
signs and magnitudes of their numbers divide them into groups, channels and users. A request takes
from these what it does not skip, in this order, and cuts off what is beyond its limit; the counts
do not depend on what it takes.
-/

namespace Broadcast

namespace Directory

theorem firsts_filter (p : Recipient → Bool) (rs : List Recipient) :
    firsts (rs.filter p) = (firsts rs).filter p := by
  induction rs with
  | nil => rfl
  | cons a rs ih =>
      rw [List.filter_cons, firsts, List.filter_cons, List.filter_filter]
      by_cases kept : p a = true
      · rw [if_pos kept, if_pos kept, firsts, ih, List.filter_filter]
        exact congrArg _ (List.filter_congr fun r _ => Bool.and_comm _ _)
      · rw [if_neg kept, if_neg kept, ih]
        refine List.filter_congr fun r _ => ?_
        by_cases same : r = a <;> simp_all

theorem firsts_eq_eraseDups : ∀ rs : List Recipient, firsts rs = rs.eraseDups
  | [] => by simp [firsts]
  | a :: rs => by
      have others : (firsts rs).filter (· ≠ a) = firsts (rs.filter fun r => !r == a) := by
        rw [firsts_filter]
        exact List.filter_congr fun r _ => by by_cases same : r = a <;> simp [same]
      rw [List.eraseDups_cons, firsts, others, firsts_eq_eraseDups (rs.filter fun r => !r == a)]
termination_by rs => rs.length
decreasing_by
  exact Nat.lt_succ_of_le (List.length_filter_le _ _)

end Directory

/-- The recipient is of a kind, by the sign of its number and by its distance from zero. -/
def Recipient.IsOf (threshold : Int64) (kind : Recipient.Kind) (r : Recipient) : Prop :=
  match kind with
  | .user => 0 < r.id.toInt
  | .group => r.id.toInt < 0 ∧ -threshold.toInt.natAbs < r.id.toInt
  | .channel => r.id.toInt < 0 ∧ r.id.toInt ≤ -threshold.toInt.natAbs

instance (threshold : Int64) (kind : Recipient.Kind) :
    DecidablePred (Recipient.IsOf threshold kind) := fun r =>
  match kind with
  | .user => inferInstanceAs (Decidable (0 < r.id.toInt))
  | .group =>
    inferInstanceAs (Decidable (r.id.toInt < 0 ∧ -threshold.toInt.natAbs < r.id.toInt))
  | .channel =>
    inferInstanceAs (Decidable (r.id.toInt < 0 ∧ r.id.toInt ≤ -threshold.toInt.natAbs))

/-- Sign and magnitude tell the kind. -/
theorem Recipient.kind?_eq_some_iff {threshold : Int64} {kind : Recipient.Kind} {r : Recipient} :
    r.kind? threshold = some kind ↔ r.IsOf threshold kind := by
  have zero : r.id = 0 ↔ r.id.toInt = 0 := by
    rw [← Int64.toInt_inj, Int64.toInt_zero]
  unfold kind? isUser
  simp only [zero, decide_eq_true_eq]
  split_ifs with absent user far <;> cases kind <;>
    simp only [IsOf, reduceCtorEq, Option.some.injEq, true_iff, false_iff] <;> omega

/-- How many recipients of a kind there are. -/
def KindCounts.count (counts : KindCounts) : Recipient.Kind → UInt64
  | .user => counts.users
  | .group => counts.groups
  | .channel => counts.channels

/-- The recipients that two listings name, each once and in the order in which they come first. -/
def known (chats users : List Recipient) : List Recipient :=
  (chats ++ users).eraseDups.filter (·.id ≠ 0)

/-- The targets of a request are the right ones of all known recipients. -/
structure Resolves (threshold : Int64) (request : Request) (known : List Recipient)
    (targets : Targets) : Prop where
  /-- The request takes groups, channels and users, unless it skips them, up to its limit. -/
  list : targets.list = request.limit.elim id (fun limit => List.take limit.count.toNat)
    ((if request.skipGroups then [] else known.filter (Recipient.IsOf threshold .group ·)) ++
      (if request.skipChannels then [] else known.filter (Recipient.IsOf threshold .channel ·)) ++
      (if request.skipUsers then [] else known.filter (Recipient.IsOf threshold .user ·)))
  /-- All known recipients of each kind are counted, taken or not. -/
  counts : ∀ kind, (targets.counts.count kind).toNat =
    (known.filter (Recipient.IsOf threshold kind ·)).length
  /-- Nobody is a target twice. -/
  nodup : targets.list.Nodup
  /-- Zero is no recipient. -/
  nonzero : ∀ r ∈ targets.list, r.id ≠ 0
  /-- A request without exclusions and limit takes all. -/
  complete : request.skipGroups = false → request.skipChannels = false →
    request.skipUsers = false → request.limit = none → targets.list.Perm known

private theorem filter_kind?_eq (threshold : Int64) (kind : Recipient.Kind)
    (chats users : List Recipient) :
    (Directory.distinct (chats ++ users)).filter (·.kind? threshold = some kind) =
      (known chats users).filter (Recipient.IsOf threshold kind ·) := by
  rw [known, List.filter_filter, Directory.distinct_eq_firsts, Directory.firsts_eq_eraseDups]
  refine List.filter_congr fun r _ => ?_
  rw [Bool.eq_iff_iff]
  simp only [decide_eq_true_eq, Bool.and_eq_true, Recipient.kind?_eq_some_iff]
  refine ⟨fun isOf => ⟨isOf, fun zero => ?_⟩, And.left⟩
  have none : r.kind? threshold = none := by rw [Recipient.kind?, if_pos zero]
  cases none.symm.trans (Recipient.kind?_eq_some_iff.mpr isOf)

theorem known_nodup (chats users : List Recipient) : (known chats users).Nodup := by
  rw [known, ← Directory.firsts_eq_eraseDups]
  exact (Directory.firsts_nodup _).filter _

/-- The known recipients of each kind are counted, and there are few enough to be counted. -/
theorem toNat_count (threshold : Int64) (kind : Recipient.Kind)
    (chats users : List Recipient) :
    ((Partition.ofList threshold (chats ++ users)).counts.count kind).toNat =
      ((known chats users).filter (Recipient.IsOf threshold kind ·)).length := by
  have counted : (Partition.ofList threshold (chats ++ users)).counts.count kind =
      UInt64.ofNat ((known chats users).filter (Recipient.IsOf threshold kind ·)).length := by
    rw [← filter_kind?_eq]
    cases kind <;> rfl
  rw [counted, UInt64.toNat_ofNat_of_lt']
  refine length_lt_of_nodup ((known_nodup chats users).filter _) fun r member => ?_
  simpa using (List.mem_filter.mp (List.mem_filter.mp member).1).2

private theorem all_perm_known (threshold : Int64) (chats users : List Recipient) :
    (Partition.ofList threshold (chats ++ users)).all.Perm (known chats users) := by
  refine (List.perm_ext_iff_of_nodup (Partition.all_ofList _ _).1 (known_nodup _ _)).mpr fun r => ?_
  simp only [Partition.all, Partition.ofList, filter_kind?_eq, List.mem_append, List.mem_filter,
    decide_eq_true_eq, ← and_or_left, and_iff_left_iff_imp]
  intro member
  have nonzero : r.id.toInt ≠ 0 := by
    have := (List.mem_filter.mp member).2
    simpa [← Int64.toInt_inj] using this
  simp only [Recipient.IsOf]
  omega

/-- The targets that two listings give are those of all known recipients that the request takes;
a listing that failed names nobody. -/
theorem targets_are_resolved (threshold : Int64) (request : Request)
    (chats users : Except Directory.Fault (List Recipient)) :
    Resolves threshold request (known (chats.toOption.getD []) (users.toOption.getD []))
      (Targets.collect threshold request chats users) where
  list := by
    simp only [Targets.collect, Partition.pick, Partition.ofList, filter_kind?_eq]
    cases request.limit <;> rfl
  counts kind := toNat_count threshold kind _ _
  nodup := Targets.nodup_collect threshold request chats users
  nonzero r member zero := by
    have kind := (Partition.all_ofList threshold _).2 r
      ((Partition.pick_sublist _ request).subset member)
    exact kind (by rw [Recipient.kind?, if_pos zero])
  complete groups channels users' limit := by
    have whole (p : Partition) : p.pick request = p.all := by
      simp [Partition.pick, Partition.all, groups, channels, users', limit]
    simp only [Targets.collect, whole]
    exact all_perm_known _ _ _

end Broadcast
