import Broadcast.Directory
import Broadcast.Proofs.Loading
import Broadcast.Proofs.Resolution

/-!
# Directories of the wanted sizes

The recipients that are made up for a directory have the kinds that they are made up for, as long as
the numbers of the groups stay below those of the channels; groups that reach these are channels.
The numbers of the channels are held at the end of the range, so where it is near only a few of them
differ.
-/

namespace Broadcast

theorem Recipient.IsOf.unique {threshold : Int64} {kind other : Recipient.Kind} {r : Recipient}
    (isOf : r.IsOf threshold kind) (isOther : r.IsOf threshold other) : other = kind := by
  rw [← kind?_eq_some_iff] at isOf isOther
  exact Option.some.inj (isOther.symm.trans isOf)

namespace Directory

/-! ## Numbers from one on -/

theorem toInt_ofNat_succ {count : Int64} {n : Nat} (inside : n < count.toInt.toNat) :
    (Int64.ofNat (n + 1)).toInt = n + 1 := by
  have := count.toInt_lt
  exact Int64.toInt_ofNat_of_lt (by omega)

theorem mem_upTo {α : Type} {count : Int64} {item : Int64 → α} {a : α} :
    a ∈ upTo count item ↔ ∃ i : Int64, 0 < i.toInt ∧ i.toInt ≤ count.toInt ∧ item i = a := by
  simp only [upTo, List.mem_map, List.mem_range]
  constructor
  · rintro ⟨n, inside, rfl⟩
    have number := toInt_ofNat_succ inside
    exact ⟨Int64.ofNat (n + 1), by omega, by omega, rfl⟩
  · rintro ⟨i, positive, small, rfl⟩
    have inside : i.toInt.toNat - 1 < count.toInt.toNat := by omega
    have number := toInt_ofNat_succ inside
    have same : (Int64.ofNat (i.toInt.toNat - 1 + 1)).toInt = i.toInt := by omega
    exact ⟨i.toInt.toNat - 1, inside, by rw [Int64.toInt_inj.mp same]⟩

@[simp]
theorem length_upTo {α : Type} (count : Int64) (item : Int64 → α) :
    (upTo count item).length = count.toInt.toNat := by
  rw [upTo, List.length_map, List.length_range]

theorem nodup_upTo {count : Int64} {item : Int64 → Recipient}
    (distinct : ∀ i j : Int64, 0 < i.toInt → i.toInt ≤ count.toInt → 0 < j.toInt →
      j.toInt ≤ count.toInt → (item i).id.toInt = (item j).id.toInt → i.toInt = j.toInt) :
    (upTo count item).Nodup := by
  refine List.nodup_range.map_on fun m inside n inside' same => ?_
  rw [List.mem_range] at inside inside'
  have number := toInt_ofNat_succ inside
  have number' := toInt_ofNat_succ inside'
  have := distinct _ _ (by omega) (by omega) (by omega) (by omega)
    (congrArg (fun r => r.id.toInt) same)
  omega

/-! ## Numbers of recipients -/

variable {threshold i : Int64}

theorem toInt_user (positive : 0 < i.toInt) (fits : 100000 + i.toInt < 2 ^ 63) :
    (user i).id.toInt = 100000 + i.toInt := by
  have base : (100000 : Int64).toInt = 100000 := rfl
  rw [user, Int64.toInt_add, base]
  exact Int.bmod_eq_of_le (by omega) (by omega)

theorem toInt_group (positive : 0 < i.toInt) (fits : 4000 + i.toInt < 2 ^ 63) :
    (group i).id.toInt = -(4000 + i.toInt) := by
  have base : (4000 : Int64).toInt = 4000 := rfl
  have sum : (4000 + i).toInt = 4000 + i.toInt := by
    rw [Int64.toInt_add, base]
    exact Int.bmod_eq_of_le (by omega) (by omega)
  rw [group, Int64.toInt_neg, sum]
  exact Int.bmod_eq_of_le (by omega) (by omega)

theorem toInt_channel (begins : 0 < threshold.toInt) (positive : 0 < i.toInt) :
    (channel threshold i).id.toInt = -min (2 ^ 63 - 1) (threshold.toInt + i.toInt) := by
  have sum : (Word.saturatingAdd threshold i).toInt =
      min (2 ^ 63 - 1) (threshold.toInt + i.toInt) := by
    rw [Word.saturatingAdd, Int64.toInt_ofInt_of_le (by omega) (by omega)]
    omega
  rw [channel, Int64.toInt_neg, sum]
  exact Int.bmod_eq_of_le (by omega) (by omega)

/-! ## Kinds -/

/-- None of the wanted counts is negative, and no number leaves its range. -/
structure Sizes.Fits (sizes : Sizes) : Prop where
  users_nonneg : 0 ≤ sizes.users.toInt
  groups_nonneg : 0 ≤ sizes.groups.toInt
  channels_nonneg : 0 ≤ sizes.channels.toInt
  users_lt : 100000 + sizes.users.toInt < 2 ^ 63
  groups_lt : 4000 + sizes.groups.toInt < 2 ^ 63

variable {sizes : Sizes}

/-- The recipients that are made up for a kind. -/
def madeFor (sizes : Sizes) (threshold : Int64) : Recipient.Kind → List Recipient
  | .user => upTo sizes.users user
  | .group => upTo sizes.groups group
  | .channel => upTo sizes.channels (channel threshold)

theorem mem_generated {r : Recipient} :
    r ∈ (generated sizes threshold).chats ++ (generated sizes threshold).users ↔
      ∃ kind, r ∈ madeFor sizes threshold kind := by
  simp only [generated, ofLists, distinct_eq_firsts, List.mem_append, mem_firsts]
  constructor
  · rintro ((group | channel) | user)
    · exact ⟨.group, group⟩
    · exact ⟨.channel, channel⟩
    · exact ⟨.user, user⟩
  · rintro ⟨_ | _ | _, member⟩
    · exact .inr member
    · exact .inl (.inl member)
    · exact .inl (.inr member)

/-- The groups are small enough in number to stay below the channels. -/
def Sizes.Below (sizes : Sizes) (threshold : Int64) : Prop :=
  sizes.groups.toInt = 0 ∨ 4000 + sizes.groups.toInt < threshold.toInt

/-- Whoever is made up for a kind is of this kind, unless a group lies beyond the threshold. -/
theorem isOf_of_madeFor (fits : sizes.Fits) (begins : 0 < threshold.toInt) {kind : Recipient.Kind}
    {r : Recipient} (member : r ∈ madeFor sizes threshold kind) :
    r.IsOf threshold kind ∨ kind = .group ∧ ¬sizes.Below threshold ∧ r.IsOf threshold .channel := by
  obtain ⟨-, -, -, users, groups⟩ := fits
  have := threshold.toInt_lt
  cases kind with
  | user =>
      obtain ⟨i, positive, small, rfl⟩ := mem_upTo.mp member
      have number := toInt_user positive (by omega)
      left
      simp only [Recipient.IsOf]
      omega
  | group =>
      obtain ⟨i, positive, small, rfl⟩ := mem_upTo.mp member
      have number := toInt_group positive (by omega)
      simp only [Recipient.IsOf, Sizes.Below, true_and]
      omega
  | channel =>
      obtain ⟨i, positive, small, rfl⟩ := mem_upTo.mp member
      have number := toInt_channel begins positive
      left
      simp only [Recipient.IsOf]
      omega

theorem mem_madeFor_iff (fits : sizes.Fits) (begins : 0 < threshold.toInt) {kind : Recipient.Kind}
    (below : kind = .user ∨ sizes.Below threshold) {r : Recipient} :
    r ∈ madeFor sizes threshold kind ↔
      r ∈ (generated sizes threshold).chats ++ (generated sizes threshold).users ∧
        r.IsOf threshold kind := by
  rw [mem_generated]
  constructor
  · intro member
    rcases isOf_of_madeFor fits begins member with isOf | ⟨rfl, beyond, -⟩
    · exact ⟨⟨kind, member⟩, isOf⟩
    · exact absurd below (by simpa using beyond)
  · rintro ⟨⟨other, member⟩, isOf⟩
    rcases isOf_of_madeFor fits begins member with isOther | ⟨rfl, beyond, isChannel⟩
    · exact isOf.unique isOther ▸ member
    · obtain rfl := below.resolve_right beyond
      cases isOf.unique isChannel

theorem nodup_users (fits : sizes.Fits) : (upTo sizes.users user).Nodup := by
  have inside := fits.users_lt
  refine nodup_upTo fun i j positive small positive' small' same => ?_
  rw [toInt_user positive (by omega), toInt_user positive' (by omega)] at same
  omega

/-- The groups are those whose numbers do not reach the channels. -/
theorem exists_groups (fits : sizes.Fits) (begins : 0 < threshold.toInt) :
    ∃ count : Int64,
      count.toInt = min sizes.groups.toInt (max (threshold.toInt - 4001) 0) ∧
      (upTo count group).Nodup ∧
      ∀ r, r ∈ upTo count group ↔
        r ∈ (generated sizes threshold).chats ++ (generated sizes threshold).users ∧
          r.IsOf threshold .group := by
  have inside := fits.groups_lt
  have nonneg := fits.groups_nonneg
  have bound := threshold.toInt_lt
  -- The group `i` has the magnitude `4000 + i`, so these are the groups below the threshold.
  obtain ⟨count, number⟩ : ∃ count : Int64,
      count.toInt = min sizes.groups.toInt (max (threshold.toInt - 4001) 0) :=
    Word.exists_signed64_iff.mpr (by omega)
  refine ⟨count, number, nodup_upTo fun i j positive small positive' small' same => ?_, fun r => ?_⟩
  · rw [toInt_group positive (by omega), toInt_group positive' (by omega)] at same
    omega
  · rw [mem_generated]
    constructor
    · intro member
      obtain ⟨i, positive, small, rfl⟩ := mem_upTo.mp member
      have id := toInt_group positive (by omega)
      refine ⟨⟨.group, mem_upTo.mpr ⟨i, positive, by omega, rfl⟩⟩, ?_⟩
      simp only [Recipient.IsOf]
      omega
    · rintro ⟨⟨other, member⟩, isGroup⟩
      rcases isOf_of_madeFor fits begins member with isOther | ⟨-, -, isChannel⟩
      · obtain rfl := isGroup.unique isOther
        obtain ⟨i, positive, small, rfl⟩ := mem_upTo.mp member
        have id := toInt_group positive (by omega)
        simp only [Recipient.IsOf] at isGroup
        exact mem_upTo.mpr ⟨i, positive, by omega, rfl⟩
      · cases isGroup.unique isChannel

/-- As many channels differ as there are numbers between the threshold and the end of the range,
but at least one. -/
theorem exists_distinct_channels (fits : sizes.Fits) (begins : 0 < threshold.toInt) :
    ∃ count : Int64,
      count.toInt = min sizes.channels.toInt (max (2 ^ 63 - 1 - threshold.toInt) 1) ∧
      (upTo count (channel threshold)).Nodup ∧
      ∀ r, r ∈ upTo count (channel threshold) ↔ r ∈ upTo sizes.channels (channel threshold) := by
  have nonneg := fits.channels_nonneg
  have bound := sizes.channels.toInt_lt
  have small := threshold.toInt_lt
  obtain ⟨count, number⟩ : ∃ count : Int64,
      count.toInt = min sizes.channels.toInt (max (2 ^ 63 - 1 - threshold.toInt) 1) :=
    Word.exists_signed64_iff.mpr (by omega)
  refine ⟨count, number, nodup_upTo fun i j positive inside positive' inside' same => ?_,
    fun r => ⟨fun member => ?_, fun member => ?_⟩⟩
  · rw [toInt_channel begins positive, toInt_channel begins positive'] at same
    omega
  · obtain ⟨i, positive, inside, rfl⟩ := mem_upTo.mp member
    exact mem_upTo.mpr ⟨i, positive, by omega, rfl⟩
  · obtain ⟨i, positive, inside, rfl⟩ := mem_upTo.mp member
    by_cases first : i.toInt ≤ count.toInt
    · exact mem_upTo.mpr ⟨i, positive, first, rfl⟩
    · -- All channels from the last distinct one on have the last number of the range.
      refine mem_upTo.mpr ⟨count, by omega, Int.le_refl _, ?_⟩
      have ids : (channel threshold count).id.toInt = (channel threshold i).id.toInt := by
        rw [toInt_channel begins (by omega), toInt_channel begins positive]
        omega
      exact congrArg Recipient.mk (Int64.toInt_inj.mp ids)

end Directory

theorem Partition.toNat_count_eq_length {threshold : Int64} {kind : Recipient.Kind}
    {chats users rs : List Recipient} (nodup : rs.Nodup)
    (same : ∀ r, r ∈ rs ↔ r ∈ chats ++ users ∧ r.IsOf threshold kind) :
    ((ofList threshold (chats ++ users)).counts.count kind).toNat = rs.length := by
  rw [Broadcast.toNat_count]
  refine List.Perm.length_eq ((List.perm_ext_iff_of_nodup
    ((known_nodup _ _).filter _) nodup).mpr fun r => ?_)
  have nonzero (isOf : r.IsOf threshold kind) : r.id ≠ 0 := by
    rintro zero
    have absent : r.kind? threshold = none := by rw [Recipient.kind?, if_pos zero]
    cases absent.symm.trans (Recipient.kind?_eq_some_iff.mpr isOf)
  simp only [known, List.mem_filter, List.mem_eraseDups, same, decide_eq_true_eq, ne_eq]
  tauto

namespace Directory

/-- How many recipients of a kind a directory has, as a request is told. -/
def count (d : Directory) (threshold : Int64) (kind : Recipient.Kind) : Nat :=
  ((Partition.ofList threshold (d.chats ++ d.users)).counts.count kind).toNat

/-- Unless groups lie beyond the threshold, the recipients that are made up for a kind are counted
by any list that has each of them once and nobody else. -/
theorem count_generated {sizes : Sizes} {threshold : Int64} (fits : sizes.Fits)
    (begins : 0 < threshold.toInt) {kind : Recipient.Kind}
    (below : kind = .user ∨ sizes.Below threshold) {rs : List Recipient} (nodup : rs.Nodup)
    (same : ∀ r, r ∈ rs ↔ r ∈ madeFor sizes threshold kind) :
    (generated sizes threshold).count threshold kind = rs.length :=
  Partition.toNat_count_eq_length nodup fun r =>
    (same r).trans (mem_madeFor_iff fits begins below)

theorem count_generated_user {sizes : Sizes} {threshold : Int64} (fits : sizes.Fits)
    (begins : 0 < threshold.toInt) :
    (generated sizes threshold).count threshold .user = sizes.users.toInt := by
  have nonneg := fits.users_nonneg
  rw [count_generated fits begins (.inl rfl) (nodup_users fits) fun _ => Iff.rfl, length_upTo]
  omega

theorem count_generated_group {sizes : Sizes} {threshold : Int64} (fits : sizes.Fits)
    (begins : 0 < threshold.toInt) :
    (generated sizes threshold).count threshold .group =
      min sizes.groups.toInt (max (threshold.toInt - 4001) 0) := by
  have nonneg := fits.groups_nonneg
  obtain ⟨count, number, nodup, same⟩ := exists_groups fits begins
  have counted : (generated sizes threshold).count threshold .group = _ :=
    Partition.toNat_count_eq_length nodup same
  rw [counted, length_upTo]
  omega

theorem count_generated_channel {sizes : Sizes} {threshold : Int64} (fits : sizes.Fits)
    (begins : 0 < threshold.toInt) (below : sizes.Below threshold) :
    (generated sizes threshold).count threshold .channel =
      min sizes.channels.toInt (max (2 ^ 63 - 1 - threshold.toInt) 1) := by
  have nonneg := fits.channels_nonneg
  obtain ⟨count, number, nodup, same⟩ := exists_distinct_channels fits begins
  have counted : (generated sizes threshold).count threshold .channel = _ :=
    count_generated fits begins (.inr below) nodup same
  rw [counted, length_upTo]
  omega

end Directory

/-- Under every configuration that keeps the rules as many users are made up as are wanted. If the
groups stay below the channels, this holds for the groups too, and for the channels up to where
their numbers would leave the range: those beyond have the last number of it. -/
theorem wanted_kinds_are_generated (c : Config) (kept : c.brokenRule? = none)
    (sizes : Directory.Sizes) (fits : sizes.Fits) :
    let threshold := c.broadcast.channelThreshold
    let made := Directory.generated sizes threshold
    made.count threshold .user = sizes.users.toInt ∧
    (sizes.groups.toInt = 0 ∨ 4000 + sizes.groups.toInt < threshold.toInt →
      made.count threshold .group = sizes.groups.toInt ∧
      made.count threshold .channel =
        min sizes.channels.toInt (max (2 ^ 63 - 1 - threshold.toInt) 1)) := by
  have begins : 0 < c.broadcast.channelThreshold.toInt :=
    Config.brokenRule?_eq_none_iff.mp kept .threshold
  refine ⟨Directory.count_generated_user fits begins, fun below =>
    ⟨?_, Directory.count_generated_channel fits begins below⟩⟩
  have nonneg := fits.groups_nonneg
  rw [Directory.count_generated_group fits begins]
  omega

/-- Of four channels that begin three numbers before the end of the range, two differ. -/
theorem wanted_kinds_are_generated_near_end :
    Config.brokenRule? { broadcast := { channelThreshold := 9223372036854775805 } } = none ∧
    Directory.Sizes.Fits ⟨3, 2, 4⟩ ∧
    (Directory.generated ⟨3, 2, 4⟩ 9223372036854775805).count 9223372036854775805 .user =
      (3 : Int) ∧
    (Directory.generated ⟨3, 2, 4⟩ 9223372036854775805).count 9223372036854775805 .group =
      (2 : Int) ∧
    (Directory.generated ⟨3, 2, 4⟩ 9223372036854775805).count 9223372036854775805 .channel =
      (2 : Int) := by
  have kept : Config.brokenRule?
      { broadcast := { channelThreshold := 9223372036854775805 } } = none := by decide
  have fits : Directory.Sizes.Fits ⟨3, 2, 4⟩ := by constructor <;> decide
  obtain ⟨users, rest⟩ := wanted_kinds_are_generated _ kept _ fits
  obtain ⟨groups, channels⟩ := rest (.inr (by decide))
  exact ⟨kept, fits, users, groups, channels⟩

/-- Two configurations keep all rules, and yet fewer recipients of a kind are made up than are
wanted: where channels begin at the last number of the range, two of them are one, and where they
begin at 4000, all groups are channels. -/
theorem kinds_run_together :
    (Config.brokenRule? { broadcast := { channelThreshold := 9223372036854775807 } } = none ∧
      Directory.Sizes.Fits ⟨2, 2, 2⟩ ∧
      (Directory.generated ⟨2, 2, 2⟩ 9223372036854775807).count 9223372036854775807 .channel =
        1) ∧
    Config.brokenRule? { broadcast := { channelThreshold := 4000 } } = none ∧
      Directory.Sizes.Fits ⟨2, 3, 3⟩ ∧
      (Directory.generated ⟨2, 3, 3⟩ 4000).count 4000 .group = 0 := by
  have fits : Directory.Sizes.Fits ⟨2, 2, 2⟩ := by constructor <;> decide
  have fits' : Directory.Sizes.Fits ⟨2, 3, 3⟩ := by constructor <;> decide
  refine ⟨⟨by decide, fits, ?_⟩, by decide, fits', ?_⟩
  · have begins : 0 < (9223372036854775807 : Int64).toInt := by decide
    exact Int.ofNat_inj.mp (Directory.count_generated_channel fits begins (.inr (by decide)))
  · have begins : 0 < (4000 : Int64).toInt := by decide
    exact Int.ofNat_inj.mp (Directory.count_generated_group fits' begins)

end Broadcast
