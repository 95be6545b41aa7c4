import Broadcast.Directory.Change
import Broadcast.Proofs.Documents

/-!
# Seeds are read back

A seed document lists the recipients of a directory in their order, and is read as this very
directory. So whatever a directory went through, a request has the same targets in the one that is
read from its seed.
-/

namespace Broadcast

namespace Directory

theorem ofLists_listings (d : Directory) : ofLists d.users d.chats = d := by
  have users : distinct d.users = d.users := by
    rw [distinct_eq_firsts, firsts_of_nodup d.users_nodup]
  have chats : distinct d.chats = d.chats := by
    rw [distinct_eq_firsts, firsts_of_nodup d.chats_nodup]
  cases d
  simp only [ofLists, users, chats]

theorem listOf?_map_toData (rs : List Recipient) :
    (Data.list (rs.map Recipient.toData)).listOf? Recipient.ofData? = some rs := by
  have each : ∀ r ∈ rs, (Recipient.ofData? ∘ Recipient.toData) r = some (id r) :=
    fun r _ => r.ofData?_toData
  rw [Data.listOf?, List.mapM_map, Data.mapM_eq_some each, List.map_id]

theorem record?_toSeedData (d : Directory) :
    d.toSeedData.record? .partly ["users", "chats"] =
      some [some (.list (d.users.map Recipient.toData)),
        some (.list (d.chats.map Recipient.toData))] := by
  have distinct : ["chats", "users"].Nodup := by decide
  exact Data.record?_table (by decide) ["users", "chats"] distinct

theorem ofSeedData?_toSeedData (d : Directory) : ofSeedData? d.toSeedData = some d := by
  simp only [ofSeedData?, record?_toSeedData, Option.bind_eq_bind, Option.bind_some,
    Option.elim_some, listOf?_map_toData, ofLists_listings]

theorem isPlain_toSeedData (d : Directory) : d.toSeedData.IsPlain := by
  have listing (rs : List Recipient) : (Data.list (rs.map Recipient.toData)).IsPlain := by
    refine .list fun item member => ?_
    obtain ⟨r, -, rfl⟩ := List.mem_map.mp member
    exact .int r.id.toInt
  exact .table (List.forall_mem_cons.mpr
    ⟨listing d.chats, List.forall_mem_singleton.mpr (listing d.users)⟩)

/-- The seed of a directory is read as this directory. -/
theorem ofSeed?_toSeed (d : Directory) : ofSeed? d.toSeed = some d := by
  rw [ofSeed?, toSeed, Json.parse?_renderIndented d.isPlain_toSeedData, Option.bind_some,
    ofSeedData?_toSeedData]

end Directory

/-- Whatever changes a directory went through from its beginning, its listings name nobody twice,
and its seed is read as a directory with the same recipients in the same order; so every request has
the same targets in both, wherever channels begin. -/
theorem seeds_are_read_back (changes : List Directory.Change) :
    (Directory.empty.afterAll changes).users.Nodup ∧
    (Directory.empty.afterAll changes).chats.Nodup ∧
    ∃ reloaded, Directory.ofSeed? (Directory.empty.afterAll changes).toSeed = some reloaded ∧
      reloaded.users = (Directory.empty.afterAll changes).users ∧
      reloaded.chats = (Directory.empty.afterAll changes).chats ∧
      ∀ threshold request, reloaded.targets threshold request =
        (Directory.empty.afterAll changes).targets threshold request := by
  generalize Directory.empty.afterAll changes = d
  exact ⟨d.users_nodup, d.chats_nodup, d, d.ofSeed?_toSeed, rfl, rfl, fun _ _ => rfl⟩

end Broadcast
