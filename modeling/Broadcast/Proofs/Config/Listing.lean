import Broadcast.Config
import Broadcast.Proofs.Settings

/-!
# What a value lists for a configuration

A value that is read as a configuration lists its numbers and its seed file in two sections, and
nothing where the configuration has the default. A table of two tables in which no name occurs
twice is read as exactly the configuration that it lists, unless the reader demands all fields.
-/

namespace Broadcast

namespace Config

/-- The sections of a configuration in documents, in their order. -/
def sections : List String := ["broadcast", "directory"]

/-- A value is read as a configuration exactly if its sections are read as the settings and as the
seed file, a section that is not there giving the default. -/
theorem read?_eq_some_iff {demand : Data.Demand} {d : Data} {c : Config} :
    read? demand d = some c ↔
      ∃ broadcast directory, d.record? demand sections = some [broadcast, directory] ∧
        broadcast.elim (some {}) (Settings.read? demand) = some c.broadcast ∧
        directory.elim (some none) (read?.seedFileOf? demand) = some c.seedFile := by
  constructor
  · intro read
    obtain ⟨columns, listed, rest⟩ := Option.bind_eq_some_iff.mp read
    split at rest
    next broadcast directory =>
      simp only [Option.bind_eq_bind, Option.bind_eq_some_iff, Option.some.injEq] at rest
      obtain ⟨settings, first, file, second, rfl⟩ := rest
      exact ⟨broadcast, directory, listed, first, second⟩
    next => cases rest
  · rintro ⟨broadcast, directory, listed, first, second⟩
    unfold sections at listed
    simp only [read?, listed, Option.bind_eq_bind, Option.bind_some, first, second]

theorem seedFileOf?_eq_some_iff {demand : Data.Demand} {d : Data} {file? : Option String} :
    read?.seedFileOf? demand d = some file? ↔
      ∃ column, d.record? demand ["seed_file"] = some [column] ∧
        column.getD .null = file?.elim .null .text := by
  have text (column : Option Data) :
      column.elim (some none) (Data.optional? Data.text?) = some file? ↔
        column.getD .null = file?.elim .null .text := by
    cases column with
    | none => cases file? <;> simp
    | some d => cases d <;> cases file? <;> simp [Data.optional?, Data.text?]
  constructor
  · intro read
    obtain ⟨columns, listed, rest⟩ := Option.bind_eq_some_iff.mp read
    split at rest
    next column => exact ⟨column, listed, (text column).mp rest⟩
    next => cases rest
  · rintro ⟨column, listed, same⟩
    simp only [read?.seedFileOf?, listed, Option.bind_eq_bind, Option.bind_some, text, same]

/-- A configuration holds what a value lists for it, and the default of everything else. -/
structure IsListed (d : Data) (c : Config) : Prop where
  settings : ∀ k : Setting,
    ((d.part? sections "broadcast").bind (Data.part? Settings.names k.key)).getD
      (.int (({} : Settings).value k)) = .int (c.broadcast.value k)
  seedFile :
    ((d.part? sections "directory").bind (Data.part? ["seed_file"] "seed_file")).getD .null =
      c.seedFile.elim .null .text

theorem isListed_of_read? {demand : Data.Demand} {d : Data} {c : Config}
    (read : read? demand d = some c) : IsListed d c := by
  obtain ⟨broadcast, directory, listed, settings, file⟩ := read?_eq_some_iff.mp read
  obtain ⟨rfl, rfl⟩ :
      broadcast = d.part? sections "broadcast" ∧ directory = d.part? sections "directory" := by
    simpa [sections] using Data.record?_eq_some (by decide) listed
  constructor
  · intro k
    cases section? : d.part? sections "broadcast" with
    | none =>
        rw [section?, Option.elim_none, Option.some.injEq] at settings
        rw [Option.bind_none, Option.getD_none, settings]
    | some b =>
        rw [section?, Option.elim_some] at settings
        exact Settings.value_of_read? settings k
  · cases section? : d.part? sections "directory" with
    | none =>
        rw [section?, Option.elim_none, Option.some.injEq] at file
        rw [Option.bind_none, Option.getD_none, ← file, Option.elim_none]
    | some b =>
        rw [section?, Option.elim_some] at file
        obtain ⟨column, only, same⟩ := seedFileOf?_eq_some_iff.mp file
        obtain rfl : column = b.part? ["seed_file"] "seed_file" := by
          simpa using Data.record?_eq_some (by decide) only
        exact same

/-- A table of tables without repeated names is read as the configuration that it lists. -/
theorem read?_table_eq_some_iff {demand : Data.Demand} (partly : demand ≠ .complete)
    {fields : List (String × Data)} (distinct : (fields.map Prod.fst).Nodup)
    (tables : ∀ field ∈ fields, ∃ inner, field.2 = .table inner ∧ (inner.map Prod.fst).Nodup)
    {c : Config} : read? demand (.table fields) = some c ↔ IsListed (.table fields) c := by
  have inner {name : String} {d : Data} (part : (Data.table fields).part? sections name = some d) :
      ∃ inner, d = .table inner ∧ (inner.map Prod.fst).Nodup := by
    obtain ⟨field, found, rfl⟩ := Option.map_eq_some_iff.mp part
    exact tables field (List.mem_of_find?_eq_some found)
  have parts : (Data.table fields).record? demand sections =
      some [(Data.table fields).part? sections "broadcast",
        (Data.table fields).part? sections "directory"] :=
    Data.record?_table partly sections distinct
  refine ⟨isListed_of_read?, fun ⟨settings, file⟩ => read?_eq_some_iff.mpr
    ⟨_, _, parts, ?_, ?_⟩⟩
  · cases section? : (Data.table fields).part? sections "broadcast" with
    | none =>
        simp only [section?, Option.bind_none, Option.getD_none, Data.int.injEq] at settings
        rw [Option.elim_none, Settings.ext_value settings]
    | some b =>
        obtain ⟨inner, rfl, distinct⟩ := inner section?
        simp only [section?, Option.bind_some] at settings
        exact (Settings.read?_eq_some_iff (Data.record?_table partly _ distinct)).mpr settings
  · cases section? : (Data.table fields).part? sections "directory" with
    | none =>
        rw [section?, Option.bind_none, Option.getD_none] at file
        cases seed : c.seedFile with
        | none => rfl
        | some path =>
            rw [seed] at file
            cases file
    | some b =>
        obtain ⟨inner, rfl, distinct⟩ := inner section?
        rw [section?, Option.bind_some] at file
        exact seedFileOf?_eq_some_iff.mpr ⟨_, Data.record?_table partly _ distinct, file⟩

end Config

end Broadcast
