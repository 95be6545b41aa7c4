import Broadcast.Config.Loading
import Broadcast.Proofs.Config.Listing
import Broadcast.Proofs.Toml.Documents

/-!
# Documents that write some settings

A document may write any of the settings, each once and in any order, with any number that the
setting can be and that has a word of 64 bits. It is read as the default configuration with exactly
these settings replaced. With any other number for one of them it is not read at all.
-/

namespace Broadcast

namespace Config

/-- A section of a document that writes settings. -/
inductive Part
  | broadcast (entries : List (Setting × Int))
  | directory (seedFile : Option String)

/-- The section as it is written. -/
def Part.toSection : Part → Toml.Section
  | broadcast entries => ⟨"broadcast", entries.map fun entry => (entry.1.key, .int entry.2)⟩
  | directory file => ⟨"directory", file.toList.map fun file => ("seed_file", .text file)⟩

/-- The document that writes the settings of some sections. -/
def document (parts : List Part) : String :=
  Toml.document (parts.map Part.toSection)

/-- The sections write a number for a setting. -/
def Writes (parts : List Part) (k : Setting) (z : Int) : Prop :=
  ∃ entries, .broadcast entries ∈ parts ∧ (k, z) ∈ entries

/-- The sections write a seed file. -/
def WritesFile (parts : List Part) (file? : Option String) : Prop :=
  ∃ file, file? = some file ∧ .directory (some file) ∈ parts

/-- No section and no setting is written twice. -/
structure WritesOnce (parts : List Part) : Prop where
  sections : (parts.map fun part => part.toSection.name).Nodup
  settings : ∀ entries, .broadcast entries ∈ parts → (entries.map Prod.fst).Nodup

/-- A configuration is the default one but for what the sections write. -/
structure IsReplaced (parts : List Part) (c : Config) : Prop where
  settings : ∀ k : Setting,
    IsGivenOr (Writes parts k) (({} : Settings).value k) (c.broadcast.value k)
  seedFile : IsGivenOr (WritesFile parts) none c.seedFile

/-! ## The tables that are written -/

theorem isBare_toSection (part : Part) : part.toSection.IsBare := by
  have key (k : Setting) : Toml.IsBareName k.key := by
    cases k <;> decide
  cases part with
  | broadcast entries =>
      refine ⟨(by decide : Toml.IsBareName "broadcast"), fun entry member => ?_⟩
      obtain ⟨_, -, rfl⟩ := List.mem_map.mp member
      exact key _
  | directory file =>
      refine ⟨(by decide : Toml.IsBareName "directory"), fun entry member => ?_⟩
      obtain ⟨_, -, rfl⟩ := List.mem_map.mp member
      exact (by decide : Toml.IsBareName "seed_file")

theorem isBare_of_mem {parts : List Part} :
    ∀ written ∈ parts.map Part.toSection, written.IsBare := by
  intro _ member
  obtain ⟨part, -, rfl⟩ := List.mem_map.mp member
  exact isBare_toSection part

/-- The fields of the table that sections write. -/
def fields (parts : List Part) : List (String × Data) :=
  parts.map fun part => (part.toSection.name, .table part.toSection.fields)

theorem Part.fields_broadcast (entries : List (Setting × Int)) :
    (broadcast entries).toSection.fields =
      entries.map fun entry => (entry.1.key, .int entry.2) :=
  List.map_map

theorem Part.fields_directory (file : Option String) :
    (directory file).toSection.fields =
      file.toList.map fun file => ("seed_file", .text file) :=
  List.map_map

theorem broadcast_mem_fields_iff {parts : List Part} {d : Data} :
    ("broadcast", d) ∈ fields parts ↔
      ∃ entries, .broadcast entries ∈ parts ∧
        d = .table (entries.map fun entry => (entry.1.key, .int entry.2)) := by
  constructor
  · intro member
    obtain ⟨part, there, same⟩ := List.mem_map.mp member
    obtain ⟨name, rfl⟩ := Prod.mk.inj same
    cases part with
    | broadcast entries => exact ⟨entries, there, congrArg _ (Part.fields_broadcast entries)⟩
    | directory file => exact absurd name (by decide : "directory" ≠ "broadcast")
  · rintro ⟨entries, there, rfl⟩
    exact List.mem_map.mpr ⟨_, there, by rw [Part.fields_broadcast]; rfl⟩

theorem directory_mem_fields_iff {parts : List Part} {d : Data} :
    ("directory", d) ∈ fields parts ↔
      ∃ file, .directory file ∈ parts ∧
        d = .table (file.toList.map fun file => ("seed_file", .text file)) := by
  constructor
  · intro member
    obtain ⟨part, there, same⟩ := List.mem_map.mp member
    obtain ⟨name, rfl⟩ := Prod.mk.inj same
    cases part with
    | broadcast entries => exact absurd name (by decide : "broadcast" ≠ "directory")
    | directory file => exact ⟨file, there, congrArg _ (Part.fields_directory file)⟩
  · rintro ⟨file, there, rfl⟩
    exact List.mem_map.mpr ⟨_, there, by rw [Part.fields_directory]; rfl⟩

/-! ## What is found for a setting -/

section Finding

variable {α : Type} {data : α → Data} {given : α → Prop} {found : Option Data}

theorem getD_eq_iff_isGivenOr (distinct : Function.Injective data)
    (finds : ∀ d, found = some d ↔ ∃ a, given a ∧ d = data a) (standard value : α) :
    found.getD (data standard) = data value ↔ IsGivenOr given standard value := by
  cases found with
  | none =>
      have nothing (a : α) : ¬given a := fun gives =>
        nomatch (finds (data a)).mpr ⟨a, gives, rfl⟩
      rw [Option.getD_none, distinct.eq_iff]
      exact ⟨fun same => ⟨fun a gives => absurd gives (nothing a), fun _ => same.symm⟩,
        fun isGiven => (isGiven.2 nothing).symm⟩
  | some d =>
      obtain ⟨a, gives, rfl⟩ := (finds d).mp rfl
      rw [Option.getD_some, distinct.eq_iff]
      constructor
      · rintro rfl
        refine ⟨fun b gives' => ?_, fun nothing => absurd gives (nothing _)⟩
        exact distinct (Option.some.inj ((finds _).mpr ⟨b, gives', rfl⟩))
      · exact fun isGiven => (isGiven.1 a gives).symm

theorem exists_isGivenOr (distinct : Function.Injective data)
    (finds : ∀ d, found = some d ↔ ∃ a, given a ∧ d = data a) (standard : α) :
    ∃ value, IsGivenOr given standard value ∧ (given value ∨ value = standard) := by
  have isGiven (value : α) := (getD_eq_iff_isGivenOr distinct finds standard value).mp
  cases found with
  | none => exact ⟨standard, isGiven standard rfl, .inr rfl⟩
  | some d =>
      obtain ⟨a, gives, rfl⟩ := (finds d).mp rfl
      exact ⟨a, isGiven a rfl, .inl gives⟩

end Finding

/-- A seed file as it is found in a document. -/
def fileData (file? : Option String) : Data :=
  file?.elim .null .text

theorem fileData_injective : Function.Injective fileData := by
  rintro (_ | file) (_ | other) same
  · rfl
  · cases same
  · cases same
  · rw [Data.text.inj same]

section Once

variable {parts : List Part} (once : WritesOnce parts)

include once

theorem nodup_fields : ((fields parts).map Prod.fst).Nodup := by
  rw [fields, List.map_map]
  exact once.sections

theorem nodup_entries {part : Part} (there : part ∈ parts) :
    (part.toSection.entries.map Prod.fst).Nodup := by
  cases part with
  | broadcast entries =>
      have keys : (Part.broadcast entries).toSection.entries.map Prod.fst =
          (entries.map Prod.fst).map Setting.key := by
        simp [Part.toSection]
      rw [keys]
      exact (once.settings entries there).map Setting.key_injective
  | directory file => cases file <;> simp [Part.toSection]

theorem nodup_section_fields {part : Part} (there : part ∈ parts) :
    (part.toSection.fields.map Prod.fst).Nodup := by
  have names : part.toSection.fields.map Prod.fst = part.toSection.entries.map Prod.fst := by
    simp [Toml.Section.fields]
  rw [names]
  exact nodup_entries once there

/-- The value that is found for a setting is the number that is written for it. -/
theorem setting_part_eq_some_iff {k : Setting} {d : Data} :
    ((Data.table (fields parts)).part? sections "broadcast").bind
        (Data.part? Settings.names k.key) = some d ↔ ∃ z, Writes parts k z ∧ d = .int z := by
  simp only [Option.bind_eq_some_iff, Data.part?_table_eq_some_iff (nodup_fields once),
    broadcast_mem_fields_iff]
  constructor
  · rintro ⟨_, ⟨entries, there, rfl⟩, found⟩
    have distinct := nodup_section_fields once there
    rw [Part.fields_broadcast] at distinct
    obtain ⟨⟨l, z⟩, member, same⟩ :=
      List.mem_map.mp ((Data.part?_table_eq_some_iff distinct).mp found)
    obtain ⟨key, rfl⟩ := Prod.mk.inj same
    obtain rfl := Setting.key_injective key
    exact ⟨z, ⟨entries, there, member⟩, rfl⟩
  · rintro ⟨z, ⟨entries, there, member⟩, rfl⟩
    have distinct := nodup_section_fields once there
    rw [Part.fields_broadcast] at distinct
    exact ⟨_, ⟨entries, there, rfl⟩, (Data.part?_table_eq_some_iff distinct).mpr
      (List.mem_map.mpr ⟨_, member, rfl⟩)⟩

theorem file_part_eq_some_iff {d : Data} :
    ((Data.table (fields parts)).part? sections "directory").bind
        (Data.part? ["seed_file"] "seed_file") = some d ↔
      ∃ file?, WritesFile parts file? ∧ d = fileData file? := by
  simp only [Option.bind_eq_some_iff, Data.part?_table_eq_some_iff (nodup_fields once),
    directory_mem_fields_iff]
  constructor
  · rintro ⟨_, ⟨file?, there, rfl⟩, found⟩
    cases file? with
    | none => cases found
    | some file => exact ⟨some file, ⟨file, rfl, there⟩, (Option.some.inj found).symm⟩
  · rintro ⟨_, ⟨file, rfl, there⟩, rfl⟩
    exact ⟨_, ⟨some file, there, rfl⟩, rfl⟩

theorem isListed_fields_iff {c : Config} :
    IsListed (.table (fields parts)) c ↔ IsReplaced parts c := by
  have settings (k : Setting) := getD_eq_iff_isGivenOr (fun _ _ => Data.int.inj)
    (fun _ => setting_part_eq_some_iff once (k := k)) (({} : Settings).value k)
    (c.broadcast.value k)
  have file := getD_eq_iff_isGivenOr fileData_injective (fun _ => file_part_eq_some_iff once) none
    c.seedFile
  exact ⟨fun listed => ⟨fun k => (settings k).mp (listed.settings k), file.mp listed.seedFile⟩,
    fun replaced => ⟨fun k => (settings k).mpr (replaced.settings k), file.mpr replaced.seedFile⟩⟩

theorem exists_isReplaced (fits : ∀ k z, Writes parts k z → k.Fits z) :
    ∃ c, IsReplaced parts c := by
  have settings (k : Setting) := exists_isGivenOr (fun _ _ => Data.int.inj)
    (fun _ => setting_part_eq_some_iff once (k := k)) (({} : Settings).value k)
  obtain ⟨file, isFile, -⟩ := exists_isGivenOr fileData_injective
    (fun _ => file_part_eq_some_iff once) none
  choose number isGiven origin using settings
  have inRange (k : Setting) : k.Fits (number k) := by
    rcases origin k with written | standard
    · exact fits k _ written
    · exact standard ▸ Settings.fits_value _ k
  obtain ⟨s, value⟩ := Settings.exists_value_eq inRange
  exact ⟨⟨s, file⟩, fun k => (value k).symm ▸ isGiven k, isFile⟩

/-! ## Reading -/

theorem read?_fields_iff {c : Config} :
    read? .loosely (.table (fields parts)) = some c ↔ IsReplaced parts c := by
  rw [← isListed_fields_iff once]
  refine read?_table_eq_some_iff (by decide) (nodup_fields once) fun field member => ?_
  obtain ⟨part, there, rfl⟩ := List.mem_map.mp member
  exact ⟨_, rfl, nodup_section_fields once there⟩

theorem parse?_document (words : ∀ k z, Writes parts k z → -(2 ^ 63) ≤ z ∧ z < 2 ^ 63) :
    Toml.parse? (document parts) = some (.table (fields parts)) := by
  have apart : ((parts.map Part.toSection).map Toml.Section.name).Nodup := by
    rw [List.map_map]
    exact once.sections
  rw [document, Toml.parse?_document isBare_of_mem apart, List.map_map]
  · rfl
  · intro _ member
    obtain ⟨part, there, rfl⟩ := List.mem_map.mp member
    exact nodup_entries once there
  · intro _ member entry inside
    obtain ⟨part, there, rfl⟩ := List.mem_map.mp member
    cases part with
    | broadcast entries =>
        obtain ⟨⟨k, z⟩, written, rfl⟩ := List.mem_map.mp inside
        exact words k z ⟨entries, there, written⟩
    | directory file =>
        obtain ⟨_, -, rfl⟩ := List.mem_map.mp inside
        trivial

/-- A document is read as the configuration in which what it writes is replaced, if all of the
numbers have words. -/
theorem ofDocument?_document_iff (words : ∀ k z, Writes parts k z → -(2 ^ 63) ≤ z ∧ z < 2 ^ 63)
    {c : Config} : ofDocument? (document parts) = some c ↔ IsReplaced parts c := by
  rw [ofDocument?, parse?_document once words, Option.bind_some, read?_fields_iff once]

/-- A document with a number that does not fit its setting, or has no word, is not read. -/
theorem ofDocument?_document_eq_none {k : Setting} {z : Int} (written : Writes parts k z)
    (wrong : ¬(k.Fits z ∧ z < 2 ^ 63)) : ofDocument? (document parts) = none := by
  by_cases words : ∀ l y, Writes parts l y → -(2 ^ 63) ≤ y ∧ y < 2 ^ 63
  · rw [Option.eq_none_iff_forall_ne_some]
    intro c read
    have replaced := (ofDocument?_document_iff once words).mp read
    have value : c.broadcast.value k = z := (replaced.settings k).1 z written
    exact wrong ⟨value ▸ c.broadcast.fits_value k, (words k z written).2⟩
  · simp only [not_forall] at words
    obtain ⟨l, y, ⟨entries, there, inside⟩, wordless⟩ := words
    have entry : (l.key, .int y) ∈ (Part.broadcast entries).toSection.entries :=
      List.mem_map.mpr ⟨_, inside, rfl⟩
    have unread : Toml.parse? (document parts) = none :=
      Toml.parse?_document_eq_none isBare_of_mem (List.mem_map_of_mem there) entry wordless
    rw [ofDocument?, unread, Option.bind_none]

end Once

/-- A document that writes some settings, each once, in any order, is read exactly as the default
configuration in which these are replaced, if each number is one that its setting can be and has a
word. There is such a configuration then, and with any other number for a setting the document is
not read. -/
theorem partial_documents_keep_defaults (parts : List Part) (once : WritesOnce parts) :
    ((∀ k z, Writes parts k z → k.Fits z ∧ z < 2 ^ 63) →
      (∃ c, IsReplaced parts c) ∧
        ∀ c, ofDocument? (document parts) = some c ↔ IsReplaced parts c) ∧
    ∀ k z, Writes parts k z → ¬(k.Fits z ∧ z < 2 ^ 63) →
      ofDocument? (document parts) = none := by
  refine ⟨fun fits => ⟨exists_isReplaced once fun k z written => (fits k z written).1, fun c => ?_⟩,
    fun k z written wrong => ofDocument?_document_eq_none once written wrong⟩
  refine ofDocument?_document_iff once fun k z written => ⟨?_, (fits k z written).2⟩
  have least := (fits k z written).1.1
  cases k <;> simp only [Setting.least] at least <;> omega

/-- Sections that write a seed file and extreme numbers. -/
def extremeParts (retries : Int) : List Part :=
  [.directory (some "a\\\"b\n"),
    .broadcast [(.removalConcurrency, 2 ^ 63 - 1), (.channelThreshold, -(2 ^ 63)), (.workers, 0),
      (.maxRetries, retries)]]

/-- The settings are read at the ends of their ranges, and one number further on nothing is. -/
theorem partial_documents_keep_defaults_at_extremes :
    document (extremeParts 4294967295) =
      "[directory]\nseed_file = \"a\\\\\\\"b\\u000a\"\n" ++
      "[broadcast]\nremoval_concurrency = 9223372036854775807\n" ++
      "channel_id_threshold = -9223372036854775808\nworkers = 0\nmax_retries = 4294967295\n" ∧
    ofDocument? (document (extremeParts 4294967295)) = some {
      broadcast := {
        workers := 0
        maxRetries := 4294967295
        channelThreshold := -9223372036854775808
        removalConcurrency := 9223372036854775807 }
      seedFile := some "a\\\"b\n" } ∧
    ofDocument? (document (extremeParts 4294967296)) = none := by
  have once (retries : Int) : WritesOnce (extremeParts retries) :=
    ⟨by simp [extremeParts, Part.toSection], by simp [extremeParts]⟩
  have writes (retries : Int) (k : Setting) (z : Int) : Writes (extremeParts retries) k z ↔
      (k, z) ∈ [(.removalConcurrency, 2 ^ 63 - 1), (.channelThreshold, -(2 ^ 63)), (.workers, 0),
        (.maxRetries, retries)] := by
    simp [Writes, extremeParts]
  obtain ⟨read, -⟩ := partial_documents_keep_defaults _ (once 4294967295)
  obtain ⟨-, unread⟩ := partial_documents_keep_defaults _ (once 4294967296)
  refine ⟨by decide +kernel, ((read ?_).2 _).mpr ⟨fun k => ?_, ?_⟩,
    unread .maxRetries 4294967296 ((writes _ _ _).mpr (by simp)) (by decide)⟩
  · intro k z written
    rw [writes] at written
    simp only [List.mem_cons, Prod.mk.injEq, List.not_mem_nil, or_false] at written
    rcases written with ⟨rfl, rfl⟩ | ⟨rfl, rfl⟩ | ⟨rfl, rfl⟩ | ⟨rfl, rfl⟩ <;> decide
  · simp only [IsGivenOr, writes]
    cases k <;> simp [Settings.value]
  · simp [IsGivenOr, WritesFile, extremeParts]

end Config

end Broadcast
