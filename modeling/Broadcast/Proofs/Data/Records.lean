import Broadcast.Proofs.Word
import Broadcast.Word
import Mathlib.Data.List.Nodup
import Mathlib.Tactic.SplitIfs

/-!
# Records and words are read back

A table that lists the fields of a record under names of their own is read as this record, and a
word is read back from its number. Whatever is read as a record, its columns are the parts that the
names call; in a table without repeated names these are the fields that have them.
-/

namespace Broadcast.Data

/-! ## Records -/

theorem mapM_eq_some {α β : Type} {f : α → Option β} {g : α → β} {items : List α}
    (each : ∀ a ∈ items, f a = some (g a)) : items.mapM f = some (items.map g) := by
  induction items with
  | nil => rfl
  | cons a items ih =>
      rw [List.mapM_cons, each a List.mem_cons_self, ih fun b member => each b (.tail a member)]
      rfl

theorem mapM_eq_none {α β : Type} {f : α → Option β} {items : List α} {a : α}
    (member : a ∈ items) (fails : f a = none) : items.mapM f = none := by
  induction items with
  | nil => contradiction
  | cons b items ih =>
      rw [List.mapM_cons]
      rcases List.mem_cons.mp member with rfl | member
      · rw [fails]
        rfl
      · rw [ih member]
        cases f b <;> rfl

theorem eq_map_of_mapM {α β : Type} {f : α → Option β} {g : α → β}
    (each : ∀ a b, f a = some b → b = g a) {items : List α} {values : List β}
    (read : items.mapM f = some values) : values = items.map g := by
  induction items generalizing values with
  | nil => exact (Option.some.inj read).symm
  | cons a items ih =>
      simp only [List.mapM_cons, Option.bind_eq_bind, Option.bind_eq_some_iff] at read
      obtain ⟨b, first, bs, rest, same⟩ := read
      rw [← Option.some.inj same, each a b first, ih rest, List.map_cons]

theorem field?_of_mem {fields : List (String × Data)} (distinct : (fields.map Prod.fst).Nodup)
    {field : String × Data} (member : field ∈ fields) :
    field? fields field.1 = some (some field.2) := by
  have only : fields.filter (·.1 = field.1) = [field] := by
    induction fields with
    | nil => contradiction
    | cons f fields ih =>
        rw [List.map_cons, List.nodup_cons] at distinct
        obtain ⟨apart, distinct⟩ := distinct
        rcases List.mem_cons.mp member with rfl | member
        · have others : fields.filter (·.1 = field.1) = [] := by
            refine List.filter_eq_nil_iff.mpr fun g there same => apart ?_
            exact List.mem_map.mpr ⟨g, there, of_decide_eq_true same⟩
          rw [List.filter_cons_of_pos (by simp), others]
        · have other : f.1 ≠ field.1 := fun same =>
            apart (same ▸ List.mem_map_of_mem member)
          rw [List.filter_cons_of_neg (by simpa using other), ih distinct member]
  rw [field?, only]
  rfl

theorem columns?_of_nodup (demand : Demand) {fields : List (String × Data)}
    (distinct : (fields.map Prod.fst).Nodup) :
    columns? demand (fields.map Prod.fst) fields = some (fields.map (some ·.2)) := by
  have found : (fields.map Prod.fst).mapM (field? fields) = some (fields.map (some ·.2)) := by
    rw [List.mapM_map]
    exact mapM_eq_some fun field member => field?_of_mem distinct member
  have complete : none ∉ (fields.map (some ·.2)).map (·.map fun _ => ()) := by
    simp
  simp only [columns?, found, Option.bind_eq_bind, Option.bind_some, complete, and_false, if_false]

theorem record?_zip (demand : Demand) (names : List String) (values : List Data)
    (distinct : names.Nodup) (same : names.length = values.length) :
    record? demand names (table (names.zip values)) = some (values.map some) := by
  have named : (names.zip values).map Prod.fst = names := List.map_fst_zip (Nat.le_of_eq same)
  have valued : (names.zip values).map (some ·.2) = values.map some :=
    calc (names.zip values).map (some ·.2)
      _ = ((names.zip values).map Prod.snd).map some := List.map_map.symm
      _ = values.map some := by rw [List.map_snd_zip (Nat.le_of_eq same.symm)]
  have columns := columns?_of_nodup demand (named.symm ▸ distinct)
  rwa [named, valued] at columns

/-- The part of a value that is called by one of some names: the field of this name, or the item
at its place. -/
def part? (names : List String) (name : String) : Data → Option Data
  | table fields => (fields.find? (·.1 = name)).map (·.2)
  | list items => items[names.idxOf name]?
  | _ => none

theorem field?_eq_some {fields : List (String × Data)} {name : String} {value : Option Data}
    (found : field? fields name = some value) :
    value = (fields.find? (·.1 = name)).map (·.2) := by
  rw [← List.head?_filter, ← List.head?_map]
  unfold field? at found
  split at found
  next empty =>
    rw [empty, ← Option.some.inj found]
    rfl
  next single =>
    rw [single, ← Option.some.inj found]
    rfl
  next => cases found

theorem columns?_eq_some {demand : Demand} {names : List String} {fields : List (String × Data)}
    {columns : List (Option Data)} (listed : columns? demand names fields = some columns) :
    columns = names.map fun name => (fields.find? (·.1 = name)).map (·.2) := by
  obtain ⟨values, each, kept⟩ := Option.bind_eq_some_iff.mp listed
  obtain rfl : values = columns := by
    split_ifs at kept
    exact Option.some.inj kept
  exact eq_map_of_mapM (fun _ _ => field?_eq_some) each

theorem positions?_eq_some {demand : Demand} {names : List String} {items : List Data}
    {columns : List (Option Data)} (distinct : names.Nodup)
    (listed : positions? demand names.length items = some columns) :
    columns = names.map fun name => items[names.idxOf name]? := by
  unfold positions? at listed
  split_ifs at listed
  rw [← Option.some.inj listed]
  apply List.ext_getElem
  · simp only [List.length_append, List.length_map, List.length_take, List.length_replicate]
    omega
  · intro i inList inNames
    rw [List.length_map] at inNames
    rw [List.getElem_map, distinct.idxOf_getElem i inNames, List.getElem_append]
    split
    next present =>
      simp only [List.length_map, List.length_take] at present
      rw [List.getElem_map, List.getElem_take, List.getElem?_eq_getElem (by omega)]
    next absent =>
      simp only [List.length_map, List.length_take] at absent
      rw [List.getElem_replicate, List.getElem?_eq_none (by omega)]

theorem record?_eq_some {demand : Demand} {names : List String} {d : Data}
    {columns : List (Option Data)} (distinct : names.Nodup)
    (listed : d.record? demand names = some columns) :
    columns = names.map fun name => d.part? names name := by
  cases d with
  | table fields => exact columns?_eq_some listed
  | list items => exact positions?_eq_some distinct listed
  | date text => exact columns?_eq_some listed
  | _ => cases listed

/-- A table in which no name occurs twice is read as a record of which any field can be absent. -/
theorem record?_table {demand : Demand} (partly : demand ≠ .complete) (names : List String)
    {fields : List (String × Data)} (distinct : (fields.map Prod.fst).Nodup) :
    record? demand names (table fields) =
      some (names.map fun name => part? names name (table fields)) := by
  have found (name : String) :
      field? fields name = some ((fields.find? (·.1 = name)).map (·.2)) := by
    cases first : fields.find? (·.1 = name) with
    | none =>
        have nothing : fields.filter (·.1 = name) = [] := by
          rw [List.filter_eq_nil_iff]
          exact List.find?_eq_none.mp first
        rw [field?, nothing]
        rfl
    | some field =>
        obtain rfl : field.1 = name := by simpa using List.find?_some first
        exact field?_of_mem distinct (List.mem_of_find?_eq_some first)
  have each : names.mapM (field? fields) =
      some (names.map fun name => (fields.find? (·.1 = name)).map (·.2)) :=
    mapM_eq_some fun name _ => found name
  simp only [record?, columns?, each, Option.bind_eq_bind, Option.bind_some, partly, false_and,
    if_false, part?]

/-- In a table in which no name occurs twice a name calls the field that has it. -/
theorem part?_table_eq_some_iff {names : List String} {name : String}
    {fields : List (String × Data)} (distinct : (fields.map Prod.fst).Nodup) {d : Data} :
    (table fields).part? names name = some d ↔ (name, d) ∈ fields := by
  rw [part?, Option.map_eq_some_iff]
  constructor
  · rintro ⟨field, found, rfl⟩
    obtain rfl : field.1 = name := by simpa using List.find?_some found
    exact List.mem_of_find?_eq_some found
  · intro member
    cases found : fields.find? (·.1 = name) with
    | none => simpa using List.find?_eq_none.mp found _ member
    | some field =>
        obtain rfl : field.1 = name := by simpa using List.find?_some found
        have same := List.inj_on_of_nodup_map distinct (List.mem_of_find?_eq_some found) member rfl
        exact ⟨field, rfl, congrArg Prod.snd same⟩

/-! ## Words -/

theorem int?_eq_some_iff {d : Data} {z : Int} : d.int? = some z ↔ d = .int z := by
  cases d <;> simp [int?]

theorem unsigned64?_eq_some_iff {d : Data} {w : UInt64} :
    d.unsigned64? = some w ↔ d = .int w.toNat := by
  simp [unsigned64?, Option.bind_eq_some_iff, int?_eq_some_iff, Word.unsigned64?_eq_some_iff]

theorem unsigned32?_eq_some_iff {d : Data} {w : UInt32} :
    d.unsigned32? = some w ↔ d = .int w.toNat := by
  simp [unsigned32?, Option.bind_eq_some_iff, int?_eq_some_iff, Word.unsigned32?_eq_some_iff]

theorem signed64?_eq_some_iff {d : Data} {w : Int64} :
    d.signed64? = some w ↔ d = .int w.toInt := by
  simp [signed64?, Option.bind_eq_some_iff, int?_eq_some_iff, Word.signed64?_eq_some_iff]

@[simp]
theorem unsigned64?_ofUnsigned64 (w : UInt64) : (ofUnsigned64 w).unsigned64? = some w :=
  unsigned64?_eq_some_iff.mpr rfl

@[simp]
theorem signed64?_ofSigned64 (w : Int64) : (ofSigned64 w).signed64? = some w :=
  signed64?_eq_some_iff.mpr rfl

end Broadcast.Data
