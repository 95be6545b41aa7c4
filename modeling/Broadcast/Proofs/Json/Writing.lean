import Broadcast.Proofs.Json.Reading

/-!
# Written values are read back

Both written forms of a value read as this value, if it is made of `null`, truth values, integers,
texts, lists and tables.
-/

namespace Broadcast

/-- A value of which every part has a written form of its own in JSON. -/
inductive Data.IsPlain : Data → Prop
  | null : IsPlain .null
  | bool (b : Bool) : IsPlain (.bool b)
  | int (z : Int) : IsPlain (.int z)
  | text (s : String) : IsPlain (.text s)
  | list {items : List Data} (each : ∀ d ∈ items, IsPlain d) : IsPlain (.list items)
  | table {fields : List (String × Data)} (each : ∀ field ∈ fields, IsPlain field.2) :
      IsPlain (.table fields)

namespace Json

theorem blanks_newline (depth : Nat) : Blanks (newline depth) := by
  intro c member
  rcases List.mem_cons.mp member with rfl | space
  · rfl
  · rw [List.eq_of_mem_replicate space]
    rfl

/-! ## Containers -/

theorem readsItems_joined (join : List Data → List Char) {write : Data → List Char}
    {before behind : List Char} (spaced : Blanks before) (closing : Blanks behind)
    (last : ∀ d, join [d] = before ++ write d)
    (more : ∀ d e ds, join (d :: e :: ds) = before ++ write d ++ ',' :: join (e :: ds))
    {d : Data} {ds : List Data} (each : ∀ e ∈ d :: ds, Reads (write e) e) :
    ReadsItems (join (d :: ds) ++ behind) (d :: ds) := by
  have first := (each d List.mem_cons_self).blanks spaced
  induction ds generalizing d with
  | nil =>
      rw [last]
      exact first.last closing
  | cons e ds ih =>
      have others := ih (fun x member => each x (.tail d member))
        ((each e (.tail d List.mem_cons_self)).blanks spaced)
      rw [more, List.append_assoc, List.cons_append]
      exact .more first others

theorem readsFields_joined (join : List (String × Data) → List Char) {write : Data → List Char}
    {before behind : List Char} (spaced : Blanks before) (closing : Blanks behind)
    (last : ∀ name d, join [(name, d)] = before ++ quoted name ++ ':' :: write d)
    (more : ∀ name d field fields, join ((name, d) :: field :: fields) =
      before ++ quoted name ++ ':' :: write d ++ ',' :: join (field :: fields))
    {field : String × Data} {fields : List (String × Data)}
    (each : ∀ f ∈ field :: fields, Reads (write f.2) f.2) :
    ReadsFields (join (field :: fields) ++ behind) (field :: fields) := by
  obtain ⟨name, d⟩ := field
  have value : Reads (write d) d := each (name, d) List.mem_cons_self
  induction fields generalizing name d with
  | nil =>
      rw [last]
      exact value.lastField spaced name closing
  | cons f fields ih =>
      have others := ih f.1 f.2 (fun x member => each x (.tail _ member))
        (each f (.tail _ List.mem_cons_self))
      rw [more, List.append_assoc, List.cons_append]
      exact .more spaced name value others

/-! ## The two written forms -/

/-- The compact form of a plain value reads as this value. -/
theorem reads_compact {d : Data} (plain : d.IsPlain) : Reads (compact d) d := by
  induction plain with
  | null => exact reads_null
  | bool b => exact reads_bool b
  | int z => exact reads_int z
  | text s => exact reads_text s
  | @list items each ih =>
      cases items with
      | nil => exact reads_empty_list
      | cons d ds =>
          have inner := readsItems_joined compactItems blanks_nil blanks_nil
            (fun _ => rfl) (fun _ _ _ => rfl) ih
          simpa [compact] using inner.list
  | @table fields each ih =>
      cases fields with
      | nil => exact reads_empty_table
      | cons field fields =>
          have inner := readsFields_joined compactFields blanks_nil blanks_nil
            (fun _ _ => rfl) (fun _ _ _ _ => rfl) ih
          simpa [compact] using inner.table

/-- The indented form of a plain value reads as this value, at whatever depth it stands. -/
theorem reads_indented {d : Data} (plain : d.IsPlain) (depth : Nat) :
    Reads (indented depth d) d := by
  induction plain generalizing depth with
  | null => exact reads_null
  | bool b => exact reads_bool b
  | int z => exact reads_int z
  | text s => exact reads_text s
  | @list items each ih =>
      cases items with
      | nil => exact reads_empty_list
      | cons d ds =>
          have inner := readsItems_joined (indentedItems (depth + 1)) (blanks_newline (depth + 1))
            (blanks_newline depth) (fun _ => rfl) (fun _ _ _ => rfl)
            fun e member => ih e member (depth + 1)
          simpa [indented] using inner.list
  | @table fields each ih =>
      cases fields with
      | nil => exact reads_empty_table
      | cons field fields =>
          have space : Blanks [' '] := by simp [Blanks, isSpace]
          have inner := readsFields_joined (indentedFields (depth + 1)) (blanks_newline (depth + 1))
            (blanks_newline depth) (fun _ _ => rfl) (fun _ _ _ _ => rfl)
            fun f member => (ih f member (depth + 1)).blanks space
          simpa [indented] using inner.table

/-! ## Whole texts -/

theorem Reads.parse? {s : List Char} {d : Data} (reads : Reads s d) :
    parse? (String.ofList s) = some d := by
  have whole := reads (2 * s.length + 1) [] (by omega) (by simp [EndsNumber])
  rw [List.append_nil] at whole
  simp [Json.parse?, whole, skipSpace]

theorem parse?_render {d : Data} (plain : d.IsPlain) : parse? (render d) = some d :=
  (reads_compact plain).parse?

theorem parse?_renderIndented {d : Data} (plain : d.IsPlain) :
    parse? (renderIndented d) = some d :=
  (reads_indented plain 0).parse?

end Json

end Broadcast
