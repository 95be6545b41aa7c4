import Broadcast.Proofs.Json.Scalars
import Mathlib.Data.List.DropRight

/-!
# Texts that read as values

A text reads as a value if the reader takes this value off every longer text that starts with it
and does not go on as a number. The rules put such texts together; blanks may stand between the
parts. A reader of a text needs no more fuel than the text has characters.
-/

namespace Broadcast.Json

/-- All characters of a text are blanks. -/
def Blanks (s : List Char) : Prop := ∀ c ∈ s, isSpace c = true

/-- A text reads as a value, whatever stands behind it. -/
def Reads (s : List Char) (d : Data) : Prop :=
  ∀ fuel rest, s.length ≤ fuel → EndsNumber rest → value? fuel (s ++ rest) = some (d, rest)

/-- What stands between two brackets reads as the items of a list. -/
def ReadsItems (s : List Char) (items : List Data) : Prop :=
  ∀ fuel rest, s.length < fuel → items? fuel (s ++ ']' :: rest) = some (items, rest)

/-- What stands between two braces reads as the fields of a table. -/
def ReadsFields (s : List Char) (fields : List (String × Data)) : Prop :=
  ∀ fuel rest, s.length < fuel →
    fields? fuel (s ++ '\x7d' :: rest) = some (fields.map (Prod.map some id), rest)

/-! ## Blanks -/

theorem blanks_nil : Blanks [] :=
  fun _ member => absurd member List.not_mem_nil

theorem skipSpace_blanks {b : List Char} (blanks : Blanks b) (s : List Char) :
    skipSpace (b ++ s) = skipSpace s :=
  List.dropWhile_append_of_pos blanks

theorem skipSpace_skipSpace (s : List Char) : skipSpace (skipSpace s) = skipSpace s :=
  List.dropWhile_idempotent isSpace s

/-- A reader of a value starts behind the blanks. -/
theorem value?_congr {s t : List Char} (same : skipSpace s = skipSpace t) (fuel : Nat) :
    value? fuel s = value? fuel t := by
  cases fuel with
  | zero => rfl
  | succ fuel => rw [value?, value?, same]

theorem items?_congr {s t : List Char} (same : skipSpace s = skipSpace t) (fuel : Nat) :
    items? fuel s = items? fuel t := by
  cases fuel with
  | zero => rfl
  | succ fuel => rw [items?, items?, value?_congr same]

theorem fields?_congr {s t : List Char} (same : skipSpace s = skipSpace t) (fuel : Nat) :
    fields? fuel s = fields? fuel t := by
  cases fuel with
  | zero => rfl
  | succ fuel => rw [fields?, fields?, same]

theorem endsNumber_blanks {b : List Char} (blanks : Blanks b) {s : List Char}
    (ends : EndsNumber s) : EndsNumber (b ++ s) := by
  cases b with
  | nil => exact ends
  | cons c b =>
      refine endsNumber_cons _ ?_
      have space : c = ' ' ∨ c = '\n' ∨ c = '\t' ∨ c = '\r' := by
        simpa [isSpace, or_assoc] using blanks c List.mem_cons_self
      rcases space with rfl | rfl | rfl | rfl <;> decide

theorem Reads.blanks {b s : List Char} {d : Data} (blanks : Blanks b) (reads : Reads s d) :
    Reads (b ++ s) d := by
  intro fuel rest enough ends
  rw [List.length_append] at enough
  rw [List.append_assoc, value?_congr (skipSpace_blanks blanks (s ++ rest))]
  exact reads fuel rest (by omega) ends

theorem skipSpace_quoted {b : List Char} (blanks : Blanks b) (name : String) (s : List Char) :
    skipSpace (b ++ quoted name ++ s) = '"' :: (name.toList.flatMap escaped ++ '"' :: s) := by
  rw [List.append_assoc, skipSpace_blanks blanks]
  simp [quoted, skipSpace, isSpace]

/-! ## Values without inner values -/

theorem reads_null : Reads "null".toList .null := by
  rintro (_ | fuel) rest enough -
  · contradiction
  · rfl

theorem reads_bool (b : Bool) : Reads (leaf (.bool b)) (.bool b) := by
  rintro (_ | fuel) rest enough -
  · cases b <;> contradiction
  · cases b <;> rfl

theorem reads_text (s : String) : Reads (quoted s) (.text s) := by
  rintro (_ | fuel) rest enough -
  · simp [quoted] at enough
  · have front : skipSpace (quoted s ++ rest) = '"' :: (s.toList.flatMap escaped ++ '"' :: rest) :=
      skipSpace_quoted blanks_nil s rest
    simp only [value?, front, pieces?_flatMap_escaped, Option.map_some, joined?_map_pieceOf,
      String.ofList_toList]

theorem value?_number {c : Char} (starts : Text.StartsNumber c) (fuel : Nat) (s : List Char) :
    value? (fuel + 1) (c :: s) = number? (c :: s) := by
  have other : c ∉ [' ', '\n', '\t', '\r', '"', '[', '\x7b', 't', 'f', 'n'] := by
    rintro member
    simp only [List.mem_cons, List.not_mem_nil, or_false] at member
    rcases member with rfl | rfl | rfl | rfl | rfl | rfl | rfl | rfl | rfl | rfl <;>
      exact absurd starts (by simp [Text.StartsNumber])
  simp only [List.mem_cons, List.not_mem_nil, or_false, not_or] at other
  simp [value?, skipSpace, isSpace, other]

theorem reads_int (z : Int) : Reads (toString z).toList (.int z) := by
  obtain ⟨c, s, written, starts⟩ := Text.toString_eq_cons z
  rintro (_ | fuel) rest enough ends
  · rw [written] at enough
    contradiction
  · rw [← number?_toString z ends, written, List.cons_append, value?_number starts]

/-! ## Lists -/

theorem reads_empty_list : Reads ['[', ']'] (.list []) := by
  rintro (_ | fuel) rest enough -
  · contradiction
  · rfl

theorem items?_closed (fuel : Nat) (s : List Char) : items? fuel (']' :: s) = none := by
  match fuel with
  | 0 | 1 | _ + 2 => rfl

theorem value?_list {fuel : Nat} {s rest : List Char} {items : List Data}
    (inner : items? fuel s = some (items, rest)) :
    value? (fuel + 1) ('[' :: s) = some (.list items, rest) := by
  have front : skipSpace ('[' :: s) = '[' :: s := rfl
  rw [items?_congr (skipSpace_skipSpace s).symm] at inner
  simp only [value?, front]
  -- The list is not closed at once: no items would be read from there on.
  split
  · next closed =>
    rw [closed, items?_closed] at inner
    contradiction
  · rw [inner]
    rfl

theorem ReadsItems.list {s : List Char} {items : List Data} (reads : ReadsItems s items) :
    Reads ('[' :: s ++ [']']) (.list items) := by
  rintro (_ | fuel) rest enough -
  · contradiction
  · have inner := reads fuel rest (by simp at enough; omega)
    simpa using value?_list inner

theorem Reads.last {s b : List Char} {d : Data} (reads : Reads s d) (blanks : Blanks b) :
    ReadsItems (s ++ b) [d] := by
  rintro (_ | fuel) rest enough
  · contradiction
  · rw [List.length_append] at enough
    have ends : EndsNumber (b ++ ']' :: rest) :=
      endsNumber_blanks blanks (endsNumber_cons rest (by decide))
    have behind : skipSpace (b ++ ']' :: rest) = ']' :: rest := skipSpace_blanks blanks _
    simp only [items?, List.append_assoc, reads fuel _ (by omega) ends, Option.bind_eq_bind,
      Option.bind_some, behind]

theorem ReadsItems.more {s t : List Char} {d : Data} {items : List Data} (reads : Reads s d)
    (others : ReadsItems t items) : ReadsItems (s ++ ',' :: t) (d :: items) := by
  rintro (_ | fuel) rest enough
  · contradiction
  · rw [List.length_append, List.length_cons] at enough
    have ends : EndsNumber (',' :: (t ++ ']' :: rest)) := endsNumber_cons _ (by decide)
    have behind : skipSpace (',' :: (t ++ ']' :: rest)) = ',' :: (t ++ ']' :: rest) := rfl
    simp only [items?, List.append_assoc, List.cons_append, reads fuel _ (by omega) ends,
      Option.bind_eq_bind, Option.bind_some, behind, others fuel rest (by omega)]

/-! ## Tables -/

theorem reads_empty_table : Reads ['\x7b', '\x7d'] (.table []) := by
  rintro (_ | fuel) rest enough -
  · contradiction
  · rfl

theorem named?_map_some (fields : List (String × Data)) :
    named? (fields.map (Prod.map some id)) = some fields := by
  induction fields with
  | nil => rfl
  | cons field fields ih =>
      rw [named?] at ih
      rw [named?, List.map_cons, List.mapM_cons, ih]
      rfl

theorem fields?_closed (fuel : Nat) (s : List Char) : fields? fuel ('\x7d' :: s) = none := by
  cases fuel <;> rfl

theorem value?_table {fuel : Nat} {s rest : List Char} {fields : List (String × Data)}
    (inner : fields? fuel s = some (fields.map (Prod.map some id), rest)) :
    value? (fuel + 1) ('\x7b' :: s) = some (.table fields, rest) := by
  have front : skipSpace ('\x7b' :: s) = '\x7b' :: s := rfl
  rw [fields?_congr (skipSpace_skipSpace s).symm] at inner
  simp only [value?, front]
  split
  · next closed =>
    rw [closed, fields?_closed] at inner
    contradiction
  · rw [inner, Option.map_some]
    simp only [named?_map_some, Option.elim_some]

theorem ReadsFields.table {s : List Char} {fields : List (String × Data)}
    (reads : ReadsFields s fields) : Reads ('\x7b' :: s ++ ['\x7d']) (.table fields) := by
  rintro (_ | fuel) rest enough -
  · contradiction
  · have inner := reads fuel rest (by simp at enough; omega)
    simpa using value?_table inner

theorem fields?_last {b : List Char} (blanks : Blanks b) (name : String) {fuel : Nat}
    {s rest t : List Char} {d : Data} (value : value? fuel s = some (d, rest))
    (closed : skipSpace rest = '\x7d' :: t) :
    fields? (fuel + 1) (b ++ quoted name ++ ':' :: s) = some ([(some name, d)], t) := by
  have colon : skipSpace (':' :: s) = ':' :: s := rfl
  simp only [fields?, skipSpace_quoted blanks, pieces?_flatMap_escaped, colon, value, closed,
    joined?_map_pieceOf, Option.bind_eq_bind, Option.bind_some, Option.map_some,
    String.ofList_toList]

theorem fields?_more {b : List Char} (blanks : Blanks b) (name : String) {fuel : Nat}
    {s rest t u : List Char} {d : Data} {fields : List (Option String × Data)}
    (value : value? fuel s = some (d, rest)) (comma : skipSpace rest = ',' :: t)
    (others : fields? fuel t = some (fields, u)) :
    fields? (fuel + 1) (b ++ quoted name ++ ':' :: s) = some ((some name, d) :: fields, u) := by
  have colon : skipSpace (':' :: s) = ':' :: s := rfl
  simp only [fields?, skipSpace_quoted blanks, pieces?_flatMap_escaped, colon, value, comma, others,
    joined?_map_pieceOf, Option.bind_eq_bind, Option.bind_some, Option.map_some,
    String.ofList_toList]

theorem Reads.lastField {a b s : List Char} {d : Data} (before : Blanks a) (name : String)
    (reads : Reads s d) (behind : Blanks b) :
    ReadsFields (a ++ quoted name ++ ':' :: s ++ b) [(name, d)] := by
  rintro (_ | fuel) rest enough
  · contradiction
  · have ends : EndsNumber (b ++ '\x7d' :: rest) :=
      endsNumber_blanks behind (endsNumber_cons rest (by decide))
    have value := reads fuel _ (by simp at enough; omega) ends
    have parts : a ++ quoted name ++ ':' :: s ++ b ++ '\x7d' :: rest =
        a ++ quoted name ++ ':' :: (s ++ (b ++ '\x7d' :: rest)) := by simp
    rw [parts]
    exact fields?_last before name value (skipSpace_blanks behind _)

theorem ReadsFields.more {a s t : List Char} {d : Data} {fields : List (String × Data)}
    (before : Blanks a) (name : String) (reads : Reads s d) (others : ReadsFields t fields) :
    ReadsFields (a ++ quoted name ++ ':' :: s ++ ',' :: t) ((name, d) :: fields) := by
  rintro (_ | fuel) rest enough
  · contradiction
  · have ends : EndsNumber (',' :: (t ++ '\x7d' :: rest)) := endsNumber_cons _ (by decide)
    have value := reads fuel _ (by simp at enough; omega) ends
    have parts : a ++ quoted name ++ ':' :: s ++ ',' :: t ++ '\x7d' :: rest =
        a ++ quoted name ++ ':' :: (s ++ ',' :: (t ++ '\x7d' :: rest)) := by simp
    rw [parts]
    exact fields?_more before name value rfl (others fuel rest (by simp at enough; omega))

end Broadcast.Json
