/-!
# Structured data

The values that documents hold, whichever notation they are written in, and how a record is laid
out in such a value: as a table of its named fields, or as the list of its fields in order.
-/

namespace Broadcast

/-- A value of a document. A number with a fraction or an exponent keeps its text, as does a date;
`garbled` is a text with half a surrogate pair in it, which has no characters to keep, or a table
with such a text for a name. -/
inductive Data
  | null
  | bool (b : Bool)
  | int (z : Int)
  | real (text : String)
  | text (s : String)
  | garbled
  | date (text : String)
  | list (items : List Data)
  | table (fields : List (String × Data))
deriving Repr, Inhabited

namespace Data

/-- How much of a record has to be there: all of its fields, or any of them. A list that is read
loosely may also go on behind the last field, with items that say nothing. -/
inductive Demand
  | complete
  | partly
  | loosely
deriving DecidableEq

/-- The value of a field, if the field is named once; `none` outside if it is named twice. -/
def field? (fields : List (String × Data)) (name : String) : Option (Option Data) :=
  match (fields.filter (·.1 = name)).map (·.2) with
  | [] => some none
  | [value] => some (some value)
  | _ => none

/-- The values of a table's fields in the order of the names. -/
def columns? (demand : Demand) (names : List String) (fields : List (String × Data)) :
    Option (List (Option Data)) := do
  let values ← names.mapM (field? fields)
  if demand = .complete ∧ none ∈ values.map (·.map fun _ => ()) then none else some values

/-- The values of a list, taken as the first of a record's fields. -/
def positions? (demand : Demand) (width : Nat) (items : List Data) : Option (List (Option Data)) :=
  if (demand ≠ .loosely ∧ width < items.length) ∨
      (demand = .complete ∧ items.length < width) then none
  else some ((items.take width).map some ++ List.replicate (width - items.length) none)

/-- The values of a record's fields, each absent or present. A date stands for a record of which no
field is present. -/
def record? (demand : Demand) (names : List String) : Data → Option (List (Option Data))
  | table fields => columns? demand names fields
  | list items => positions? demand names.length items
  | date _ => columns? demand names []
  | _ => none

/-- The integer that a value is. -/
def int? : Data → Option Int
  | int z => some z
  | _ => none

/-- The truth value that a value is. -/
def bool? : Data → Option Bool
  | bool b => some b
  | _ => none

/-- The text that a value is. -/
def text? : Data → Option String
  | text s => some s
  | _ => none

/-- The list that a value is, each item read in turn. -/
def listOf? {α : Type} (item? : Data → Option α) : Data → Option (List α)
  | list items => items.mapM item?
  | _ => none

/-- The value or its absence, absence being written as `null`. -/
def optional? {α : Type} (value? : Data → Option α) : Data → Option (Option α)
  | null => some none
  | d => (value? d).map some

/-- The name of one of several cases, written as a text or as a table with nothing in it. -/
def case? : Data → Option String
  | text s => some s
  | table [(s, null)] => some s
  | _ => none

end Data

end Broadcast
