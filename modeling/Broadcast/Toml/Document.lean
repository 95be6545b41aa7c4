import Broadcast.Toml.Value

/-!
# Documents of TOML

A document is a sequence of statements, one a line: headers, which open a table or add a table to
a list of tables, and assignments to keys of the table opened last. No table is opened twice and
no key assigned twice.
-/

namespace Broadcast.Toml

/-- A line of a document that says something. -/
inductive Statement
  | header (path : Path)
  | listHeader (path : Path)
  | assignment (path : Path) (value : Data)

/-- The rest of a line holds nothing but blanks and a comment; the text of the next line. -/
def lineEnd? (s : List Char) : Option (List Char) :=
  match skipComment (skipBlanks s) with
  | [] => some []
  | s => newline? s

/-- The header at the front of a text, behind its first bracket. -/
def header? : List Char → Option (Statement × List Char)
  | '[' :: s => do
    let (path, s) ← path? s
    let s ← (behind? ']' s).bind (behind? ']')
    some (.listHeader path, s)
  | s => do
    let (path, s) ← path? s
    let s ← behind? ']' s
    some (.header path, s)

/-- The assignment at the front of a text. -/
def assignment? (s : List Char) : Option (Statement × List Char) := do
  let (path, s) ← path? s
  let s ← behind? '=' s
  let (value, s) ← value? (2 * s.length + 2) depthLimit (skipBlanks s)
  some (.assignment path value, s)

/-- The statements of a text. -/
def statements? : (fuel : Nat) → List Char → Option (List Statement)
  | 0, _ => none
  | fuel + 1, s =>
    match skipBlanks s with
    | [] => some []
    | '#' :: s => (lineEnd? ('#' :: s)).bind (statements? fuel)
    | '[' :: s => do
      let (statement, s) ← header? s
      let s ← lineEnd? s
      let statements ← statements? fuel s
      some (statement :: statements)
    | s =>
      match newline? s with
      | some s => statements? fuel s
      | none => do
        let (statement, s) ← assignment? s
        let s ← lineEnd? s
        let statements ← statements? fuel s
        some (statement :: statements)

/-- The fields of the table under a path changed. Tables on the way are made if they are missing,
and of a list of tables the last is taken. -/
def within (f : List (String × Node) → Option (List (String × Node))) :
    Path → List (String × Node) → Option (List (String × Node))
  | [], fields => f fields
  | name :: rest, fields =>
    alter name (fun
      | none => (within f rest []).map (.table true false)
      | some (.table isOpen dotted inner) => (within f rest inner).map (.table isOpen dotted)
      | some (.tables items) =>
        match items.getLast? with
        | some (.table isOpen dotted inner) =>
          (within f rest inner).map fun inner =>
            .tables (items.dropLast ++ [.table isOpen dotted inner])
        | _ => none
      | some (.value _) => none) fields

/-- The table under a path opened by a header. -/
def openTable (path : Path) : List (String × Node) → Option (List (String × Node)) :=
  match path.getLast? with
  | none => fun _ => none
  | some name =>
    within (alter name fun
      | none => some (.table false false [])
      | some (.table true false inner) => some (.table false false inner)
      | some _ => none) path.dropLast

/-- A table added to the list of tables under a path. -/
def addTable (path : Path) : List (String × Node) → Option (List (String × Node)) :=
  match path.getLast? with
  | none => fun _ => none
  | some name =>
    within (alter name fun
      | none => some (.tables [.table false false []])
      | some (.tables items) => some (.tables (items ++ [.table false false []]))
      | some _ => none) path.dropLast

/-- The fields of the whole document after the statements, `current` being the table opened
last. -/
def build (current : Path) (fields : List (String × Node)) :
    List Statement → Option (List (String × Node))
  | [] => some fields
  | .header path :: statements => do build path (← openTable path fields) statements
  | .listHeader path :: statements => do build path (← addTable path fields) statements
  | .assignment path value :: statements => do
    build current (← within (assign value path) current fields) statements

/-- The value that a document denotes; a byte order mark at its front is left out. -/
def parse? (text : String) : Option Data := do
  let s := match text.toList with
    | '\ufeff' :: s => s
    | s => s
  let statements ← statements? (s.length + 1) s
  let fields ← build [] [] statements
  some (.table (Node.fieldsToData fields))

end Broadcast.Toml
