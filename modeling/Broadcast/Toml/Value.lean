import Broadcast.Toml.Scalar

/-!
# Keys and values of TOML

A key is a path of names with dots between them. Values nest at most to a fixed depth.
-/

namespace Broadcast.Toml

/-- A path of names. -/
abbrev Path := List String

/-- The least depth of nesting that is refused, and the least number of names in a path that is. -/
def depthLimit : Nat := 80

/-- The character may stand in a name without quotes. -/
def isBare (c : Char) : Bool :=
  c.isAlphanum || c == '_' || c == '-'

/-- The name at the front of a text. -/
def name? (s : List Char) : Option (String × List Char) :=
  match s with
  | '"' :: _ | '\'' :: _ => (lineText? s).map fun (text, s) => (String.ofList text, s)
  | _ =>
    let bare := s.takeWhile isBare
    if bare = [] then none else some (String.ofList bare, s.dropWhile isBare)

/-- The names of a path, with the blanks around each of them. -/
def names? : (fuel : Nat) → List Char → Option (Path × List Char)
  | 0, _ => none
  | fuel + 1, s => do
    let (name, s) ← name? (skipBlanks s)
    match skipBlanks s with
    | '.' :: s =>
      let (names, s) ← names? fuel s
      some (name :: names, s)
    | s => some ([name], s)

/-- The path at the front of a text. -/
def path? (s : List Char) : Option (Path × List Char) :=
  (names? s.length s).filter fun (path, _) => path.length < depthLimit

/-- A comment at the front of a text is left out. -/
def skipComment : List Char → List Char
  | '#' :: s => s.dropWhile isPlain
  | s => s

/-- Blanks, ends of lines, and comments at the front of a text are left out; a comment has to end
with its line. -/
def skipLines : (fuel : Nat) → List Char → Option (List Char)
  | 0, s => some s
  | fuel + 1, s =>
    match skipBlanks s with
    | '#' :: s => (newline? (skipComment ('#' :: s))).bind (skipLines fuel)
    | s =>
      match newline? s with
      | some rest => skipLines fuel rest
      | none => some s

/-- A table under construction. It is `open` while its name has only been mentioned on the way to
another, and `dotted` if that was in the key of a value. -/
inductive Node
  | value (d : Data)
  | table (isOpen dotted : Bool) (fields : List (String × Node))
  | tables (items : List Node)

mutual

/-- The finished value of a node. -/
def Node.toData : Node → Data
  | .value d => d
  | .table _ _ fields => .table (Node.fieldsToData fields)
  | .tables items => .list (Node.itemsToData items)

/-- The finished values of fields. -/
def Node.fieldsToData : List (String × Node) → List (String × Data)
  | [] => []
  | (name, node) :: fields => (name, node.toData) :: Node.fieldsToData fields

/-- The finished values of items. -/
def Node.itemsToData : List Node → List Data
  | [] => []
  | node :: nodes => node.toData :: Node.itemsToData nodes

end

/-- The field of a name changed, or added behind the others if it was missing. -/
def alter (name : String) (f : Option Node → Option Node) :
    List (String × Node) → Option (List (String × Node))
  | [] => (f none).map fun node => [(name, node)]
  | (other, node) :: fields =>
    if other = name then (f (some node)).map fun node => (other, node) :: fields
    else (alter name f fields).map ((other, node) :: ·)

/-- The value put under a path of names in the fields of a table. Tables on the way are made if
they are missing; those that stand there must be open, and dotted where the value is put. Of a list
of tables the last is taken on the way. -/
def assign (value : Data) : Path → List (String × Node) → Option (List (String × Node))
  | [], _ => none
  | [name], fields =>
    alter name (fun
      | none => some (.value value)
      | some _ => none) fields
  | name :: rest, fields =>
    alter name (fun
      | none => (assign value rest []).map (.table true true)
      | some (.table true dotted inner) =>
        if rest.length = 1 ∧ !dotted then none
        else (assign value rest inner).map (.table true dotted)
      | some (.tables items) =>
        match items.getLast? with
        | some (.table isOpen dotted inner) =>
          if rest.length = 1 then none
          else (assign value rest inner).map fun inner =>
            .tables (items.dropLast ++ [.table isOpen dotted inner])
        | _ => none
      | some _ => none) fields

mutual

/-- The value at the front of a text. -/
def value? : (fuel depth : Nat) → List Char → Option (Data × List Char)
  | 0, _, _ => none
  | fuel + 1, depth, s =>
    match s with
    | '"' :: _ | '\'' :: _ => (text? s).map fun (text, s) => (.text (String.ofList text), s)
    | '[' :: s =>
      if depth ≤ 1 then none
      else (items? fuel (depth - 1) s).map fun (items, s) => (.list items, s)
    | '\x7b' :: s =>
      if depth ≤ 1 then none
      else
        match skipBlanks s with
        | '\x7d' :: s => some (.table [], s)
        | s => (fields? fuel (depth - 1) [] s).map fun (fields, s) =>
          (.table (Node.fieldsToData fields), s)
    | 't' :: 'r' :: 'u' :: 'e' :: s => some (.bool true, s)
    | 'f' :: 'a' :: 'l' :: 's' :: 'e' :: s => some (.bool false, s)
    | s => number? s

/-- The items of a list up to its closing bracket; a comma may stand behind the last. -/
def items? : (fuel depth : Nat) → List Char → Option (List Data × List Char)
  | 0, _, _ => none
  | fuel + 1, depth, s => do
    match ← skipLines (s.length + 1) s with
    | ']' :: s => some ([], s)
    | s =>
      let (item, s) ← value? fuel depth s
      match ← skipLines (s.length + 1) s with
      | ',' :: s =>
        let (items, s) ← items? fuel depth s
        some (item :: items, s)
      | ']' :: s => some ([item], s)
      | _ => none

/-- The fields of a table on one line, up to its closing brace, added to those read so far. -/
def fields? : (fuel depth : Nat) → List (String × Node) → List Char →
    Option (List (String × Node) × List Char)
  | 0, _, _, _ => none
  | fuel + 1, depth, fields, s => do
    let (path, s) ← path? s
    let s ← behind? '=' s
    let (value, s) ← value? fuel depth (skipBlanks s)
    let fields ← assign value path fields
    match skipBlanks s with
    | ',' :: s => fields? fuel depth fields s
    | '\x7d' :: s => some (fields, s)
    | _ => none

end

end Broadcast.Toml
