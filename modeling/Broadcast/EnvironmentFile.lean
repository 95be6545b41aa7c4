import Broadcast.FileTree
import Broadcast.Text.Alphanumeric
import Broadcast.Text.Blank

/-!
# Environment files

A file of lines `NAME=value` supplies variables that the environment does not have. A value may be
quoted over several lines, holds escapes, and refers to other variables. The lines are read up to
the first one that is malformed.
-/

namespace Broadcast.EnvironmentFile

/-! ## Lines -/

/-- How a reader of lines stands towards the next character. -/
inductive Posture
  | plain
  | blank
  | escape
  | strong
  | strongEscape
  | weak
  | weakEscape
  | comment
deriving DecidableEq, Repr

/-- The posture after a character outside quotes that begins nothing but a quote or an escape. -/
def Posture.opened (c : Char) : Posture :=
  if c = '\\' then escape
  else if c = '"' then weak
  else if c = '\'' then strong
  else plain

/-- The posture after a character. A comment begins only behind a blank. -/
def Posture.next (c : Char) : Posture → Posture
  | plain => if Text.isBlank c ∧ c ≠ '\n' ∧ c ≠ '\r' then blank else opened c
  | blank => if c = '#' then comment else opened c
  | escape => plain
  | weak => if c = '\\' then weakEscape else if c = '"' then plain else weak
  | weakEscape => weak
  | strong => if c = '\\' then strongEscape else if c = '\'' then plain else strong
  | strongEscape => strong
  | comment => comment

/-- The part of a text in front of a comment, and the posture at its end. -/
def uncommented : Posture → List Char → List Char × Posture
  | posture, [] => ([], posture)
  | posture, c :: s =>
    match posture.next c with
    | .comment => ([], .comment)
    | posture =>
      let (kept, last) := uncommented posture s
      (c :: kept, last)

/-- The first character behind blanks is that of a comment, or there is none. -/
def isIdle (s : List Char) : Bool :=
  match s.dropWhile Text.isBlank with
  | [] | '#' :: _ => true
  | _ => false

/-- Whole lines out of pieces that end at line breaks: a piece that ends within quotes or behind a
blank goes on with the next one. Where the pieces cannot be read, or end too early, stands
`none`. -/
def joined (start : List Char) (posture : Posture) :
    List (Option (List Char)) → List (Option (List Char))
  | [] => if posture = .plain then [] else [none]
  | none :: _ => [none]
  | some piece :: pieces =>
    if (start ++ piece).dropWhile Text.isBlank |>.head? |>.any (· = '#') then
      joined [] .plain pieces
    else
      match uncommented posture piece with
      | (kept, .comment) => some (start ++ kept) :: joined [] .plain pieces
      | (_, .plain) => some (start ++ piece) :: joined [] .plain pieces
      | (_, posture) => joined (start ++ piece) posture pieces

/-! ## Values -/

/-- How a reader of values stands towards the next character. A name of a variable is under way
bare or in braces. -/
inductive Mode
  | plain
  | escape
  | strong
  | name (start : List Char)
  | braced (start : List Char)
  | ending
deriving DecidableEq, Repr

/-- The text that stands for a name. -/
def expansion (env : Environment) (name : List Char) : List Char :=
  ((env (String.ofList name)).getD "").toList

/-- The value that a text denotes, read on from a mode; `weak` holds between double quotes. -/
def value? (env : Environment) (weak : Bool) : Mode → List Char → Option (List Char)
  | .name name, [] => if weak then none else some (expansion env name)
  | .strong, [] | .braced _, [] => none
  | _, [] => if weak then none else some []
  | .ending, c :: s =>
    if c = ' ' ∨ c = '\t' then value? env weak .ending s
    else if c = '#' then some []
    else none
  | .escape, c :: s =>
    if c ∈ ['\\', '\'', '"', '$', ' '] then (value? env weak .plain s).map (c :: ·)
    else if c = 'n' then (value? env weak .plain s).map ('\n' :: ·)
    else none
  | .strong, c :: s =>
    if c = '\'' then value? env weak .plain s
    else (value? env weak .strong s).map (c :: ·)
  | .name name, c :: s =>
    if Text.isAlphanumeric c then value? env weak (.name (name ++ [c])) s
    else if c = '\x7b' ∧ name = [] then value? env weak (.braced []) s
    else if c = '$' then (value? env weak (.name []) s).map (expansion env name ++ ·)
    else (value? env weak .plain s).map (expansion env name ++ c :: ·)
  | .braced name, c :: s =>
    if c = '\x7d' then (value? env weak .plain s).map (expansion env name ++ ·)
    else value? env weak (.braced (name ++ [c])) s
  | .plain, c :: s =>
    if c = '$' then value? env weak (.name []) s
    else if c = '\\' then value? env weak .escape s
    else if c = '"' then value? env (!weak) .plain s
    else if weak then (value? env weak .plain s).map (c :: ·)
    else if c = '\'' then value? env weak .strong s
    else if c = ' ' ∨ c = '\t' then value? env weak .ending s
    else (value? env weak .plain s).map (c :: ·)

/-! ## Entries -/

/-- A character that a name may begin with. -/
def isInitial (c : Char) : Bool :=
  c.isAlpha || c = '_'

/-- A character of a name. -/
def isNameChar (c : Char) : Bool :=
  c.isAlphanum || c = '_' || c = '.'

/-- The name at the start of a text, and what follows it and the blanks behind it. -/
def name? (s : List Char) : Option (List Char × List Char) :=
  if s.head?.any isInitial then
    some (s.takeWhile isNameChar, (s.dropWhile isNameChar).dropWhile Text.isBlank)
  else
    none

/-- A name and the text behind the sign of equality that follows it. The word `export` may stand
in front of a name, or be a name. -/
def split? (s : List Char) : Option (List Char × List Char) :=
  match name? s with
  | some (name, '=' :: rest) => some (name, rest)
  | some (name, rest) =>
    if name = "export".toList then
      match name? rest with
      | some (name, '=' :: rest) => some (name, rest)
      | _ => none
    else
      none
  | none => none

/-- The variable that a line which is not idle sets. -/
def assignment? (env : Environment) (line : List Char) : Option (String × String) := do
  let (name, rest) ← split? (Text.trim line)
  let value ← if isIdle rest then some []
    else value? env false .plain (rest.dropWhile Text.isBlank)
  some (String.ofList name, String.ofList value)

/-- The environment with a variable that it has if it did not have it before. -/
def supply (env : Environment) (name value : String) : Environment := fun n =>
  (env n).orElse fun _ => if n = name then some value else none

/-- The environment after the lines of a file. -/
def read (env : Environment) : List (Option (List Char)) → Environment
  | [] | none :: _ => env
  | some line :: lines =>
    if isIdle line then
      read env lines
    else
      match assignment? env line with
      | some (name, value) => read (supply env name value) lines
      | none => env

/-! ## Files -/

/-- Bytes cut behind each line break. -/
def pieces : List UInt8 → List (List UInt8)
  | [] => []
  | b :: bytes =>
    if b = 10 then
      [b] :: pieces bytes
    else
      match pieces bytes with
      | [] => [[b]]
      | p :: ps => (b :: p) :: ps

/-- The bytes without a byte order mark in front. -/
def unmarked : List UInt8 → List UInt8
  | 0xEF :: 0xBB :: 0xBF :: bytes => bytes
  | bytes => bytes

/-- The lines of a file. -/
def lines (content : ByteArray) : List (Option (List Char)) :=
  joined [] .plain ((pieces (unmarked content.data.toList)).map fun piece =>
    (String.fromUTF8? ⟨piece.toArray⟩).map String.toList)

/-- The names that a file may ask an environment for. -/
def mentioned (content : ByteArray) : List String :=
  let text := (lines content).flatMap fun line => line.getD [] ++ ['\n']
  (runs isNameChar text ++ runs Text.isAlphanumeric text).map String.ofList
where
  /-- The maximal runs of characters of a class. -/
  runs (isPart : Char → Bool) (text : List Char) : List (List Char) :=
    Text.words (text.map fun c => if isPart c then c else ' ')

/-- The place of the file. -/
def path : String := ".env"

/-- The environment with what the file supplies, if there is one. -/
def load (files : FileView) (env : Environment) : Environment :=
  match files path with
  | some (.file content) => read env (lines content)
  | _ => env

end Broadcast.EnvironmentFile
