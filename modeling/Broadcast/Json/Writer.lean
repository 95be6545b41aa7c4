import Broadcast.Data
import Broadcast.Text.Numeral

/-!
# Writing JSON

The compact form has no blanks. The indented form gives every item and every field a line of its
own, two spaces deeper than its container.
-/

namespace Broadcast.Json

/-- The digit of a number below sixteen, with small letters from ten on. -/
def hexDigit (n : Nat) : Char :=
  if n < 10 then Char.ofNat ('0'.toNat + n) else Char.ofNat ('a'.toNat + (n - 10))

/-- A character inside a written text. -/
def escaped (c : Char) : List Char :=
  if c = '"' then ['\\', '"']
  else if c = '\\' then ['\\', '\\']
  else if c = '\n' then ['\\', 'n']
  else if c = '\r' then ['\\', 'r']
  else if c = '\t' then ['\\', 't']
  else if c = '\x08' then ['\\', 'b']
  else if c = '\x0c' then ['\\', 'f']
  else if c.toNat < 32 then
    ['\\', 'u', '0', '0', hexDigit (c.toNat / 16), hexDigit (c.toNat % 16)]
  else [c]

/-- A text between quotation marks. -/
def quoted (s : String) : List Char :=
  '"' :: s.toList.flatMap escaped ++ ['"']

/-- A value without inner values. Only integers, truth values, texts and `null` have a written
form of their own; a number kept as text is written as it was, and so is a date between quotes. -/
def leaf : Data → List Char
  | .bool true => "true".toList
  | .bool false => "false".toList
  | .int z => (toString z).toList
  | .real text => text.toList
  | .text s => quoted s
  | .date text => quoted text
  | _ => "null".toList

mutual

/-- The compact form of a value. -/
def compact : Data → List Char
  | .list items => '[' :: compactItems items ++ [']']
  | .table fields => '\x7b' :: compactFields fields ++ ['\x7d']
  | d => leaf d

/-- The compact forms of items, with commas between them. -/
def compactItems : List Data → List Char
  | [] => []
  | [d] => compact d
  | d :: ds => compact d ++ ',' :: compactItems ds

/-- The compact forms of fields, with commas between them. -/
def compactFields : List (String × Data) → List Char
  | [] => []
  | [(name, d)] => quoted name ++ ':' :: compact d
  | (name, d) :: fields => quoted name ++ ':' :: compact d ++ ',' :: compactFields fields

end

/-- A new line at a depth. -/
def newline (depth : Nat) : List Char :=
  '\n' :: List.replicate (2 * depth) ' '

mutual

/-- The indented form of a value that stands at a depth. -/
def indented (depth : Nat) : Data → List Char
  | .list [] => ['[', ']']
  | .list items => '[' :: indentedItems (depth + 1) items ++ newline depth ++ [']']
  | .table [] => ['\x7b', '\x7d']
  | .table fields => '\x7b' :: indentedFields (depth + 1) fields ++ newline depth ++ ['\x7d']
  | d => leaf d

/-- The indented forms of items, each on its own line. -/
def indentedItems (depth : Nat) : List Data → List Char
  | [] => []
  | [d] => newline depth ++ indented depth d
  | d :: ds => newline depth ++ indented depth d ++ ',' :: indentedItems depth ds

/-- The indented forms of fields, each on its own line. -/
def indentedFields (depth : Nat) : List (String × Data) → List Char
  | [] => []
  | [(name, d)] => newline depth ++ quoted name ++ ':' :: ' ' :: indented depth d
  | (name, d) :: fields =>
    newline depth ++ quoted name ++ ':' :: ' ' :: indented depth d ++
      ',' :: indentedFields depth fields

end

/-- The compact text of a value. -/
def render (d : Data) : String :=
  String.ofList (compact d)

/-- The indented text of a value. -/
def renderIndented (d : Data) : String :=
  String.ofList (indented 0 d)

end Broadcast.Json
