import Broadcast.Data
import Broadcast.Text.Numeral

/-!
# Reading JSON

A reader takes a value off the front of a text and returns it with the rest. The text of a value
nests no deeper than it is long, which bounds the recursion.
-/

namespace Broadcast.Json

/-- The blanks of the notation. -/
def isSpace (c : Char) : Bool :=
  c == ' ' || c == '\n' || c == '\t' || c == '\r'

/-- The text without the blanks at its front. -/
def skipSpace (s : List Char) : List Char :=
  s.dropWhile isSpace

/-- The value of a hexadecimal digit. -/
def hexValue? (c : Char) : Option Nat :=
  if c.isDigit then some (c.toNat - '0'.toNat)
  else if 'a' ≤ c ∧ c ≤ 'f' then some (c.toNat - 'a'.toNat + 10)
  else if 'A' ≤ c ∧ c ≤ 'F' then some (c.toNat - 'A'.toNat + 10)
  else none

/-- The number of four hexadecimal digits. -/
def hex4? (a b c d : Char) : Option Nat := do
  let a ← hexValue? a
  let b ← hexValue? b
  let c ← hexValue? c
  let d ← hexValue? d
  some (((a * 16 + b) * 16 + c) * 16 + d)

/-- The character of an escape with one letter. -/
def simpleEscape? : Char → Option Char
  | '"' => some '"'
  | '\\' => some '\\'
  | '/' => some '/'
  | 'b' => some '\x08'
  | 'f' => some '\x0c'
  | 'n' => some '\n'
  | 'r' => some '\r'
  | 't' => some '\t'
  | _ => none

/-- The code unit is the first half of a surrogate pair. -/
def isHighSurrogate (n : Nat) : Bool :=
  0xD800 ≤ n && n ≤ 0xDBFF

/-- The code unit is the second half of a surrogate pair. -/
def isLowSurrogate (n : Nat) : Bool :=
  0xDC00 ≤ n && n ≤ 0xDFFF

/-- The character of a surrogate pair. -/
def ofSurrogates (high low : Nat) : Char :=
  Char.ofNat (0x10000 + (high - 0xD800) * 0x400 + (low - 0xDC00))

/-- A piece of a written text: a character, or a code unit given by its number. -/
inductive Piece
  | char (c : Char)
  | unit (n : Nat)

/-- The pieces up to the closing quotation mark, and the text behind it. -/
def pieces? : List Char → Option (List Piece × List Char)
  | '"' :: s => some ([], s)
  | '\\' :: 'u' :: a :: b :: c :: d :: s => do
    let n ← hex4? a b c d
    let (pieces, s) ← pieces? s
    some (.unit n :: pieces, s)
  | '\\' :: e :: s => do
    let c ← simpleEscape? e
    let (pieces, s) ← pieces? s
    some (.char c :: pieces, s)
  | c :: s => do
    if c.toNat < 32 ∨ c = '\\' then none
    let (pieces, s) ← pieces? s
    some (.char c :: pieces, s)
  | [] => none

/-- The characters of pieces; half a surrogate pair on its own has none. -/
def joined? : List Piece → Option (List Char)
  | [] => some []
  | .char c :: pieces => (joined? pieces).map (c :: ·)
  | .unit n :: pieces =>
    if isHighSurrogate n then
      match pieces with
      | .unit low :: pieces =>
        if isLowSurrogate low then (joined? pieces).map (ofSurrogates n low :: ·) else none
      | _ => none
    else if isLowSurrogate n then
      none
    else
      (joined? pieces).map (Char.ofNat n :: ·)

/-- The digits at the front of a text, of which there is at least one. -/
def digits? (s : List Char) : Option (List Char × List Char) :=
  let digits := s.takeWhile Char.isDigit
  if digits = [] then none else some (digits, s.dropWhile Char.isDigit)

/-- The whole part of a number: zero, or digits that do not start with zero. -/
def whole? : List Char → Option (List Char × List Char)
  | '0' :: s =>
    match s with
    | [] => some (['0'], [])
    | c :: _ => if c.isDigit then none else some (['0'], s)
  | s => digits? s

/-- The fraction of a number, empty if there is no dot. -/
def fraction? : List Char → Option (List Char × List Char)
  | '.' :: s => (digits? s).map fun (digits, s) => ('.' :: digits, s)
  | s => some ([], s)

/-- The exponent of a number, empty if there is no letter for it. -/
def exponent? : List Char → Option (List Char × List Char)
  | e :: sign :: s =>
    if e = 'e' ∨ e = 'E' then
      if sign = '+' ∨ sign = '-' then
        (digits? s).map fun (digits, s) => (e :: sign :: digits, s)
      else
        (digits? (sign :: s)).map fun (digits, s) => (e :: digits, s)
    else
      some ([], e :: sign :: s)
  | [e] => if e = 'e' ∨ e = 'E' then none else some ([], [e])
  | [] => some ([], [])

/-- The number at the front of a text. It is an integer if it has neither fraction nor exponent;
minus zero is not one. -/
def number? (s : List Char) : Option (Data × List Char) := do
  let (negative, s) := match s with
    | '-' :: s => (true, s)
    | s => (false, s)
  let (whole, s) ← whole? s
  let (fraction, s) ← fraction? s
  let (exponent, s) ← exponent? s
  let magnitude := Text.ofDigits whole
  let value :=
    if fraction = [] ∧ exponent = [] ∧ ¬(negative ∧ magnitude = 0) then
      Data.int (if negative then -magnitude else magnitude)
    else
      Data.real (String.ofList ((if negative then ['-'] else []) ++ whole ++ fraction ++ exponent))
  some (value, s)

/-- The text behind a given word. -/
def word? (value : Data) : (word s : List Char) → Option (Data × List Char)
  | [], s => some (value, s)
  | w :: word, c :: s => if w = c then word? value word s else none
  | _ :: _, [] => none

/-- Fields that all have a name with characters. -/
def named? (fields : List (Option String × Data)) : Option (List (String × Data)) :=
  fields.mapM fun (name, value) => name.map fun name => (name, value)

mutual

/-- The value at the front of a text, behind blanks. -/
def value? : (fuel : Nat) → List Char → Option (Data × List Char)
  | 0, _ => none
  | fuel + 1, s =>
    match skipSpace s with
    | '"' :: s =>
      (pieces? s).map fun (pieces, s) =>
        (match joined? pieces with
          | some chars => .text (String.ofList chars)
          | none => .garbled, s)
    | '[' :: s =>
      match skipSpace s with
      | ']' :: s => some (.list [], s)
      | s => (items? fuel s).map fun (items, s) => (.list items, s)
    | '\x7b' :: s =>
      match skipSpace s with
      | '\x7d' :: s => some (.table [], s)
      | s => (fields? fuel s).map fun (fields, s) =>
        ((named? fields).elim .garbled .table, s)
    | 't' :: s => word? (.bool true) "rue".toList s
    | 'f' :: s => word? (.bool false) "alse".toList s
    | 'n' :: s => word? .null "ull".toList s
    | s => number? s

/-- The items of a list up to its closing bracket; there is at least one. -/
def items? : (fuel : Nat) → List Char → Option (List Data × List Char)
  | 0, _ => none
  | fuel + 1, s => do
    let (item, s) ← value? fuel s
    match skipSpace s with
    | ',' :: s =>
      let (items, s) ← items? fuel s
      some (item :: items, s)
    | ']' :: s => some ([item], s)
    | _ => none

/-- The fields of a table up to its closing brace; there is at least one. -/
def fields? : (fuel : Nat) → List Char → Option (List (Option String × Data) × List Char)
  | 0, _ => none
  | fuel + 1, s =>
    match skipSpace s with
    | '"' :: s => do
      let (pieces, s) ← pieces? s
      match skipSpace s with
      | ':' :: s =>
        let (value, s) ← value? fuel s
        let field := ((joined? pieces).map String.ofList, value)
        match skipSpace s with
        | ',' :: s =>
          let (fields, s) ← fields? fuel s
          some (field :: fields, s)
        | '\x7d' :: s => some ([field], s)
        | _ => none
      | _ => none
    | _ => none

end

/-- The value that a whole text denotes. -/
def parse? (text : String) : Option Data :=
  let s := text.toList
  match value? (2 * s.length + 1) s with
  | some (d, rest) => if skipSpace rest = [] then some d else none
  | none => none

end Broadcast.Json
