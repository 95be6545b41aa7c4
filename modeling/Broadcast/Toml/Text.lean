/-!
# Texts of TOML

A text stands between quotation marks or apostrophes, on one line or, between three of them, on
several. Quotation marks admit escapes, apostrophes do not.
-/

namespace Broadcast.Toml

/-- The blanks inside a line. -/
def isBlank (c : Char) : Bool :=
  c == ' ' || c == '\t'

/-- The text without the blanks at its front. -/
def skipBlanks (s : List Char) : List Char :=
  s.dropWhile isBlank

/-- The character may stand for itself inside a text or a comment. -/
def isPlain (c : Char) : Bool :=
  c == '\t' || (32 ≤ c.toNat && c.toNat ≠ 127)

/-- The text behind an end of line. -/
def newline? : List Char → Option (List Char)
  | '\n' :: s => some s
  | '\r' :: '\n' :: s => some s
  | _ => none

/-- The value of a hexadecimal digit. -/
def hexValue? (c : Char) : Option Nat :=
  if c.isDigit then some (c.toNat - '0'.toNat)
  else if 'a' ≤ c ∧ c ≤ 'f' then some (c.toNat - 'a'.toNat + 10)
  else if 'A' ≤ c ∧ c ≤ 'F' then some (c.toNat - 'A'.toNat + 10)
  else none

/-- The character whose code the hexadecimal digits write, if the code is that of a character. -/
def charOfHex? (digits : List Char) : Option Char := do
  let values ← digits.mapM hexValue?
  let code := values.foldl (fun n v => n * 16 + v) 0
  if code.isValidChar then some (Char.ofNat code) else none

/-- The character of an escape with one letter. -/
def simpleEscape? : Char → Option Char
  | 'b' => some '\x08'
  | 't' => some '\t'
  | 'n' => some '\n'
  | 'f' => some '\x0c'
  | 'r' => some '\r'
  | '"' => some '"'
  | '\\' => some '\\'
  | _ => none

/-- A character put in front of the text that a reader returned. -/
def push (c : Char) (read : Option (List Char × List Char)) : Option (List Char × List Char) :=
  read.map fun (text, s) => (c :: text, s)

/-- The text up to the closing quotation mark on the same line, and what follows. -/
def basic? : List Char → Option (List Char × List Char)
  | '"' :: s => some ([], s)
  | '\\' :: 'u' :: a :: b :: c :: d :: s =>
    (charOfHex? [a, b, c, d]).bind fun ch => push ch (basic? s)
  | '\\' :: 'U' :: a :: b :: c :: d :: e :: f :: g :: h :: s =>
    (charOfHex? [a, b, c, d, e, f, g, h]).bind fun ch => push ch (basic? s)
  | '\\' :: e :: s => (simpleEscape? e).bind fun ch => push ch (basic? s)
  | c :: s => if isPlain c ∧ c ≠ '\\' then push c (basic? s) else none
  | [] => none

/-- The text up to the closing apostrophe on the same line, and what follows. -/
def literal? : List Char → Option (List Char × List Char)
  | '\'' :: s => some ([], s)
  | c :: s => if isPlain c then push c (literal? s) else none
  | [] => none

/-- A backslash stands here at the end of its line. -/
def endsLine (s : List Char) : Bool :=
  (newline? (skipBlanks s)).isSome

/-- The text up to three closing quotation marks, and what follows. Up to two marks in front of
them belong to the text. While `skipping`, blanks and ends of lines are left out. -/
def multiBasic? (skipping : Bool) : List Char → Option (List Char × List Char)
  | '"' :: '"' :: '"' :: s =>
    match s with
    | '"' :: '"' :: '"' :: _ => none
    | '"' :: '"' :: s => some (['"', '"'], s)
    | '"' :: s => some (['"'], s)
    | s => some ([], s)
  | '\\' :: 'u' :: a :: b :: c :: d :: s =>
    (charOfHex? [a, b, c, d]).bind fun ch => push ch (multiBasic? false s)
  | '\\' :: 'U' :: a :: b :: c :: d :: e :: f :: g :: h :: s =>
    (charOfHex? [a, b, c, d, e, f, g, h]).bind fun ch => push ch (multiBasic? false s)
  | '\\' :: '\r' :: '\n' :: s => multiBasic? true s
  | '\\' :: e :: s =>
    if endsLine (e :: s) then
      multiBasic? true s
    else
      (simpleEscape? e).bind fun ch => push ch (multiBasic? false s)
  | '\r' :: '\n' :: s => if skipping then multiBasic? true s else push '\n' (multiBasic? false s)
  | c :: s =>
    if c = '\n' ∨ isBlank c then
      if skipping then multiBasic? true s else push c (multiBasic? false s)
    else if isPlain c ∧ c ≠ '\\' then
      push c (multiBasic? false s)
    else
      none
  | [] => none

/-- The text up to three closing apostrophes, and what follows. Up to two apostrophes in front of
them belong to the text. -/
def multiLiteral? : List Char → Option (List Char × List Char)
  | '\'' :: '\'' :: '\'' :: s =>
    match s with
    | '\'' :: '\'' :: '\'' :: _ => none
    | '\'' :: '\'' :: s => some (['\'', '\''], s)
    | '\'' :: s => some (['\''], s)
    | s => some ([], s)
  | '\r' :: '\n' :: s => push '\n' (multiLiteral? s)
  | c :: s => if c = '\n' ∨ isPlain c then push c (multiLiteral? s) else none
  | [] => none

/-- The text without an end of line at its very front. -/
def dropNewline (s : List Char) : List Char :=
  (newline? s).getD s

/-- The text written at the front of `s`, on one line. -/
def lineText? : List Char → Option (List Char × List Char)
  | '"' :: s => basic? s
  | '\'' :: s => literal? s
  | _ => none

/-- The text written at the front of `s`. -/
def text? : List Char → Option (List Char × List Char)
  | '"' :: '"' :: '"' :: s => multiBasic? false (dropNewline s)
  | '\'' :: '\'' :: '\'' :: s => multiLiteral? (dropNewline s)
  | s => lineText? s

end Broadcast.Toml
