/-!
# What a terminal shows

A terminal takes some characters of a text as commands: control characters, and the sequences that
begin with an escape character. The others are what it shows. Main statement: a text without
control characters is shown as it is.
-/

namespace Broadcast.Text

/-- What a terminal is in the middle of: nothing, a sequence of one of several forms, a string that
belongs to a sequence, or the title of a window. -/
inductive Terminal
  | ground
  | escape
  | short
  | parameters
  | device
  | deviceParameters
  | deviceSigns
  | payload
  | title
deriving DecidableEq, Repr

namespace Terminal

/-- Blanks are shown also where they are control characters. -/
def isShownControl (c : Char) : Bool :=
  c = '\t' || c = '\n' || c = '\x0c' || c = '\r'

/-- The character is shown outside of sequences. -/
def isShown (c : Char) : Bool :=
  (0x20 ≤ c.toNat && c.toNat ≠ 0x7F) || isShownControl c

/-- The character has a number in a range. -/
def isWithin (first last : Nat) (c : Char) : Bool :=
  first ≤ c.toNat && c.toNat ≤ last

/-- The character ends a payload, by one of its bytes. -/
def endsPayload (c : Char) : Bool :=
  (String.utf8EncodeChar c).contains 0x9C

/-- What a character that does not break off every sequence does in the middle of one: what the
terminal is in the middle of then, or nothing if the sequence goes on as it was. -/
def advance? (c : Char) : Terminal → Option Terminal
  | ground => none
  | escape =>
    if c = '[' then some parameters
    else if c = ']' then some title
    else if c = 'P' then some device
    else if c = 'X' ∨ c = '^' ∨ c = '_' then some payload
    else if isWithin 0x20 0x2F c then some short
    else if isWithin 0x30 0x7E c then some ground
    else none
  | short => if isWithin 0x30 0x7E c then some ground else none
  | parameters => if isWithin 0x40 0x7E c then some ground else none
  | device =>
    if isWithin 0x20 0x2F c then some deviceSigns
    else if isWithin 0x30 0x3F c then some deviceParameters
    else if isWithin 0x40 0x7E c then some payload
    else none
  | deviceParameters =>
    if isWithin 0x20 0x2F c then some deviceSigns
    else if isWithin 0x3C 0x7E c then some payload
    else none
  | deviceSigns => if isWithin 0x30 0x7E c then some payload else none
  | payload => if endsPayload c then some ground else none
  | title => if c = '\x07' then some ground else none

/-- The terminal is in the middle of a sequence that a blank breaks off. -/
def yieldsToBlanks : Terminal → Bool
  | escape | short | parameters => true
  | _ => false

/-- What a terminal shows of a text. -/
def shown : Terminal → List Char → List Char
  | _, [] => []
  | t, c :: s =>
    if c = '\x1b' then shown escape s
    else if c = '\x18' ∨ c = '\x1a' then shown ground s
    else if t = ground then if isShown c then c :: shown ground s else shown ground s
    else if t.yieldsToBlanks ∧ isShownControl c then c :: shown ground s
    else shown ((t.advance? c).getD t) s

end Terminal

end Broadcast.Text
