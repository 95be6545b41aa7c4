import Broadcast.Text.Blank
import Broadcast.Text.Numeral

/-!
# Moments of universal time

A moment is written as RFC 3339 has it, with as many fraction digits as it needs out of none,
three, six and nine. A reader accepts any distance from universal time below a day, and blanks
between the parts.
-/

namespace Broadcast

/-- A moment of universal time by the calendar; second 60 is a leap second. -/
structure Timestamp where
  year : Int
  month : Nat
  day : Nat
  hour : Nat
  minute : Nat
  second : Nat
  nano : Nat
deriving DecidableEq, Repr, Inhabited

namespace Timestamp

/-- The moment from which time is counted. -/
def epoch : Timestamp := ⟨1970, 1, 1, 0, 0, 0, 0⟩

/-- The days of a month. -/
def daysIn (year : Int) (month : Nat) : Nat :=
  if month = 2 then
    if year % 4 = 0 ∧ (year % 100 ≠ 0 ∨ year % 400 = 0) then 29 else 28
  else if month = 4 ∨ month = 6 ∨ month = 9 ∨ month = 11 then 30
  else 31

/-- The years that the calendar reaches. -/
def reachesYear (year : Int) : Bool :=
  -262143 ≤ year && year ≤ 262142

/-- All parts of a moment lie in their ranges. -/
def isValid (t : Timestamp) : Bool :=
  reachesYear t.year && 1 ≤ t.month && t.month ≤ 12 && 1 ≤ t.day &&
    t.day ≤ daysIn t.year t.month && t.hour < 24 && t.minute < 60 && t.second ≤ 60 &&
    t.nano < 1000000000

/-- The same time on the day before. -/
def dayBefore (t : Timestamp) : Timestamp :=
  if 1 < t.day then { t with day := t.day - 1 }
  else if 1 < t.month then
    { t with month := t.month - 1, day := daysIn t.year (t.month - 1) }
  else { t with year := t.year - 1, month := 12, day := 31 }

/-- The same time on the day after. -/
def dayAfter (t : Timestamp) : Timestamp :=
  if t.day < daysIn t.year t.month then { t with day := t.day + 1 }
  else if t.month < 12 then { t with month := t.month + 1, day := 1 }
  else { t with year := t.year + 1, month := 1, day := 1 }

/-- The moment of universal time at which a clock that is ahead by `offset` minutes shows `t`. -/
def ofLocal (t : Timestamp) (offset : Int) : Timestamp :=
  let minutes : Int := t.hour * 60 + t.minute - offset
  let ofDay := (minutes % 1440).toNat
  let t' := { t with hour := ofDay / 60, minute := ofDay % 60 }
  if minutes < 0 then t'.dayBefore
  else if 1440 ≤ minutes then t'.dayAfter
  else t'

/-- A year with four digits, and with a sign too if it needs more or is negative. -/
def renderYear (year : Int) : String :=
  if 0 ≤ year ∧ year ≤ 9999 then Text.padded 4 year.toNat
  else (if year < 0 then "-" else "+") ++ Text.padded 4 year.natAbs

/-- The fraction of a second with the fewest digits out of none, three, six and nine. -/
def renderFraction (nano : Nat) : String :=
  if nano = 0 then ""
  else if nano % 1000000 = 0 then "." ++ Text.padded 3 (nano / 1000000)
  else if nano % 1000 = 0 then "." ++ Text.padded 6 (nano / 1000)
  else "." ++ Text.padded 9 nano

/-- The written form of a moment. -/
def render (t : Timestamp) : String :=
  renderYear t.year ++ "-" ++ Text.padded 2 t.month ++ "-" ++ Text.padded 2 t.day ++ "T" ++
    Text.padded 2 t.hour ++ ":" ++ Text.padded 2 t.minute ++ ":" ++ Text.padded 2 t.second ++
    renderFraction t.nano ++ "Z"

/-- The text without the blanks at its front. -/
def skipBlanks (s : List Char) : List Char :=
  s.dropWhile Text.isBlank

/-- The number of up to `width` digits behind blanks, and the rest. -/
def number? (width : Nat) (s : List Char) : Option (Nat × List Char) :=
  let s := skipBlanks s
  let digits := (s.take width).takeWhile Char.isDigit
  if digits = [] then none else some (Text.ofDigits digits, s.drop digits.length)

/-- The year, which may have more than four digits behind a sign. -/
def year? (s : List Char) : Option (Int × List Char) :=
  match skipBlanks s with
  | '-' :: s => signed (-1) s
  | '+' :: s => signed 1 s
  | s => (number? 4 s).map fun (n, s) => ((n : Int), s)
where
  /-- The number behind a sign; blanks do not separate them. -/
  signed (sign : Int) (s : List Char) : Option (Int × List Char) :=
    let digits := s.takeWhile Char.isDigit
    if digits = [] then none
    else some (sign * Text.ofDigits digits, s.dropWhile Char.isDigit)

/-- The text behind a given character. -/
def behind? (c : Char) : List Char → Option (List Char)
  | d :: s => if c = d then some s else none
  | [] => none

/-- The text behind a separator with blanks in front of it. -/
def separator? (c : Char) (s : List Char) : Option (List Char) :=
  behind? c (skipBlanks s)

/-- The nanoseconds written by a fraction, of which nine digits count. -/
def fraction? : List Char → Option (Nat × List Char)
  | '.' :: s =>
    let digits := s.takeWhile Char.isDigit
    let kept := digits.take 9
    if digits = [] then none
    else some (Text.ofDigits kept * 10 ^ (9 - kept.length), s.dropWhile Char.isDigit)
  | s => some (0, s)

/-- Minutes of an hour written in two digits. -/
def twoDigits? : List Char → Option (Nat × List Char)
  | a :: b :: s =>
    if a.isDigit ∧ b.isDigit then some (Text.ofDigits [a, b], s) else none
  | _ => none

/-- The distance from universal time in minutes. -/
def offset? (s : List Char) : Option (Int × List Char) :=
  match s with
  | 'Z' :: s | 'z' :: s => some (0, s)
  | '+' :: s => signed 1 s
  | '-' :: s | '−' :: s => signed (-1) s
  | a :: b :: c :: s =>
    if [a, b, c].map Char.toLower = ['u', 't', 'c'] then some (0, s) else none
  | _ => none
where
  /-- Hours and minutes behind a sign. -/
  signed (sign : Int) (s : List Char) : Option (Int × List Char) := do
    let (hours, s) ← twoDigits? s
    let (minutes, s) ← twoDigits? (s.dropWhile fun c => c == ':' || Text.isBlank c)
    if 23 < hours ∨ 59 < minutes then none
    some (sign * (hours * 60 + minutes : Nat), s)

/-- The moment that a text denotes. -/
def parse? (text : String) : Option Timestamp := do
  let (year, s) ← year? text.toList
  let (month, s) ← number? 2 (← separator? '-' s)
  let (day, s) ← number? 2 (← separator? '-' s)
  let s ← behind? 'T' s <|> behind? 't' s <|> behind? ' ' s
  let (hour, s) ← number? 2 s
  let (minute, s) ← number? 2 (← separator? ':' s)
  let (second, s) ← number? 2 (← separator? ':' s)
  let (nano, s) ← fraction? s
  let (offset, s) ← offset? (skipBlanks s)
  let t : Timestamp := ⟨year, month, day, hour, minute, second, nano⟩
  if ¬t.isValid ∨ skipBlanks s ≠ [] then none
  let t := t.ofLocal offset
  if t.isValid then some t else none

end Timestamp

end Broadcast
