import Broadcast.Binary64
import Broadcast.Data
import Broadcast.Text.Numeral
import Broadcast.Toml.Text

/-!
# Numbers and dates of TOML

Each reader takes one value off the front of a text and returns it with the rest.
-/

namespace Broadcast.Toml

/-- Digits of a class at the front of a text, single underscores between them left out. -/
def digitRun? (isDigit : Char → Bool) : List Char → Option (List Char × List Char)
  | [] => none
  | c :: s =>
    if isDigit c then
      match s with
      | [] => some ([c], [])
      | '_' :: s => push c (digitRun? isDigit s)
      | d :: s => if isDigit d then push c (digitRun? isDigit (d :: s)) else some ([c], d :: s)
    else
      none

/-- A sign at the front of a text, and the rest. -/
def sign : List Char → Option Char × List Char
  | '+' :: s => (some '+', s)
  | '-' :: s => (some '-', s)
  | s => (none, s)

/-- The digits of a decimal integer: zero alone, or a run that does not start with it. -/
def decimal? : List Char → Option (List Char × List Char)
  | '0' :: s => some (['0'], s)
  | s => digitRun? Char.isDigit s

/-- The integer is one of 64 bits. -/
def int64? (z : Int) : Option Data :=
  if -(2 ^ 63) ≤ z ∧ z < 2 ^ 63 then some (.int z) else none

/-- An integer in a base other than ten, behind the letter of its base. -/
def based? (base : Nat) (isDigit : Char → Bool) (s : List Char) : Option (Data × List Char) := do
  let (digits, s) ← digitRun? isDigit s
  let values ← digits.mapM hexValue?
  let value ← int64? (values.foldl (fun n v => n * base + v) 0 : Nat)
  some (value, s)

/-- The integer at the front of a text. -/
def integer? : List Char → Option (Data × List Char)
  | '0' :: 'x' :: s => based? 16 (fun c => (hexValue? c).isSome) s
  | '0' :: 'o' :: s => based? 8 (fun c => '0' ≤ c && c ≤ '7') s
  | '0' :: 'b' :: s => based? 2 (fun c => c == '0' || c == '1') s
  | s => do
    let (sign, s) := sign s
    let (digits, s) ← decimal? s
    let magnitude : Int := Text.ofDigits digits
    let value ← int64? (if sign = some '-' then -magnitude else magnitude)
    some (value, s)

/-- The digits of a fraction behind a dot. -/
def fraction? : List Char → Option (List Char × List Char)
  | '.' :: s => digitRun? Char.isDigit s
  | _ => none

/-- The sign and digits of an exponent behind its letter. -/
def exponent? : List Char → Option ((Bool × List Char) × List Char)
  | e :: s =>
    if e = 'e' ∨ e = 'E' then
      let (sign, s) := sign s
      (digitRun? Char.isDigit s).map fun (digits, s) => ((sign = some '-', digits), s)
    else
      none
  | [] => none

/-- The decimal `digits · 10 ^ (exponent - places)` is too large for a floating point number. -/
def overflows (digits : List Char) (places : Nat) (exponent : Int) : Bool :=
  let significant := digits.dropWhile (· == '0')
  let leading : Int := significant.length - places + exponent
  if significant = [] ∨ leading < 309 then false
  else if 309 < leading then true
  else
    let value := Text.ofDigits significant
    let power := exponent - places
    (if 0 ≤ power then Binary64.ofRatio (value * 10 ^ power.toNat) 1
      else Binary64.ofRatio value (10 ^ (-power).toNat)) = .infinite

/-- The number with a fraction or an exponent at the front of a text. -/
def decimalFloat? (s : List Char) : Option (Data × List Char) := do
  let (sign, s) := sign s
  let (whole, s) ← decimal? s
  let (fraction, s, hasFraction) := match fraction? s with
    | some (digits, s) => (digits, s, true)
    | none => ([], s, false)
  let ((negative, power), s, hasExponent) := match exponent? s with
    | some (e, s) => (e, s, true)
    | none => ((false, []), s, false)
  if !hasFraction ∧ !hasExponent then none
  let magnitude : Int := Text.ofDigits power
  if sign ≠ some '-' ∧
      overflows (whole ++ fraction) fraction.length (if negative then -magnitude else magnitude)
  then none
  let text := sign.toList ++ whole ++ (if hasFraction then '.' :: fraction else []) ++
    (if hasExponent then 'e' :: (if negative then ['-'] else []) ++ power else [])
  some (.real (String.ofList text), s)

/-- Infinity or the number that is none, with or without a sign. -/
def specialFloat? (s : List Char) : Option (Data × List Char) :=
  let (sign, s) := sign s
  match s with
  | 'i' :: 'n' :: 'f' :: s => some (.real (String.ofList (sign.toList ++ "inf".toList)), s)
  | 'n' :: 'a' :: 'n' :: s => some (.real (String.ofList (sign.toList ++ "nan".toList)), s)
  | _ => none

/-- Two digits whose number lies in a range. -/
def twoDigits? (low high : Nat) : List Char → Option (Nat × List Char)
  | a :: b :: s =>
    let n := Text.ofDigits [a, b]
    if a.isDigit ∧ b.isDigit ∧ low ≤ n ∧ n ≤ high then some (n, s) else none
  | _ => none

/-- The text behind a given character. -/
def behind? (c : Char) : List Char → Option (List Char)
  | d :: s => if c = d then some s else none
  | [] => none

/-- The days of a month. -/
def daysIn (year month : Nat) : Nat :=
  if month = 2 then
    if year % 4 = 0 ∧ (year % 100 ≠ 0 ∨ year % 400 = 0) then 29 else 28
  else if month = 4 ∨ month = 6 ∨ month = 9 ∨ month = 11 then 30
  else 31

/-- The text behind a day of the calendar. -/
def day? (s : List Char) : Option (List Char) := do
  let year := s.take 4
  if year.length ≠ 4 ∨ ¬year.all Char.isDigit then none
  let (month, s) ← (behind? '-' (s.drop 4)).bind (twoDigits? 1 12)
  let (_, s) ← (behind? '-' s).bind (twoDigits? 1 (daysIn (Text.ofDigits year) month))
  some s

/-- The text behind a time of the day. -/
def time? (s : List Char) : Option (List Char) := do
  let (_, s) ← twoDigits? 0 23 s
  let (_, s) ← (behind? ':' s).bind (twoDigits? 0 59)
  let (_, s) ← (behind? ':' s).bind (twoDigits? 0 60)
  match s with
  | '.' :: d :: rest =>
    some (if d.isDigit then rest.dropWhile Char.isDigit else s)
  | _ => some s

/-- The text behind the distance from universal time, if one is there. -/
def offset (s : List Char) : List Char :=
  match s with
  | 'Z' :: s | 'z' :: s => s
  | '+' :: rest | '-' :: rest =>
    (do
      let (_, rest) ← twoDigits? 0 23 rest
      let (_, rest) ← (behind? ':' rest).bind (twoDigits? 0 59)
      some rest).getD s
  | _ => s

/-- The text behind the time of day that follows a day, if one does. -/
def timeOfDay (s : List Char) : List Char :=
  match s with
  | d :: rest =>
    if d = 'T' ∨ d = 't' ∨ d = ' ' then
      match time? rest with
      | some rest => offset rest
      | none => s
    else
      s
  | [] => s

/-- The date, the time, or both at the front of a text. -/
def date? (s : List Char) : Option (Data × List Char) := do
  let rest ← ((day? s).map timeOfDay) <|> time? s
  some (.date (String.ofList (s.take (s.length - rest.length))), rest)

/-- The number or date at the front of a text. -/
def number? (s : List Char) : Option (Data × List Char) :=
  date? s <|> decimalFloat? s <|> specialFloat? s <|> integer? s

end Broadcast.Toml
