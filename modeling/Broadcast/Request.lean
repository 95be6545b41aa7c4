import Broadcast.Duration.Reading
import Broadcast.Message
import Broadcast.Text.Blank
import Broadcast.Text.Numeral
import Broadcast.Word

/-!
# Requests

What an operator asks for: the message, the way of delivery, the kinds to leave out, and bounds on
number and pace. A request is written as words; `limit` and `delay` take the word behind them as
their value, and words without a meaning are passed over.
-/

namespace Broadcast

/-- A bound on the number of targets; it lets at least one through. -/
structure Limit where
  count : UInt64
  ne_zero : count ≠ 0
deriving DecidableEq, Repr

/-- One request for a broadcast. -/
structure Request where
  source : SourceMessage
  mode : DeliveryMode := .forward
  skipUsers : Bool := false
  skipGroups : Bool := false
  skipChannels : Bool := false
  limit : Option Limit := none
  delay : Option Duration := none
deriving DecidableEq, Repr

/-- What can be wrong with the words of a request. -/
inductive UsageError
  | missingSource
  | missingLimit
  | missingDelay
  | invalidLimit (value : String)
  | invalidDelay (value : String)
deriving DecidableEq, Repr

/-- The text shown to the operator. -/
def UsageError.message : UsageError → String
  | missingSource => "Reply to a message to broadcast"
  | missingLimit => "Flag 'limit' needs a value"
  | missingDelay => "Flag 'delay' needs a value"
  | invalidLimit value => s!"Invalid limit '{value}': expected a positive integer"
  | invalidDelay value =>
    s!"Invalid delay '{value}': expected a positive duration such as 50ms, 1s or 1m30s"

/-- The limit with a given count, if that is positive and fits its word. -/
def Limit.ofNat? (n : Nat) : Option Limit :=
  (Word.unsigned64? n).bind fun count =>
    if h : count ≠ 0 then some ⟨count, h⟩ else none

/-- The limit written as a decimal numeral. -/
def Limit.parse? (word : List Char) : Option Limit :=
  (Text.unsigned? word).bind ofNat?

namespace Request

/-- The pause written in a word, if it is not empty. -/
def delay? (word : List Char) : Option Duration :=
  (Duration.parse? (String.ofList word)).filter (·.nanos ≠ 0)

/-- A word without its leading dashes and in lower case. -/
def flag (word : List Char) : String :=
  String.ofList ((word.dropWhile (· = '-')).map Char.toLower)

/-- The request after the remaining words, read from the left. -/
def readWords (request : Request) : List (List Char) → Except UsageError Request
  | [] => .ok request
  | word :: words =>
    match flag word with
    | "copy" => readWords { request with mode := .copy } words
    | "nochat" | "nochats" => readWords { request with skipGroups := true } words
    | "nouser" | "nousers" => readWords { request with skipUsers := true } words
    | "nochannel" | "nochannels" => readWords { request with skipChannels := true } words
    | "limit" =>
      match words with
      | [] => .error .missingLimit
      | value :: words =>
        match Limit.parse? value with
        | some limit => readWords { request with limit := some limit } words
        | none => .error (.invalidLimit (String.ofList value))
    | "delay" =>
      match words with
      | [] => .error .missingDelay
      | value :: words =>
        match delay? value with
        | some delay => readWords { request with delay := some delay } words
        | none => .error (.invalidDelay (String.ofList value))
    | _ => readWords request words

/-- The request for a message that its arguments describe. -/
def ofArgs (source : SourceMessage) (args : String) : Except UsageError Request :=
  readWords { source } (Text.words args.toList)

end Request

end Broadcast
