import Broadcast.Duration
import Broadcast.Text.Numeral
import Broadcast.Text.Search
import Broadcast.Word

/-!
# Outcomes of a delivery

A delivery that fails does so for one of eight reasons. Six of them mean that the recipient is
gone for good; a rate limit with a positive wait asks for another attempt. Reasons given as free
text are recognised by the phrases in them, whatever their case.
-/

namespace Broadcast

/-- Why a delivery failed. -/
inductive DeliveryError
  | rateLimited (wait : Duration)
  | peerBlocked
  | peerDeactivated
  | peerInvalid
  | chatForbidden
  | botKicked
  | chatNotFound
  | other (text : String)
deriving DecidableEq, Repr

namespace DeliveryError

/-- The reason in words. -/
def message : DeliveryError → String
  | rateLimited wait => s!"Rate limited, retry after {wait.exact}"
  | peerBlocked => "Recipient blocked the sender"
  | peerDeactivated => "Recipient account deleted or deactivated"
  | peerInvalid => "Invalid recipient id"
  | chatForbidden => "Writing to the chat is forbidden"
  | botKicked => "Sender was kicked from the chat"
  | chatNotFound => "Chat not found"
  | other text => text

/-- The reason in metrics. -/
def label : DeliveryError → String
  | rateLimited _ => "rate_limited"
  | peerBlocked => "peer_blocked"
  | peerDeactivated => "peer_deactivated"
  | peerInvalid => "peer_invalid"
  | chatForbidden => "chat_forbidden"
  | botKicked => "bot_kicked"
  | chatNotFound => "chat_not_found"
  | other _ => "other"

/-- The wait that a rate limit imposes; a zero wait is none. -/
def wait? : DeliveryError → Option Duration
  | rateLimited wait => if wait.nanos = 0 then none else some wait
  | _ => none

/-- The recipient is gone for good and is to leave the directory. -/
def isGone : DeliveryError → Bool
  | rateLimited _ | other _ => false
  | _ => true

/-- The phrases in front of the seconds of a rate limit. -/
def rateLimitMarkers : List String :=
  ["flood_wait_", "retry after "]

/-- The seconds written right behind the first occurrence of a marker. -/
def secondsAfter? (text : List Char) (marker : String) : Option UInt64 := do
  let rest ← Text.afterFirst? marker.toList text
  let seconds ← Text.natural? (rest.takeWhile Char.isDigit)
  Word.unsigned64? seconds

/-- The wait of a rate limit text: that of the first marker with a positive number. -/
def rateLimitWait? (text : List Char) : Option Duration :=
  ((rateLimitMarkers.filterMap (secondsAfter? text)).find? (· ≠ 0)).map
    fun seconds => Duration.ofSecs seconds.toNat

/-- The phrases that name each reason, in order of precedence. -/
def phrases : List (DeliveryError × List String) :=
  [(peerBlocked, ["user_is_blocked"]),
   (peerDeactivated, ["user_is_deleted", "user_deactivated", "input_user_deactivated"]),
   (peerInvalid, ["peer_id_invalid", "no channel with id"]),
   (chatForbidden, ["chat_write_forbidden"]),
   (botKicked, ["bot_kicked"]),
   (chatNotFound, ["chat_not_found"])]

/-- The reason that a free text gives. -/
def ofText (text : String) : DeliveryError :=
  let lower := text.toList.map Char.toLower
  match rateLimitWait? lower with
  | some wait => rateLimited wait
  | none =>
    match phrases.find? fun entry => entry.2.any fun p => Text.holds lower p.toList with
    | some (error, _) => error
    | none => other text

end DeliveryError

end Broadcast
