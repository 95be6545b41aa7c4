import Broadcast.Rehearsal.Script

/-!
# Deliveries that fail by chance

A profile says how often deliveries fail in which way and how long they take at most. What chance
decides about each attempt is a function of a seed, so that the same seed gives the same run.
-/

namespace Broadcast.Rehearsal

/-- How often deliveries fail, and how. -/
structure FaultProfile where
  failureRate : Float
  rateLimitRate : Float
  floodWaitSecs : UInt64
  maxLatencyMillis : UInt64
deriving Repr

/-- What chance decides about an attempt. -/
structure Draw where
  latency : UInt64
  fate : UInt64
  text : UInt64
deriving DecidableEq, Repr

namespace Draw

/-- A word from which no trace of the given one is easily seen. -/
def scramble (word : UInt64) : UInt64 :=
  let w := word + 0x9e3779b97f4a7c15
  let w := (w ^^^ (w >>> 30)) * 0xbf58476d1ce4e5b9
  let w := (w ^^^ (w >>> 27)) * 0x94d049bb133111eb
  w ^^^ (w >>> 31)

/-- The draw for an attempt to deliver to a recipient. -/
def ofSeed (seed : UInt64) (recipient : Recipient) (attempt : Nat) : Draw :=
  let first := scramble (scramble (seed ^^^ recipient.id.toUInt64) + UInt64.ofNat attempt)
  let second := scramble first
  ⟨first, second, scramble second⟩

/-- The fate as a ratio from zero up, and below one. -/
def ratio (draw : Draw) : Float :=
  (draw.fate >>> 11).toFloat / 9007199254740992.0

end Draw

namespace FaultProfile

/-- The texts of failures that waiting does not mend. -/
def terminalTexts : List String :=
  ["rpc error code 403: USER_IS_BLOCKED",
   "rpc error code 400: INPUT_USER_DEACTIVATED",
   "rpc error code 403: CHAT_WRITE_FORBIDDEN",
   "rpc error code 400: PEER_ID_INVALID",
   "rpc error code 500: INTERNAL"]

/-- The text of a failure, if the attempt fails. -/
def failure? (p : FaultProfile) (draw : Draw) : Option String :=
  if draw.ratio < p.rateLimitRate then some s!"rpc error code 420: FLOOD_WAIT_{p.floodWaitSecs}"
  else if draw.ratio < p.rateLimitRate + p.failureRate then
    terminalTexts[draw.text.toNat % terminalTexts.length]?
  else none

/-- What an attempt comes to. -/
def delivery (p : FaultProfile) (draw : Draw) : Delivery where
  millis := draw.latency.toNat % (p.maxLatencyMillis.toNat + 1)
  outcome := some ((p.failure? draw).elim (.ok ()) fun text => .error (.ofText text))

/-- The script of a run under this profile, in which permits take their time. -/
def script (p : FaultProfile) (seed : UInt64) : Script where
  delivery := fun recipient attempt => p.delivery (.ofSeed seed recipient attempt)
  permitsTakeTime := true

end FaultProfile

end Broadcast.Rehearsal
