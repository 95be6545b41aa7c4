import Broadcast.Binary64
import Broadcast.Duration

/-!
# The compact text of a length of time

The form that operators read: whole microseconds or milliseconds below a second, seconds below a
minute, and from there on minutes or hours with whole seconds.
-/

namespace Broadcast.Duration

/-- The seconds of a length of time as a floating point number: whole seconds plus fraction. -/
def inSeconds (d : Duration) : Binary64 :=
  (Binary64.ofNat d.secs).add (Binary64.ofRatio d.subsecNanos 1000000000)

/-- The tenths nearest to a floating point number. -/
def nearestTenths : Binary64 → Nat
  | .finite units => Binary64.roundHalfEven (units * 10) Binary64.unitsPerOne
  | .infinite => 0

/-- The tenths of a second nearest to a length of time read as a floating point number. -/
def tenths (d : Duration) : Nat :=
  nearestTenths d.inSeconds

/-- The compact text, such as `40ms`, `1.5s`, `2m5s` or `1h0m12s`. -/
def compact (d : Duration) : String :=
  let millis := d.millis
  if millis < 1000 then
    if millis = 0 ∧ d.nanos ≠ 0 then
      s!"{d.micros}µs"
    else
      s!"{millis}ms"
  else if millis < 60000 then
    if millis % 1000 = 0 then
      s!"{d.secs}s"
    else
      s!"{d.tenths / 10}.{d.tenths % 10}s"
  else
    let secs := d.secs
    let h := secs / 3600
    let m := secs % 3600 / 60
    let s := secs % 60
    if h > 0 then
      s!"{h}h{m}m{s}s"
    else
      s!"{m}m{s}s"

end Broadcast.Duration
