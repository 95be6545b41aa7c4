import Broadcast.Duration

/-!
# Pacing and waiting

All workers of a run share one stream of permits: the first at once, then one every interval, and
none saved up. An empty interval makes no stream, and neither does one of more nanoseconds than a
word of 64 bits holds. How far ahead a stream can reckon, and how long a wait can be, depends on
the clocks by which the program waits, so these are a parameter of all that waits.
-/

namespace Broadcast

/-- A point of the clock, in nanoseconds. -/
abbrev Moment := Nat

/-- What the clocks by which a program waits have of their own. -/
structure Clocks where
  /-- The nanoseconds since the beginning of a stream of permits when its first one is taken. -/
  youngest : Nat
  /-- The nanoseconds that the clock of all further permits has run for. -/
  age : Nat
  /-- Nothing waits longer, however long it was told to wait. -/
  longestWait : Duration
deriving DecidableEq, Repr

namespace Clocks

/-- The clocks of a program that has run for a day. The longest wait is one of thirty years of 365
days. -/
def usual : Clocks where
  youngest := 100
  age := 86400 * 1000000000
  longestWait := .ofSecs (30 * 365 * 86400)

/-- The moment at which a wait ends that begins at `now`. -/
def after (clocks : Clocks) (now : Moment) (wait : Duration) : Moment :=
  now + min wait.nanos clocks.longestWait.nanos

/-- A wait that is not too long lasts exactly as long as it was told to. -/
theorem after_of_le {clocks : Clocks} {now : Moment} {wait : Duration}
    (short : wait.nanos ≤ clocks.longestWait.nanos) :
    clocks.after now wait = now + wait.nanos := by
  rw [after, Nat.min_eq_left short]

end Clocks

/-- A stream of permits. -/
structure Pacer where
  interval : Duration
  positive : 0 < interval.nanos
  bounded : interval.nanos < 2 ^ 64

namespace Pacer

/-- Why an interval makes no stream. -/
inductive Fault
  | empty
  | tooLong
deriving DecidableEq, Repr

/-- The stream with a given interval. -/
def ofInterval (interval : Duration) : Except Fault Pacer :=
  if h : 0 < interval.nanos then
    if h' : interval.nanos < 2 ^ 64 then .ok ⟨interval, h, h'⟩ else .error .tooLong
  else
    .error .empty

/-- The stream breaks down when it is asked for a permit, because it reckons further ahead than a
word of 64 bits reaches. The first permit asks for an interval from the beginning of the stream,
and each further one for a wait that ends an interval from the beginning of the clock. -/
def breaksDown (clocks : Clocks) (first : Bool) (interval : Duration) : Bool :=
  2 ^ 64 ≤ interval.nanos + if first then clocks.youngest else clocks.age

/-- The moment from which on the next permit is there, after one was taken at `now`. -/
def next (pacer : Pacer) (now : Moment) : Moment :=
  now + pacer.interval.nanos

/-- Which of `count` tries at one and the same moment get a permit, none having been taken yet;
nothing if the stream breaks down. -/
def takeNow? (pacer : Pacer) (now : Moment) (count : Nat) (clocks : Clocks := .usual) :
    Option (List Bool) :=
  if 0 < count ∧ breaksDown clocks true pacer.interval then none else some (go now count)
where
  /-- The tries left when the next permit is there from `free` on. -/
  go (free : Moment) : Nat → List Bool
    | 0 => []
    | count + 1 =>
      if free ≤ now then true :: go (pacer.next now) count else false :: go free count

end Pacer

end Broadcast
