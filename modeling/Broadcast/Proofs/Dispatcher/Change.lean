import Broadcast.Proofs.Dispatcher.Call

/-!
# What a move does to a dispatcher

A move is one of a caller, or it makes a run advance, or it changes nothing but the directory. A
run that advances is left to itself until it is over; then its caller goes on and the slot is free.
-/

namespace Broadcast.Dispatcher

/-! ## The caller of a run -/

theorem running_of_callerOf {d : Dispatcher} {r c : Nat} (caller : d.callerOf? r = some c) :
    ∃ errand, d.callers[c]? = some ⟨errand, .running r⟩ := by
  obtain ⟨inside, running, -⟩ := List.findIdx?_eq_some_iff_getElem.mp caller
  rw [List.getElem?_eq_getElem inside]
  generalize d.callers[c] = found at running
  obtain ⟨errand, stage⟩ := found
  cases stage with
  | running k =>
      obtain rfl : k = r := by simpa using running
      exact ⟨errand, rfl⟩
  | opening | listingChats | listingUsers | replying | done | broken => simp at running

theorem callerOf_ne_none {d : Dispatcher} {r c : Nat} {errand : Errand}
    (running : d.callers[c]? = some ⟨errand, .running r⟩) : d.callerOf? r ≠ none := by
  intro none
  have notRunning := List.findIdx?_eq_none_iff.mp none _ (List.mem_of_getElem? running)
  simp at notRunning

/-! ## A run advances -/

/-- The ways in which a dispatcher goes on when one of its runs has moved. -/
inductive Advance (now : Moment) (d : Dispatcher) (r : Nat) (move : Run.Move) :
    Dispatcher → List Run.Effect → Prop
  /-- The run goes on, or was over before. -/
  | on {run run' : Run} {effects : List Run.Effect} :
      d.runs[r]? = some run → run.step now move = some (run', effects) →
      ((∀ report, run'.stage ≠ .finished report) ∧ run'.stage ≠ .broken ∨
        d.callerOf? r = none) →
      Advance now d r move { d with runs := d.runs.set r run' } effects
  /-- The run has reported. -/
  | finish {run run' : Run} {effects : List Run.Effect} {report : Report} {c : Nat}
      {errand : Errand} :
      d.runs[r]? = some run → run.step now move = some (run', effects) →
      run'.stage = .finished report → d.callerOf? r = some c →
      d.callers[c]? = some ⟨errand, .running r⟩ →
      Advance now d r move
        ({ d with runs := d.runs.set r run' }.release.setStage c (.done (errand.outcome report)))
        (effects ++ [.publish (.set .runInProgress 0)])
  /-- The run has broken down. -/
  | fail {run run' : Run} {effects : List Run.Effect} {c : Nat} {errand : Errand} :
      d.runs[r]? = some run → run.step now move = some (run', effects) →
      run'.stage = .broken → d.callerOf? r = some c →
      d.callers[c]? = some ⟨errand, .running r⟩ →
      Advance now d r move
        ({ d with runs := d.runs.set r run' }.release.setStage c .broken) effects

theorem advance_of_stepRun {now : Moment} {d d' : Dispatcher} {r : Nat} {move : Run.Move}
    {effects : List Run.Effect} (made : d.stepRun now r move = some (d', effects)) :
    Advance now d r move d' effects := by
  unfold stepRun at made
  obtain ⟨run, present, made⟩ := Option.bind_eq_some_iff.mp made
  obtain ⟨⟨run', asked⟩, moved, made⟩ := Option.bind_eq_some_iff.mp made
  dsimp only at made
  unfold conclude at made
  split at made
  next report c finished caller =>
    obtain ⟨errand, running⟩ := running_of_callerOf (d := d) caller
    cases made
    simpa [running] using Advance.finish present moved finished caller running
  next c broken caller =>
    obtain ⟨errand, running⟩ := running_of_callerOf (d := d) caller
    cases made
    exact .fail present moved broken caller running
  next goesOn notBroken =>
    cases made
    refine .on present moved ?_
    cases caller : d.callerOf? r with
    | none => exact .inr rfl
    | some c =>
        left
        exact ⟨fun report finished => goesOn report c finished caller,
          fun broken => notBroken c broken caller⟩

/-- What the directory tells a removal of a run. -/
def removalAnswer (d : Dispatcher) (removal : Run.Removal) : Answer Reach → Answer Bool
  | .broke => .broke
  | .gave (.unavailable _) => .gave false
  | .gave .performed =>
    match removal.listing with
    | .user => .gave (d.directory.users.contains removal.recipient)
    | .chat => .gave (d.directory.chats.contains removal.recipient)

/-- The directory after it has been asked for a removal. -/
def removalDirectory (d : Dispatcher) (removal : Run.Removal) : Answer Reach → Directory
  | .broke | .gave (.unavailable _) => d.directory
  | .gave .performed =>
    match removal.listing with
    | .user => d.directory.removeUser removal.recipient
    | .chat => d.directory.removeChat removal.recipient

private theorem advance_of_stepRemoved {now : Moment} {d d' : Dispatcher} {r k : Nat}
    {answer : Answer Reach} {effects : List Run.Effect}
    (made : d.stepRemoved now r k answer = some (d', effects)) :
    ∃ run removal mid, d.runs[r]? = some run ∧ run.removals[k]? = some removal ∧
      Advance now d r (.removal k (.answered (d.removalAnswer removal answer))) mid effects ∧
      d' = { mid with directory := d.removalDirectory removal answer } := by
  unfold stepRemoved at made
  obtain ⟨run, present, made⟩ := Option.bind_eq_some_iff.mp made
  obtain ⟨removal, asked, made⟩ := Option.bind_eq_some_iff.mp made
  have same {move : Run.Move} (advance : Advance now d r move d' effects) :
      d' = { d' with directory := d.directory } := by
    cases advance <;> rfl
  dsimp only at made
  split at made
  next =>
    have advance := advance_of_stepRun made
    exact ⟨run, removal, d', present, asked, advance, same advance⟩
  next =>
    have advance := advance_of_stepRun made
    exact ⟨run, removal, d', present, asked, advance, same advance⟩
  next =>
    obtain ⟨⟨mid, asks⟩, moved, made⟩ := Option.bind_eq_some_iff.mp made
    cases made
    refine ⟨run, removal, mid, present, asked, ?_, ?_⟩
    · cases listing : removal.listing <;>
        simpa [listing, removalAnswer] using advance_of_stepRun moved
    · cases listing : removal.listing <;> simp [listing, removalDirectory]

/-! ## Every move -/

/-- The kinds of moves that a dispatcher can make. -/
inductive Change (now : Moment) (d : Dispatcher) : Move → Dispatcher → List Run.Effect → Prop
  | arrive (errand : Errand) :
      Change now d (.open errand) { d with callers := d.callers ++ [⟨errand, .opening⟩] } []
  | call {c : Nat} {move : Caller.Move} {d' : Dispatcher} {effects : List Run.Effect} :
      Call now d c move d' effects → Change now d (.caller c move) d' effects
  | run {r : Nat} {move : Run.Move} {d' : Dispatcher} {effects : List Run.Effect} :
      move ≠ .cancel → Advance now d r move d' effects → Change now d (.run r move) d' effects
  | removed {r k : Nat} {answer : Answer Reach} {run : Run} {removal : Run.Removal}
      {d' : Dispatcher} {effects : List Run.Effect} :
      d.runs[r]? = some run → run.removals[k]? = some removal →
      Advance now d r (.removal k (.answered (d.removalAnswer removal answer))) d' effects →
      Change now d (.removed r k answer)
        { d' with directory := d.removalDirectory removal answer } effects
  | addUser (x : Recipient) :
      Change now d (.addUser x) { d with directory := d.directory.addUser x } []
  | addChat (x : Recipient) :
      Change now d (.addChat x) { d with directory := d.directory.addChat x } []

/-- Every move of a dispatcher is of one of the kinds of `Change`. -/
theorem change_of_step {now : Moment} {d d' : Dispatcher} {move : Move}
    {effects : List Run.Effect} (made : d.step now move = some (d', effects)) :
    Change now d move d' effects := by
  unfold step at made
  split at made
  next =>
    cases made
    exact .arrive _
  next => exact .call (call_of_stepCaller made)
  next => cases made
  next => cases made
  next notCancel _ => exact .run notCancel (advance_of_stepRun made)
  next =>
    obtain ⟨run, removal, mid, present, asked, advance, rfl⟩ := advance_of_stepRemoved made
    exact .removed present asked advance
  next =>
    cases made
    exact .addUser _
  next =>
    cases made
    exact .addChat _

end Broadcast.Dispatcher
