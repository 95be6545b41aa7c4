import Broadcast.Dispatcher
import Broadcast.Proofs.Run.Change

/-!
# Calls of a dispatcher

The ways in which a move of a caller can go, each with all that it needs and all that it does.
`call_of_stepCaller` says that there are no others.
-/

namespace Broadcast

/-- The broadcast that an errand asks for. -/
def Errand.wanted : Errand → Except UsageError (Option Request)
  | .broadcast replyTo args =>
    (replyTo.elim (.error .missingSource) (Request.ofArgs · args)).map some
  | .run request => .ok (some request)
  | .cancel | .resolve _ => .ok none

/-- The errand only asks for targets. -/
def Errand.isResolve : Errand → Bool
  | .resolve _ => true
  | .broadcast _ _ | .cancel | .run _ => false

namespace Dispatcher

/-- The ways in which a move of a caller can go. -/
inductive Call (now : Moment) (d : Dispatcher) (c : Nat) :
    Caller.Move → Dispatcher → List Run.Effect → Prop
  /-- The command is not understood. -/
  | misuse {errand : Errand} {error : UsageError} :
      d.callers[c]? = some ⟨errand, .opening⟩ → errand.wanted = .error error →
      Call now d c .begin (d.setStage c .replying) [.ask (.reply (Notice.wrongUsage error))]
  /-- Somebody else holds the slot. -/
  | busy {errand : Errand} {request : Request} :
      d.callers[c]? = some ⟨errand, .opening⟩ → errand.wanted = .ok (some request) →
      d.flight.isBusy = true →
      Call now d c .begin (d.refuse c errand .alreadyRunning).1
        (.publish (.count (.runsRejected .alreadyRunning)) ::
          (d.refuse c errand .alreadyRunning).2)
  /-- There is no pause to pace by. -/
  | unpaced {errand : Errand} {request : Request} :
      d.callers[c]? = some ⟨errand, .opening⟩ → errand.wanted = .ok (some request) →
      d.flight = .idle → Pacer.ofInterval (d.pause request) = .error .empty →
      Call now d c .begin (d.refuse c errand (.invalidPacing (d.pause request))).1
        (d.refuse c errand (.invalidPacing (d.pause request))).2
  /-- The pause is too long. -/
  | overlong {errand : Errand} {request : Request} :
      d.callers[c]? = some ⟨errand, .opening⟩ → errand.wanted = .ok (some request) →
      d.flight = .idle → Pacer.ofInterval (d.pause request) = .error .tooLong →
      Call now d c .begin (d.setStage c .broken) []
  /-- The slot is claimed. -/
  | claim {errand : Errand} {request : Request} {pacer : Pacer} :
      d.callers[c]? = some ⟨errand, .opening⟩ → errand.wanted = .ok (some request) →
      d.flight = .idle → Pacer.ofInterval (d.pause request) = .ok pacer →
      Call now d c .begin
        ({ d with flight := .claimed false }.setStage c (.listingChats request))
        [.ask .listChats]
  /-- There is nothing to cancel. -/
  | spare :
      d.callers[c]? = some ⟨.cancel, .opening⟩ → d.flight = .idle →
      Call now d c .begin (d.setStage c .replying) [.ask (.reply Notice.nothingToCancel)]
  /-- A cancel waits for the run to start. -/
  | park {parked : Bool} :
      d.callers[c]? = some ⟨.cancel, .opening⟩ → d.flight = .claimed parked →
      Call now d c .begin ({ d with flight := .claimed true }.setStage c .replying)
        [.ask (.reply Notice.cancelled)]
  /-- A run is cancelled. -/
  | cancel {r : Nat} :
      d.callers[c]? = some ⟨.cancel, .opening⟩ → d.flight = .attached r →
      Call now d c .begin ((d.cancelRun r).setStage c .replying)
        [.ask (.reply Notice.cancelled)]
  /-- Targets are asked for, without the slot. -/
  | resolve {request : Request} :
      d.callers[c]? = some ⟨.resolve request, .opening⟩ →
      Call now d c .begin (d.setStage c (.listingChats request)) [.ask .listChats]
  /-- The listing of the chats breaks down. -/
  | chatsLost {errand : Errand} {request : Request} :
      d.callers[c]? = some ⟨errand, .listingChats request⟩ →
      Call now d c (.chatsListed .broke) (d.breakDown c errand) []
  /-- The chats are known. -/
  | chats {errand : Errand} {request : Request} {reach : Reach} :
      d.callers[c]? = some ⟨errand, .listingChats request⟩ →
      Call now d c (.chatsListed (.gave reach))
        (d.setStage c (.listingUsers request (listed d.directory.chats reach)))
        [.ask .listUsers]
  /-- The listing of the users breaks down. -/
  | usersLost {errand : Errand} {request : Request}
      {chats : Except Directory.Fault (List Recipient)} :
      d.callers[c]? = some ⟨errand, .listingUsers request chats⟩ →
      Call now d c (.usersListed .broke) (d.breakDown c errand) []
  /-- The targets are known, and nothing else was asked for. -/
  | resolved {errand : Errand} {request : Request} {reach : Reach}
      {chats : Except Directory.Fault (List Recipient)} :
      d.callers[c]? = some ⟨errand, .listingUsers request chats⟩ → errand.isResolve = true →
      Call now d c (.usersListed (.gave reach))
        (d.setStage c (.done (.targets (Targets.collect d.settings.channelThreshold request chats
          (listed d.directory.users reach))))) []
  /-- There are no targets. -/
  | noTargets {errand : Errand} {request : Request} {reach : Reach}
      {chats : Except Directory.Fault (List Recipient)} :
      d.callers[c]? = some ⟨errand, .listingUsers request chats⟩ → errand.isResolve = false →
      (Targets.collect d.settings.channelThreshold request chats
        (listed d.directory.users reach)).list = [] →
      Call now d c (.usersListed (.gave reach)) (d.release.refuse c errand .noTargets).1
        (.publish (.count (.runsRejected .noTargets)) ::
          (d.release.refuse c errand .noTargets).2)
  /-- A run starts. -/
  | start {errand : Errand} {request : Request} {reach : Reach}
      {chats : Except Directory.Fault (List Recipient)} {targets : Targets} :
      d.callers[c]? = some ⟨errand, .listingUsers request chats⟩ → errand.isResolve = false →
      targets = Targets.collect d.settings.channelThreshold request chats
        (listed d.directory.users reach) →
      targets.list ≠ [] →
      Call now d c (.usersListed (.gave reach)) (d.startRun now c request targets).1
        (d.startRun now c request targets).2
  /-- The caller is not even told. -/
  | replyLost {errand : Errand} :
      d.callers[c]? = some ⟨errand, .replying⟩ →
      Call now d c (.replied .broke) (d.setStage c .broken) []
  /-- The caller has been told. -/
  | replied {errand : Errand} :
      d.callers[c]? = some ⟨errand, .replying⟩ →
      Call now d c (.replied (.gave ())) (d.setStage c (.done .handled)) []

private theorem call_of_beginBroadcast {now : Moment} {d : Dispatcher} {c : Nat}
    {errand : Errand} {request : Request} (present : d.callers[c]? = some ⟨errand, .opening⟩)
    (wanted : errand.wanted = .ok (some request)) :
    Call now d c .begin (d.beginBroadcast c errand request).1
      (d.beginBroadcast c errand request).2 := by
  unfold beginBroadcast
  cases flight : d.flight with
  | claimed | attached => exact .busy present wanted (by simp [flight, Flight.isBusy])
  | idle =>
      cases pacing : Pacer.ofInterval (d.pause request) with
      | ok pacer => simpa [Flight.claim?, pacing] using Call.claim present wanted flight pacing
      | error fault =>
          cases fault with
          | empty => simpa [Flight.claim?, pacing] using Call.unpaced present wanted flight pacing
          | tooLong =>
              simpa [Flight.claim?, pacing] using Call.overlong present wanted flight pacing

private theorem call_of_beginCancel {now : Moment} {d : Dispatcher} {c : Nat}
    (present : d.callers[c]? = some ⟨.cancel, .opening⟩) :
    Call now d c .begin (d.beginCancel c).1 (d.beginCancel c).2 := by
  have same {flight : Flight} (h : d.flight = flight) : { d with flight } = d := by rw [← h]
  unfold beginCancel
  cases flight : d.flight with
  | idle =>
      have call : Call now d c .begin _ _ := .spare present flight
      simpa [Flight.cancel, reply, same flight] using call
  | claimed parked =>
      have call : Call now d c .begin _ _ := .park present flight
      simpa [Flight.cancel, reply] using call
  | attached r =>
      have call : Call now d c .begin _ _ := .cancel present flight
      simpa [Flight.cancel, reply, same flight] using call

private theorem call_of_begin {now : Moment} {d : Dispatcher} {c : Nat} {errand : Errand}
    (present : d.callers[c]? = some ⟨errand, .opening⟩) :
    Call now d c .begin (d.begin c errand).1 (d.begin c errand).2 := by
  cases errand with
  | broadcast replyTo args =>
      unfold begin
      dsimp only
      split
      next error usage => exact .misuse present (by simp [Errand.wanted, usage, Except.map])
      next request usage =>
        exact call_of_beginBroadcast present (by simp [Errand.wanted, usage, Except.map])
  | cancel => exact call_of_beginCancel present
  | run request => exact call_of_beginBroadcast present rfl
  | resolve request => exact .resolve present

private theorem call_of_targetsKnown (now : Moment) {d : Dispatcher} {c : Nat} {errand : Errand}
    {request : Request} (reach : Reach) {chats : Except Directory.Fault (List Recipient)}
    (present : d.callers[c]? = some ⟨errand, .listingUsers request chats⟩) :
    Call now d c (.usersListed (.gave reach))
      (d.targetsKnown now c errand request (Targets.collect d.settings.channelThreshold request
        chats (listed d.directory.users reach))).1
      (d.targetsKnown now c errand request (Targets.collect d.settings.channelThreshold request
        chats (listed d.directory.users reach))).2 := by
  unfold targetsKnown
  split
  · exact .resolved present rfl
  next broadcast =>
    have going : errand.isResolve = false := by
      cases errand with
      | resolve request => exact absurd rfl (broadcast request)
      | broadcast | cancel | run => rfl
    split
    next none => exact .noTargets present going none
    next some => exact .start present going rfl some

/-- A move of a caller goes in one of the ways of `Call`. -/
theorem call_of_stepCaller {now : Moment} {d d' : Dispatcher} {c : Nat} {move : Caller.Move}
    {effects : List Run.Effect} (made : d.stepCaller now c move = some (d', effects)) :
    Call now d c move d' effects := by
  unfold stepCaller at made
  obtain ⟨⟨errand, stage⟩, present, made⟩ := Option.bind_eq_some_iff.mp made
  dsimp only at made
  split at made
  next =>
    have call : Call now d c .begin (d.begin c errand).1 (d.begin c errand).2 :=
      call_of_begin present
    rwa [Option.some.inj made] at call
  next =>
    cases made
    exact .chatsLost present
  next =>
    cases made
    exact .chats present
  next =>
    cases made
    exact .usersLost present
  next reach _ =>
    have call := call_of_targetsKnown now reach present
    rwa [Option.some.inj made] at call
  next =>
    cases made
    exact .replyLost present
  next =>
    cases made
    exact .replied present
  next => cases made

/-! ## What a call is about -/

section setStage

variable (d : Dispatcher) (c : Nat) (stage : Caller.Stage)

@[simp] theorem setStage_runs : (d.setStage c stage).runs = d.runs := rfl

theorem setStage_callers {old : Caller.Stage} {errand : Errand}
    (present : d.callers[c]? = some ⟨errand, old⟩) (k : Nat) :
    (d.setStage c stage).callers[k]? =
      if k = c then some ⟨errand, stage⟩ else d.callers[k]? := by
  rw [setStage, List.getElem?_modify]
  by_cases same : k = c
  · rw [if_pos same, same, present]
    simp
  · rw [if_neg same]
    simp [Ne.symm same]

end setStage

/-- The stage of a caller that is told that its broadcast did not start. -/
def refusal (errand : Errand) (error : DispatchError) : Caller.Stage :=
  match errand with
  | .broadcast _ _ => .replying
  | .cancel | .run _ | .resolve _ => .done (.refused error)

theorem refuse_eq (d : Dispatcher) (c : Nat) (errand : Errand) (error : DispatchError) :
    (d.refuse c errand error).1 = d.setStage c (refusal errand error) := by
  cases errand <;> rfl

theorem breakDown_eq (d : Dispatcher) (c : Nat) (errand : Errand) :
    d.breakDown c errand =
      if errand.isResolve then d.setStage c .broken else (d.setStage c .broken).release := by
  cases errand <;> rfl

/-- The dispatcher with one more run, which is attached and has met a parked cancel. -/
def withRun (now : Moment) (d : Dispatcher) (request : Request) (targets : Targets) :
    Dispatcher :=
  { d with
    flight := .attached d.runs.length
    runs := d.runs ++ [Run.opening (d.plan request targets) now
      (d.flight.attach d.runs.length).2] }

theorem withRun_runs (now : Moment) (d : Dispatcher) (request : Request) (targets : Targets)
    (r : Nat) : (d.withRun now request targets).runs[r]? =
      if r = d.runs.length then
        some (Run.opening (d.plan request targets) now (d.flight.attach r).2)
      else d.runs[r]? := by
  by_cases last : r = d.runs.length
  · subst last
    simp [withRun]
  · rw [if_neg last]
    by_cases before : r < d.runs.length
    · simp [withRun, List.getElem?_append_left before]
    · have after : d.runs.length < r := by omega
      rw [List.getElem?_eq_none (Nat.le_of_lt after), List.getElem?_eq_none]
      rw [withRun, List.length_append]
      exact after

theorem startRun_eq (now : Moment) (d : Dispatcher) (c : Nat) (request : Request)
    (targets : Targets) : (d.startRun now c request targets).1 =
      (d.withRun now request targets).setStage c (.running d.runs.length) := by
  unfold startRun withRun
  cases d.flight with
  | idle | attached => rfl
  | claimed parked => cases parked <;> rfl

theorem Call.silent {now : Moment} {d d' : Dispatcher} {c : Nat} {move : Caller.Move}
    {effects : List Run.Effect} (call : Call now d c move d' effects) :
    ∀ effect ∈ effects, effect.isMessage = false := by
  cases call with
  | @busy errand | @unpaced errand | @noTargets errand =>
      cases errand <;> simp [refuse, reply, Run.Effect.isMessage]
  | start => simp [startRun, Run.start, Run.Effect.isMessage]
  | misuse | overlong | claim | spare | park | cancel | resolve | chatsLost | chats | usersLost
  | resolved | replyLost | replied => simp [Run.Effect.isMessage]

end Dispatcher

end Broadcast
