import Broadcast.Rehearsal.Stage

/-!
# Playing a rehearsal

The thread whose turn it is plays on until it has to wait; then it is the next one's turn. The
clock moves on only when no thread has a turn, to the earliest moment at which one wakes.
-/

namespace Broadcast.Rehearsal

/-- The rehearsal with the uppermost scenes of a thread replaced. -/
def setScenes (r : Rehearsal) (id : Nat) (scenes : List Scene) : Rehearsal :=
  r.modifyThread id fun t => { t with scenes }

/-- The rehearsal with one more call at a point, and the number of that call. -/
def arrive (r : Rehearsal) (point : Point) : Rehearsal × Nat :=
  let arrival := r.arrivals.getD point 0 + 1
  ({ r with arrivals := r.arrivals.insert point arrival }, arrival)

/-- Time to be spent, if it is any. -/
def naps (millis : Nat) : List Chore :=
  if millis = 0 then [] else [.nap millis]

/-- The steps that happen inside a call. -/
def hooks (r : Rehearsal) (point : Point) (arrival : Nat) : List Chore :=
  (r.script.stepsAt point arrival).map .hook

/-- What comes of an operation of the directory that fails in this way or not at all. -/
def reachVerdict : Option Failure → Option Verdict
  | none => some (.reach .performed)
  | some (.refuses text) => some (.reach (.unavailable text))
  | some .breaks => none

/-- A listing is taken up. -/
def takeUpListing (r : Rehearsal) (point : Point) : Rehearsal × Call :=
  let (r, n) := r.arrive point
  (r, ⟨naps r.script.listMillis ++ r.hooks point n, reachVerdict (r.script.failure point n)⟩)

/-- The outside takes up what it was asked. A notice or an edit that breaks down is never seen. -/
def takeUp (r : Rehearsal) : Ask → Rehearsal × Call
  | .listChats => r.takeUpListing .listChats
  | .listUsers => r.takeUpListing .listUsers
  | .deliver recipient source mode =>
    let (r, n) := r.arrive .deliver
    let entry := { recipient, mode, source, millis := r.clock }
    ({ r with log.deliveries := r.log.deliveries.push entry },
      ⟨r.hooks .deliver n ++ [.draw recipient], none⟩)
  | .remove listing recipient =>
    let (r, n) := r.arrive .remove
    let entry := { listing, recipient, millis := r.clock }
    ({ r with log.removals := r.log.removals.push entry },
      ⟨naps r.script.removeMillis ++ r.hooks .remove n,
        reachVerdict (r.script.removalFailure recipient)⟩)
  | .reply text =>
    let (r, n) := r.arrive .reply
    match r.script.failure .reply n with
    | some .breaks => (r, ⟨[], none⟩)
    | some (.refuses _) =>
      ({ r with log.notices := r.log.notices.push (.reply none text r.clock) },
        ⟨r.hooks .reply n, some (.handle none)⟩)
    | none =>
      let notice := r.handles + 1
      ({ r with
          handles := notice
          log.notices := r.log.notices.push (.reply (some notice) text r.clock) },
        ⟨r.hooks .reply n, some (.handle (some notice))⟩)
  | .edit notice text =>
    let (r, n) := r.arrive .edit
    match r.script.failure .edit n with
    | some .breaks => (r, ⟨[], none⟩)
    | failure =>
      let success := failure.isNone
      ({ r with log.notices := r.log.notices.push (.edit success notice text r.clock) },
        ⟨r.hooks .edit n, some (.edited success)⟩)

/-- The answer to a notice, as far as a sender looks at it who has no use for its handle. -/
def sent : Option Verdict → Answer Unit
  | none => .broke
  | some _ => .gave ()

/-- The handle in an answer to a notice. -/
def handleIn : Option Verdict → Answer (Option Handle)
  | some (.handle notice) => .gave notice
  | _ => .broke

/-- The success in an answer to an edit. -/
def successIn : Option Verdict → Answer Bool
  | some (.edited success) => .gave success
  | _ => .broke

/-- What an answer says about an operation of the directory. -/
def reachIn : Option Verdict → Answer Reach
  | some (.reach reach) => .gave reach
  | _ => .broke

/-- What an answer says about a delivery. -/
def deliveryIn : Option Verdict → Answer (Except DeliveryError Unit)
  | some (.delivery outcome) => .gave outcome
  | _ => .broke

/-- The move that an answer is to the scene that asked; no verdict means that the call broke. -/
def answerMove (d : Dispatcher) (scene : Scene) (verdict : Option Verdict) :
    Option Dispatcher.Move :=
  match scene with
  | .part r (.worker i) => some (.run r (.worker i (.answered (deliveryIn verdict))))
  | .part r (.removal k) => some (.removed r k (reachIn verdict))
  | .part r .display => some (.run r (.display (.answered (successIn verdict))))
  | .caller c =>
    match d.callers[c]? with
    | some ⟨_, .listingChats _⟩ => some (.caller c (.chatsListed (reachIn verdict)))
    | some ⟨_, .listingUsers _ _⟩ => some (.caller c (.usersListed (reachIn verdict)))
    | some ⟨_, .replying⟩ => some (.caller c (.replied (sent verdict)))
    | some ⟨_, .running r⟩ =>
      match (d.runs[r]?).map Run.stage with
      | some .announcing => some (.run r (.announced (handleIn verdict)))
      | some (.editing _) => some (.run r (.edited (successIn verdict)))
      | some (.replying _) => some (.run r (.replied (sent verdict)))
      | _ => none
    | _ => none
  | _ => none

/-- The run that a move is about. -/
def runOf? : Dispatcher.Move → Option Nat
  | .run r _ => some r
  | .removed r _ _ => some r
  | _ => none

/-- How many parts of a run have ended. -/
def endedParts (run : Run) : Nat :=
  run.workers.countP Run.Worker.hasEnded + run.removals.countP Run.Removal.hasEnded +
    if run.display.hasEnded then 1 else 0

/-- Whoever waited for something that a move of a run brought about gets a turn. -/
def wakeWaiting (r : Rehearsal) (runNumber : Nat) (before after : Run) : Rehearsal :=
  let r := match after.firstQueued? with
    | some k =>
      if before.removals ≠ after.removals ∧ after.hasRemovalPermit ∧
          before.removals.length = after.removals.length then
        r.wakePart runNumber (.removal k)
      else r
    | none => r
  let r := if after.stopSent ∧ ¬before.stopSent then r.wakePart runNumber .display else r
  if endedParts before < endedParts after then r.wakeRun runNumber else r

/-- What a move brings about: metrics are written down, parts of the run become threads, and a
call is put on top of the thread that made the move. -/
def perform (r : Rehearsal) (id : Nat) (runNumber : Option Nat) : List Run.Effect → Rehearsal
  | [] => r
  | .publish metric :: effects =>
    perform { r with log.metrics := r.log.metrics.push metric } id runNumber effects
  | .spawn part :: effects =>
    perform (match runNumber with
      | some run => r.spawn [.part run part]
      | none => r) id runNumber effects
  | .ask ask :: effects =>
    let (r, call) := r.takeUp ask
    perform (r.modifyThread id fun t => { t with scenes := .call call :: t.scenes }) id runNumber
      effects

/-- The dispatcher makes a move on behalf of a thread. -/
def move (r : Rehearsal) (id : Nat) (m : Dispatcher.Move) : Rehearsal :=
  match r.dispatcher.step r.now m with
  | none => r
  | some (dispatcher, effects) =>
    let before := (runOf? m).bind fun n => r.dispatcher.runs[n]?
    let after := (runOf? m).bind fun n => dispatcher.runs[n]?
    let r := { r with dispatcher }
    let r := r.perform id (runOf? m) effects
    match runOf? m, before, after with
    | some n, some before, some after => r.wakeWaiting n before after
    | _, _, _ => r

/-- The thread has to wait, until a moment if it is given one. -/
def wait (r : Rehearsal) (id : Nat) (due : Option Moment) : Rehearsal :=
  { r.modifyThread id fun t =>
      { t with due := due.map fun m => (max (millisecond m) r.clock, r.ordered) } with
    ready := r.ready.filter (· ≠ id)
    ordered := r.ordered + 1 }

/-- The uppermost scene of a thread is over, with a result. -/
def leave (r : Rehearsal) (id : Nat) (rest : List Scene) (result : StepResult) : Rehearsal :=
  r.modifyThread id fun t => { t with scenes := rest, result }

/-- A thread that wishes to cancel after some time. However short that is, everyone who can go on
goes on before. -/
def spawnCancel (r : Rehearsal) : Option Nat → Rehearsal
  | none => r
  | some millis => r.spawn [.nap millis, .action (.errand .cancel)]

/-- A thread begins an action. -/
def beginAction (r : Rehearsal) (id : Nat) (rest : List Scene) : Action → Rehearsal
  | .errand errand =>
    let c := r.dispatcher.callers.length
    (r.move id (.open errand)).setScenes id (.caller c :: rest)
  | .addUser recipient =>
    let isNew := !r.dispatcher.directory.users.contains recipient
    (r.move id (.addUser recipient)).leave id rest (.added isNew)
  | .addChat recipient =>
    let isNew := !r.dispatcher.directory.chats.contains recipient
    (r.move id (.addChat recipient)).leave id rest (.added isNew)
  | .sleep millis =>
    if millis = 0 then r.leave id rest .slept else r.setScenes id (.nap millis :: rest)

/-- A call is over: its answer is a move of the scene below. -/
def answer (r : Rehearsal) (id : Nat) (rest : List Scene) (verdict : Option Verdict) :
    Rehearsal :=
  let r := r.setScenes id rest
  match rest.head?.bind fun scene => answerMove r.dispatcher scene verdict with
  | some m => r.move id m
  | none => r

/-- The uppermost scene breaks down, and with it a call below it. -/
def collapse (r : Rehearsal) (id : Nat) : List Scene → Rehearsal
  | .call _ :: rest => r.answer id rest none
  | rest => r.leave id rest .broke

/-- A thread plays its uppermost call. -/
def playCall (r : Rehearsal) (id : Nat) (call : Call) (rest : List Scene) : Rehearsal :=
  match call.chores with
  | [] => r.answer id rest call.verdict
  | .nap millis :: chores =>
    r.setScenes id (.nap millis :: .call { call with chores } :: rest)
  | .hook step :: chores =>
    (r.spawnCancel step.cancelAfter).setScenes id
      (.action step.action :: .call { call with chores } :: rest)
  | .draw recipient :: chores =>
    let attempt := r.attempts.getD recipient 0
    let delivery := r.script.delivery recipient attempt
    let call :=
      { chores := naps delivery.millis ++ chores, verdict := delivery.outcome.map .delivery }
    let attempts := r.attempts.insert recipient (attempt + 1)
    { r with attempts }.setScenes id (.call call :: rest)

/-- The shortest pause between deliveries that makes a worker wait for its permit; one that is
shorter is over before the worker asks. -/
def noticeablePause : Duration := ⟨100000⟩

/-- How a worker gets its permit. -/
inductive Permit
  | now
  | later
  | at (moment : Moment)

/-- When the worker that a thread plays gets the permit that it waits for, or learns that there will
be none. A permit that takes time is there from the beginning of its millisecond on. -/
def permit? (r : Rehearsal) (t : Thread) (runNumber : Nat) (run : Run) : Permit :=
  match r.permits.lookup runNumber with
  | none => .now
  | some moment =>
    if Pacer.breaksDown run.plan.clocks (!run.paced) run.plan.delay then .now
    else if r.script.permitsTakeTime then
      if moment / 1000000 ≤ r.clock then .now else .at (moment / 1000000 * 1000000)
    else if t.permitted ∨ run.plan.delay.nanos < noticeablePause.nanos then .now
    else .later

/-- A worker takes a permit, and the next one of its run is there after the pause. -/
def takePermit (r : Rehearsal) (t : Thread) (runNumber : Nat) (run : Run) : Rehearsal :=
  let taken := max r.now ((r.permits.lookup runNumber).getD 0)
  { r.modifyThread t.id fun t => { t with permitted := false } with
    permits := (runNumber, taken + run.plan.delay.nanos) ::
      r.permits.filter (·.1 ≠ runNumber) }

/-- A thread plays a part of a run. -/
def playPart (r : Rehearsal) (t : Thread) (runNumber : Nat) (part : Run.Part)
    (rest : List Scene) : Rehearsal :=
  match r.dispatcher.runs[runNumber]? with
  | none => r.leave t.id rest .broke
  | some run =>
    if run.partEnded part then
      r.leave t.id rest .slept
    else
      match run.nextOf? r.now part with
      | none => r.wait t.id (run.dueOf? part)
      | some (.worker i .permit) =>
        match r.permit? t runNumber run with
        | .now => (r.takePermit t runNumber run).move t.id (.run runNumber (.worker i .permit))
        | .at moment => r.wait t.id (some moment)
        | .later =>
          let r := r.wait t.id none
          { r.modifyThread t.id fun t => { t with permitted := true } with
            pausing := r.pausing ++ [t.id] }
      | some m => r.move t.id (.run runNumber m)

/-- A thread plays a caller. -/
def playCaller (r : Rehearsal) (id c : Nat) (rest : List Scene) : Rehearsal :=
  match r.dispatcher.callers[c]? with
  | some ⟨_, .done outcome⟩ => r.leave id rest (.outcome outcome)
  | some ⟨_, .broken⟩ | none => r.collapse id rest
  | some _ =>
    match r.dispatcher.next? r.now c with
    | some m => r.move id m
    | none => r.wait id (r.dispatcher.due? c)

/-- A thread makes one step of its uppermost scene. -/
def play (r : Rehearsal) (t : Thread) : Rehearsal :=
  match t.scenes with
  | [] => r.wait t.id none
  | .action action :: rest => r.beginAction t.id rest action
  | .nap millis :: rest =>
    let wakeAt := r.dispatcher.clocks.after r.now (.ofMillis millis)
    (r.setScenes t.id (.asleep wakeAt :: rest)).wait t.id (some wakeAt)
  | .asleep wakeAt :: rest =>
    if wakeAt ≤ r.now then r.leave t.id rest .slept else r.wait t.id (some wakeAt)
  | .caller c :: rest => r.playCaller t.id c rest
  | .part run part :: rest => r.playPart t run part rest
  | .call call :: rest => r.playCall t.id call rest

/-- The earlier of two moments with their order. -/
def earlier (a b : Nat × Nat) : Nat × Nat :=
  if a.1 < b.1 ∨ (a.1 = b.1 ∧ a.2 ≤ b.2) then a else b

/-- The earliest millisecond at which a thread wakes by itself. -/
def nextDue? (r : Rehearsal) : Option Nat :=
  match r.threads.filterMap (·.due) with
  | [] => none
  | due :: dues => some (dues.foldl earlier due).1

/-- The clock moves on to the earliest moment at which a thread wakes, and the threads due then
get their turns in order. -/
def moveClock (r : Rehearsal) : Option Rehearsal :=
  match r.nextDue? with
  | none => none
  | some clock =>
    let r := { r with clock }
    let woken := (r.threads.filterMap fun t =>
      t.due.bind fun d => if d.1 ≤ clock then some (d.2, t.id) else none).mergeSort
        fun a b => a.1 ≤ b.1
    some (woken.foldl (fun r w => r.wake w.2) r)

/-- The thread wakes by itself, and not only to show progress once more. -/
def Thread.isTimed (t : Thread) : Bool :=
  t.due.isSome && !(match t.scenes with
    | .part _ .display :: _ => true
    | _ => false)

/-- One step of the rehearsal while a thread is to come to its end; `none` once it has and nobody
has a turn, or if nobody will ever have one. -/
def advance (r : Rehearsal) (id : Nat) : Option Rehearsal :=
  match r.ready with
  | next :: ready =>
    match r.thread? next with
    | some t =>
      if t.scenes = [] ∧ next ≠ id then
        some { r with ready, threads := r.threads.filter (·.id ≠ next) }
      else some (r.play t)
    | none => some { r with ready }
  | [] =>
    match (r.thread? id).map (·.scenes) with
    | some (_ :: _) =>
      match r.pausing with
      | next :: pausing =>
        if r.threads.any Thread.isTimed then r.moveClock
        else some ({ r with pausing }.wake next)
      | [] => r.moveClock
    | _ => none

/-- The rehearsal after at most so many steps towards the end of a thread. -/
def playOn : (fuel : Nat) → Rehearsal → (id : Nat) → Rehearsal
  | 0, r, _ => r
  | fuel + 1, r, id =>
    match r.advance id with
    | some r => playOn fuel r id
    | none => r

/-- More steps than any rehearsal takes. -/
def enough : Nat := 10 ^ 15

/-- The rehearsal after a step, and what came of it. -/
def playStep (r : Rehearsal) (step : Step) : Rehearsal × StepResult :=
  let r := r.spawnCancel step.cancelAfter
  let id := r.opened
  let r := playOn enough (r.spawn [.action step.action]) id
  let result := ((r.thread? id).map Thread.result).getD .broke
  ({ r with threads := r.threads.filter (·.id ≠ id) }, result)

/-- The rehearsal with an empty log. -/
def forget (r : Rehearsal) : Rehearsal :=
  { r with log := {} }

end Broadcast.Rehearsal
