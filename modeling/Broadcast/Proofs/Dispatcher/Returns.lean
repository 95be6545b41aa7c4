import Broadcast.Proofs.Dispatcher.Release
import Broadcast.Proofs.Published

/-!
# How broadcasts return to their callers

A broadcast returns with the report of its run, or with the reason why it did not start. What its
caller has published by then of broadcasts is all that it ever publishes of them.
-/

namespace Broadcast

/-- What a caller is told when no run starts for it: a command is answered by a notice. -/
def Errand.told (errand : Errand) (error : DispatchError) : List Run.Effect :=
  match errand with
  | .broadcast _ _ => [.ask (.reply error.notice)]
  | .cancel | .run _ | .resolve _ => []

/-- The counters that go up when no run starts. A pause that cannot be kept is not counted. -/
def DispatchError.counters : DispatchError → List Metric.Counter
  | alreadyRunning => [.runsRejected .alreadyRunning]
  | noTargets => [.runsRejected .noTargets]
  | invalidPacing _ => []

/-- The counters that go up when a broadcast returns. -/
def returnCounters : Except DispatchError Report → List Metric.Counter
  | .ok _ => [.runsStarted]
  | .error error => error.counters

/-- The caller knows what came of its errand. -/
def Caller.Stage.hasReturned : Caller.Stage → Bool
  | replying | done _ => true
  | opening | listingChats _ | listingUsers _ _ | running _ | broken => false

/-- The move is one of a caller. -/
def Dispatcher.Move.isOfCaller (c : Nat) : Dispatcher.Move → Bool
  | .caller k _ => k = c
  | .open _ | .run _ _ | .removed _ _ _ | .addUser _ | .addChat _ => false

theorem Dispatcher.Move.exists_of_isOfCaller {c : Nat} {move : Dispatcher.Move}
    (own : move.isOfCaller c = true) : ∃ m, move = .caller c m := by
  cases move with
  | caller k m =>
      obtain rfl : k = c := of_decide_eq_true own
      exact ⟨m, rfl⟩
  | «open» | run | removed | addUser | addChat => cases own

/-- What a caller publishes of broadcasts during some events. -/
def runCounters (c : Nat) (events : List (Event Dispatcher Dispatcher.Move)) :
    List Metric.Counter :=
  (counters (events.filter (·.move.isOfCaller c))).filter Metric.Counter.isRun

theorem runCounters_append (c : Nat) (left right : List (Event Dispatcher Dispatcher.Move)) :
    runCounters c (left ++ right) = runCounters c left ++ runCounters c right := by
  simp [runCounters]

theorem runCounters_eq_nil {c : Nat} {events : List (Event Dispatcher Dispatcher.Move)}
    (silent : ∀ e ∈ events, ∀ m, e.move = .caller c m → e.counters = []) :
    runCounters c events = [] := by
  have nothing : counters (events.filter (·.move.isOfCaller c)) = [] := by
    rw [counters, List.flatMap_eq_nil_iff]
    intro e member
    obtain ⟨there, own⟩ := List.mem_filter.mp member
    obtain ⟨m, move⟩ := Dispatcher.Move.exists_of_isOfCaller own
    exact silent e there m move
  rw [runCounters, nothing, List.filter_nil]

theorem runCounters_own {c : Nat} {e : Event Dispatcher Dispatcher.Move} {m : Caller.Move}
    (own : e.move = .caller c m) :
    runCounters c [e] = e.counters.filter Metric.Counter.isRun := by
  simp [runCounters, own, Dispatcher.Move.isOfCaller]

/-- A broadcast returns to its caller. -/
inductive Event.Returns (e : Event Dispatcher Dispatcher.Move) (c : Nat) :
    Except DispatchError Report → Prop
  /-- Its run has reported. -/
  | report {errand : Errand} {r : Nat} {run : Run} {report : Report} :
      e.before.callers[c]? = some ⟨errand, .running r⟩ →
      e.after.callers[c]? = some ⟨errand, .done (errand.outcome report)⟩ →
      e.after.runs[r]? = some run → run.stage = .finished report → Returns e c (.ok report)
  /-- No run starts for it. -/
  | refusal {errand : Errand} {request : Request} {move : Caller.Move} {old : Caller.Stage}
      {error : DispatchError} :
      e.move = .caller c move → e.before.callers[c]? = some ⟨errand, old⟩ →
      errand.wanted = .ok (some request) →
      e.after.callers[c]? = some ⟨errand, Dispatcher.refusal errand error⟩ →
      (∀ effect ∈ errand.told error, effect ∈ e.effects) → Returns e c (.error error)

/-- The first letter of the notice, behind a mark and a blank, tells the reason. -/
private theorem letter_of_notice (error : DispatchError) :
    error.notice.toList[2]? = some (match error with
      | .alreadyRunning => 'A'
      | .noTargets => 'N'
      | .invalidPacing _ => 'I') := by
  cases error with
  | alreadyRunning | noTargets => decide +kernel
  | invalidPacing interval =>
      have notice : (DispatchError.invalidPacing interval).notice =
          "❗ Invalid pacing interval: " ++ interval.exact := rfl
      rw [notice, String.toList_append]
      rfl

theorem DispatchError.counters_of_notice {error other : DispatchError}
    (same : error.notice = other.notice) : error.counters = other.counters := by
  have letter := letter_of_notice error
  rw [same, letter_of_notice other] at letter
  cases error <;> cases other <;> first | rfl | simp at letter

/-! ## What a call does for its broadcast -/

namespace Dispatcher

/-- The ways in which a call goes on with a broadcast that its caller wants. -/
inductive Handling (errand : Errand) (old : Caller.Stage) :
    Caller.Stage → List Run.Effect → Prop
  /-- No run starts. -/
  | refuse (error : DispatchError) :
      old.rank ≤ 2 → Handling errand old (refusal errand error)
        (error.counters.map (fun counter => .publish (.count counter)) ++ errand.told error)
  /-- The targets are not known yet. -/
  | list {stage : Caller.Stage} {effects : List Run.Effect} :
      stage.rank ≤ 2 → Handling errand old stage effects
  /-- A run starts. -/
  | start {r : Nat} {effects : List Run.Effect} : Handling errand old (.running r) effects
  /-- The caller breaks down. -/
  | break {effects : List Run.Effect} : Handling errand old .broken effects
  /-- The caller has been told. -/
  | told : old = .replying → Handling errand old (.done .handled) []

/-- A call goes on with a broadcast in one of the ways of `Handling`. -/
theorem Call.handling {now : Moment} {d d' : Dispatcher} {c : Nat} {move : Caller.Move}
    {effects : List Run.Effect} (call : Call now d c move d' effects) {errand : Errand}
    {old : Caller.Stage} {request : Request} (present : d.callers[c]? = some ⟨errand, old⟩)
    (wanted : errand.wanted = .ok (some request)) :
    ∃ stage, d'.callers[c]? = some ⟨errand, stage⟩ ∧ Handling errand old stage effects := by
  have here {mid : Dispatcher} {stage : Caller.Stage} (same : mid.callers = d.callers)
      (handling : Handling errand old stage effects) :
      ∃ stage', (mid.setStage c stage).callers[c]? = some ⟨errand, stage'⟩ ∧
        Handling errand old stage' effects :=
    ⟨stage, by rw [setStage_callers mid c stage (same ▸ present), if_pos rfl], handling⟩
  cases call with
  | misuse there usage =>
      cases there.symm.trans present
      cases usage.symm.trans wanted
  | spare there | park there | cancel there | resolve there =>
      cases there.symm.trans present
      cases wanted
  | resolved there resolves =>
      cases there.symm.trans present
      cases errand <;> cases resolves
      cases wanted
  | busy there =>
      cases there.symm.trans present
      rw [refuse_eq]
      refine here rfl ?_
      cases errand <;> exact .refuse .alreadyRunning (by simp [Caller.Stage.rank])
  | unpaced there =>
      cases there.symm.trans present
      rw [refuse_eq]
      refine here rfl ?_
      cases errand <;> exact .refuse (.invalidPacing _) (by simp [Caller.Stage.rank])
  | noTargets there =>
      cases there.symm.trans present
      rw [refuse_eq]
      refine here rfl ?_
      cases errand <;> exact .refuse .noTargets (by simp [Caller.Stage.rank])
  | start there =>
      cases there.symm.trans present
      rw [startRun_eq]
      exact here rfl .start
  | overlong there | replyLost there =>
      cases there.symm.trans present
      exact here rfl .break
  | chatsLost there | usersLost there =>
      cases there.symm.trans present
      rw [breakDown_eq]
      split <;> exact here rfl .break
  | claim there | chats there =>
      cases there.symm.trans present
      exact here rfl (.list (by simp [Caller.Stage.rank]))
  | replied there =>
      cases there.symm.trans present
      exact here rfl (.told rfl)

end Dispatcher

/-! ## What a caller publishes -/

section Courses

variable {d d' : Dispatcher} {events : List (Event Dispatcher Dispatcher.Move)} {c r : Nat}
  {errand : Errand}

private theorem runCounters_of_listing (course : Course Dispatcher.step d events d')
    {stage : Caller.Stage} (present : d'.callers[c]? = some ⟨errand, stage⟩)
    (lists : stage.rank ≤ 2) : runCounters c events = [] := by
  refine runCounters_eq_nil fun e member m own => ?_
  rcases asked_of_course course present lists e member m own with asks | asks | asks <;>
    rw [Event.counters, asks] <;> rfl

private theorem runCounters_of_told (future : Course Dispatcher.step d events d')
    {stage : Caller.Stage} (present : d.callers[c]? = some ⟨errand, stage⟩)
    (told : 2 < stage.rank) : runCounters c events = [] := by
  refine runCounters_eq_nil fun e member m own => ?_
  obtain ⟨-, -, silent⟩ := told_of_course future present told e member m own
  rw [Event.counters, silent, List.filterMap_nil]

theorem runCounters_of_starts (course : Course Dispatcher.step d events d')
    {e : Event Dispatcher Dispatcher.Move} {request : Request} {targets : Targets}
    (member : e ∈ events) (starts : e.Starts c r request targets) :
    runCounters c events = [.runsStarted] := by
  obtain ⟨past, rest, rfl⟩ := List.append_of_mem member
  obtain ⟨early, made, late⟩ := course.around
  obtain ⟨errand, chats, reach, own, -, listing, -⟩ := starts.listed
  obtain ⟨_, running⟩ := starts.running
  have started : e.counters = [.runsStarted] := by
    rw [Event.counters, starts.effects made]
    rfl
  rw [List.append_cons, runCounters_append, runCounters_append,
    runCounters_of_listing early listing (Nat.le_refl _), runCounters_own own, started,
    runCounters_of_told late running (by simp [Caller.Stage.rank])]
  rfl

private theorem counters_of_refusal {error other : DispatchError} {request : Request}
    {effects : List Run.Effect} (wanted : errand.wanted = .ok (some request))
    (same : Dispatcher.refusal errand error = Dispatcher.refusal errand other)
    (brings : effects =
      other.counters.map (fun counter => .publish (.count counter)) ++ errand.told other)
    (told : ∀ effect ∈ errand.told error, effect ∈ effects) :
    effects.filterMap Run.Effect.counter? = error.counters := by
  -- The stage of a command does not tell the reason; only its notice does.
  have alike : error.counters = other.counters := by
    cases errand with
    | broadcast =>
        have noticed : Run.Effect.ask (.reply error.notice) ∈ effects :=
          told _ (List.mem_singleton_self _)
        rw [brings] at noticed
        exact DispatchError.counters_of_notice (by simpa [Errand.told] using noticed)
    | run =>
        obtain rfl : error = other := by simpa [Dispatcher.refusal] using same
        rfl
    | cancel | resolve => cases wanted
  have silent : (errand.told other).filterMap Run.Effect.counter? = [] := by
    cases errand <;> rfl
  have counted (published : List Metric.Counter) :
      (published.map fun counter => Run.Effect.publish (.count counter)).filterMap
        Run.Effect.counter? = published := by
    rw [List.filterMap_map]
    exact List.filterMap_some
  rw [brings, List.filterMap_append, silent, counted, List.append_nil, alike]

/-- Whoever is refused publishes this once, if its reason is one that is counted. -/
private theorem runCounters_of_refusal (course : Course Dispatcher.step d events d')
    {e : Event Dispatcher Dispatcher.Move} {error : DispatchError} (member : e ∈ events)
    (returns : e.Returns c (.error error)) : runCounters c events = error.counters := by
  obtain ⟨past, rest, rfl⟩ := List.append_of_mem member
  obtain ⟨early, made, late⟩ := course.around
  cases returns with
  | @refusal errand request m old _ own present wanted after told =>
      rw [own] at made
      cases Dispatcher.change_of_step made with
      | call call =>
          obtain ⟨stage, there, handling⟩ := call.handling present wanted
          obtain rfl : Dispatcher.refusal errand error = stage := by
            cases after.symm.trans there
            rfl
          have late' : 2 < (Dispatcher.refusal errand error).rank := by
            cases errand <;> simp [Dispatcher.refusal, Caller.Stage.rank]
          generalize same : Dispatcher.refusal errand error = stage at handling
          generalize brings : e.effects = effects at handling
          cases handling with
          | refuse other lists =>
              have counted : e.counters = error.counters :=
                counters_of_refusal wanted same brings told
              have runs : error.counters.filter Metric.Counter.isRun = error.counters := by
                cases error <;> rfl
              rw [List.append_cons, runCounters_append, runCounters_append,
                runCounters_of_listing early present lists, runCounters_own own, counted, runs,
                runCounters_of_told late after late', List.nil_append, List.append_nil]
          | list lists =>
              rw [← same] at lists
              omega
          | start | «break» | told => cases errand <;> cases same

end Courses

section Courses

variable {settings : Settings} {directory : Directory} {clocks : Clocks} {d : Dispatcher}
  {events : List (Event Dispatcher Dispatcher.Move)} {c : Nat} {errand : Errand}

/-- When a broadcast returns, its caller has published how, and publishes nothing more of it. -/
theorem runCounters_of_returns
    (course : Course Dispatcher.step (.start settings directory clocks) events d)
    {e : Event Dispatcher Dispatcher.Move} (member : e ∈ events)
    {result : Except DispatchError Report} (returns : e.Returns c result) :
    runCounters c events = returnCounters result := by
  cases result with
  | error error => exact runCounters_of_refusal course member returns
  | ok report =>
      cases returns with
      | report running =>
          obtain ⟨past, rest, rfl⟩ := List.append_of_mem member
          obtain ⟨x, before, request, targets, starts⟩ := ran_of_running course.around.1 running
          exact runCounters_of_starts course (List.mem_append_left _ before) starts

private theorem returns_of_step {e : Event Dispatcher Dispatcher.Move}
    (made : e.before.step e.moment e.move = some (e.after, e.effects)) {stage : Caller.Stage}
    {request : Request} (present : e.after.callers[c]? = some ⟨errand, stage⟩)
    (wanted : errand.wanted = .ok (some request)) (returned : stage.hasReturned = true) :
    (∃ old, e.before.callers[c]? = some ⟨errand, old⟩ ∧ old.hasReturned = true) ∨
      ∃ result, e.Returns c result := by
  have listing {old : Caller.Stage} (before : e.before.callers[c]? = some ⟨errand, old⟩)
      (own : ∃ m, e.move = .caller c m) :
      (∃ old, e.before.callers[c]? = some ⟨errand, old⟩ ∧ old.hasReturned = true) ∨
        ∃ result, e.Returns c result := by
    obtain ⟨m, own⟩ := own
    rw [own] at made
    cases Dispatcher.change_of_step made with
    | call call =>
        obtain ⟨stage', there, handling⟩ := call.handling before wanted
        cases present.symm.trans there
        generalize brings : e.effects = effects at handling
        cases handling with
        | refuse error =>
            refine .inr ⟨_, .refusal own before wanted present fun effect told => ?_⟩
            rw [brings]
            exact List.mem_append_right _ told
        | list lists =>
            cases stage with
            | replying | done => simp [Caller.Stage.rank] at lists
            | opening | listingChats | listingUsers | running | broken => cases returned
        | start | «break» => cases returned
        | told replying => exact .inl ⟨old, before, by rw [replying]; rfl⟩
  rcases (Dispatcher.touch_of_step made).before present with same | rfl | ⟨old, before, onward⟩
  · exact .inl ⟨stage, same, returned⟩
  · cases returned
  · cases old with
    | opening | listingChats | listingUsers =>
        exact listing before (onward.own (by simp [Caller.Stage.rank]))
    | running r =>
        obtain ⟨run, there, ⟨report, finished, rfl⟩ | ⟨-, rfl⟩⟩ := onward.ended r rfl
        · exact .inr ⟨_, .report before present there finished⟩
        · cases returned
    | replying | done => exact .inl ⟨_, before, rfl⟩
    | broken =>
        have later := onward.later
        cases stage <;> simp [Caller.Stage.rank] at later

/-- Whoever knows what came of its broadcast has been told so when it returned. -/
theorem returns_of_course
    (course : Course Dispatcher.step (.start settings directory clocks) events d)
    {stage : Caller.Stage} {request : Request} (present : d.callers[c]? = some ⟨errand, stage⟩)
    (wanted : errand.wanted = .ok (some request)) (returned : stage.hasReturned = true) :
    ∃ e ∈ events, ∃ result, e.Returns c result := by
  induction course generalizing stage with
  | start => simp [Dispatcher.start] at present
  | next past made ih =>
      rcases returns_of_step (e := ⟨_, _, _, _, _⟩) made present wanted returned with
        ⟨old, before, returned⟩ | told
      · obtain ⟨e, member, told⟩ := ih before returned
        exact ⟨e, List.mem_append_left _ member, told⟩
      · exact ⟨_, List.mem_append_right _ (List.mem_singleton_self _), told⟩

end Courses

end Broadcast
