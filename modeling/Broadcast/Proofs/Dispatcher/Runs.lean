import Broadcast.Proofs.Dispatcher.Change
import Broadcast.Proofs.Run.Crew
import Broadcast.Proofs.Targets

/-!
# The runs of a dispatcher

Whatever a dispatcher does, each of its runs makes moves of its own and no others. The events of
one run, picked from those of the dispatcher, are a course of the run from its start; what holds
in every course of a run holds of every run of every dispatcher.
-/

namespace Broadcast

namespace Dispatcher

/-- The move that a run makes with a move of its dispatcher. -/
def runMove? (d : Dispatcher) (r : Nat) : Move → Option Run.Move
  | .run k move => if k = r then some move else none
  | .removed k j answer =>
    if k = r then do
      let run ← d.runs[k]?
      let removal ← run.removals[j]?
      some (.removal j (.answered (d.removalAnswer removal answer)))
    else
      none
  | .caller c .begin =>
    match d.callers[c]?, d.flight with
    | some ⟨.cancel, .opening⟩, .attached k => if k = r then some .cancel else none
    | _, _ => none
  | _ => none

end Dispatcher

/-- The event of one run that comes with an event of its dispatcher. -/
def eventOf? (r : Nat) (e : Event Dispatcher Dispatcher.Move) : Option (Event Run Run.Move) := do
  let run ← e.before.runs[r]?
  let move ← e.before.runMove? r e.move
  let (after, effects) ← run.step e.moment move
  some ⟨e.moment, run, move, after, effects⟩

/-- The events of one run among those of its dispatcher. -/
def eventsOf (r : Nat) (events : List (Event Dispatcher Dispatcher.Move)) :
    List (Event Run Run.Move) :=
  events.filterMap (eventOf? r)

@[simp] theorem eventsOf_append (r : Nat) (left right : List (Event Dispatcher Dispatcher.Move)) :
    eventsOf r (left ++ right) = eventsOf r left ++ eventsOf r right :=
  List.filterMap_append

/-- An event of a run is a move of it at the moment of that of its dispatcher. -/
theorem of_eventOf {r : Nat} {e : Event Dispatcher Dispatcher.Move} {own : Event Run Run.Move}
    (picked : eventOf? r e = some own) :
    own.moment = e.moment ∧ e.before.runs[r]? = some own.before ∧
      e.before.runMove? r e.move = some own.move ∧
      own.before.step e.moment own.move = some (own.after, own.effects) := by
  obtain ⟨run, present, picked⟩ := Option.bind_eq_some_iff.mp picked
  obtain ⟨move, moves, picked⟩ := Option.bind_eq_some_iff.mp picked
  obtain ⟨⟨after, effects⟩, made, picked⟩ := Option.bind_eq_some_iff.mp picked
  obtain rfl := Option.some.inj picked
  exact ⟨rfl, present, moves, made⟩

/-- An event of a run is part of one of its dispatcher, with the events of the run before and
behind. -/
theorem split_eventsOf {r : Nat} {events : List (Event Dispatcher Dispatcher.Move)}
    {past rest : List (Event Run Run.Move)} {own : Event Run Run.Move}
    (whole : eventsOf r events = past ++ own :: rest) :
    ∃ early e late, events = early ++ e :: late ∧ eventOf? r e = some own ∧
      eventsOf r early = past ∧ eventsOf r late = rest := by
  obtain ⟨left, right, rfl, early, same⟩ := List.filterMap_eq_append_iff.mp whole
  obtain ⟨between, e, late, rfl, silent, picked, later⟩ := List.filterMap_eq_cons_iff.mp same
  refine ⟨left ++ between, e, late, by simp, picked, ?_, later⟩
  rw [eventsOf_append, eventsOf, early, eventsOf, List.filterMap_eq_nil_iff.mpr silent,
    List.append_nil]

theorem InOrder.eventsOf {events : List (Event Dispatcher Dispatcher.Move)}
    (inOrder : InOrder events) (r : Nat) : InOrder (eventsOf r events) := by
  refine List.Pairwise.filterMap (eventOf? r) ?_ inOrder
  intro e f le e' picked f' picked'
  rw [(of_eventOf picked).1, (of_eventOf picked').1]
  exact le

/-- A run starts with an event: a caller knows the targets of its request, and there are some. -/
structure Event.Starts (e : Event Dispatcher Dispatcher.Move) (c r : Nat) (request : Request)
    (targets : Targets) : Prop where
  /-- The listings that a caller asked for are complete. -/
  listed : ∃ errand chats reach, e.move = .caller c (.usersListed (.gave reach)) ∧
    errand.isResolve = false ∧
    e.before.callers[c]? = some ⟨errand, .listingUsers request chats⟩ ∧
    targets = Targets.collect e.before.settings.channelThreshold request chats
      (Dispatcher.listed e.before.directory.users reach)
  /-- There are targets. -/
  nonempty : targets.list ≠ []
  /-- The run has the next number. -/
  number : e.before.runs.length = r
  /-- The run starts. -/
  after : e.after = (e.before.startRun e.moment c request targets).1

theorem Event.Starts.running {e : Event Dispatcher Dispatcher.Move} {c r : Nat}
    {request : Request} {targets : Targets} (starts : e.Starts c r request targets) :
    ∃ errand, e.after.callers[c]? = some ⟨errand, .running r⟩ := by
  obtain ⟨errand, chats, reach, -, -, listing, -⟩ := starts.listed
  refine ⟨errand, ?_⟩
  rw [starts.after, Dispatcher.startRun_eq, starts.number,
    Dispatcher.setStage_callers (e.before.withRun e.moment request targets) c _ listing,
    if_pos rfl]

theorem Event.Starts.opens {e : Event Dispatcher Dispatcher.Move} {c r : Nat} {request : Request}
    {targets : Targets} (starts : e.Starts c r request targets) :
    e.after.runs[r]? = some (.opening (e.before.plan request targets) e.moment
      (e.before.flight.attach r).2) := by
  rw [starts.after, Dispatcher.startRun_eq, Dispatcher.setStage_runs, Dispatcher.withRun_runs,
    if_pos starts.number.symm]

theorem Event.Starts.effects {e : Event Dispatcher Dispatcher.Move} {c r : Nat}
    {request : Request} {targets : Targets} (starts : e.Starts c r request targets)
    (made : e.before.step e.moment e.move = some (e.after, e.effects)) :
    e.effects = (Run.start (e.before.plan request targets) e.moment).2 := by
  obtain ⟨errand, chats, reach, move, going, listing, rfl⟩ := starts.listed
  obtain ⟨now, d, m, d', effects⟩ := e
  dsimp only at move listing made ⊢
  subst move
  cases Dispatcher.change_of_step made with
  | call call =>
      cases call with
      | resolved there resolves =>
          cases there.symm.trans listing
          cases going.symm.trans resolves
      | noTargets there _ none =>
          cases there.symm.trans listing
          exact absurd none starts.nonempty
      | start there _ collected =>
          cases there.symm.trans listing
          rw [collected]
          rfl

/-- A caller started a run during some events. -/
def Ran (c r : Nat) (events : List (Event Dispatcher Dispatcher.Move)) : Prop :=
  ∃ e ∈ events, ∃ request targets, e.Starts c r request targets

theorem Ran.append {c r : Nat} {events : List (Event Dispatcher Dispatcher.Move)}
    (ran : Ran c r events) (more : List (Event Dispatcher Dispatcher.Move)) :
    Ran c r (events ++ more) := by
  obtain ⟨e, member, starts⟩ := ran
  exact ⟨e, List.mem_append_left _ member, starts⟩

namespace Dispatcher

/-- A run makes a move of its own, is answered by the directory, or is cancelled by a caller. -/
theorem source_of_runMove {d : Dispatcher} {r : Nat} {move : Move} {m : Run.Move}
    (own : d.runMove? r move = some m) :
    move = .run r m ∨
      (∃ k answer given, move = .removed r k answer ∧ m = .removal k (.answered given)) ∨
      m = .cancel ∧ d.flight = .attached r ∧
        ∃ c, move = .caller c .begin ∧ d.callers[c]? = some ⟨.cancel, .opening⟩ := by
  unfold runMove? at own
  split at own
  next k m' =>
    split_ifs at own with mine
    cases own
    exact .inl (by rw [mine])
  next k j answer =>
    split_ifs at own with mine
    obtain ⟨run, -, own⟩ := Option.bind_eq_some_iff.mp own
    obtain ⟨removal, -, own⟩ := Option.bind_eq_some_iff.mp own
    cases own
    exact .inr (.inl ⟨j, answer, _, by rw [mine], rfl⟩)
  next c =>
    split at own
    next k wish attached =>
      split_ifs at own with mine
      cases own
      exact .inr (.inr ⟨rfl, by rw [attached, mine], c, rfl, wish⟩)
    next => cases own
  next => cases own

/-- A run that is there makes a move of its own, or stays as it is. -/
inductive Moves (now : Moment) (run : Run) (run' : Option Run) (attempts : List Attempt) :
    Option Run.Move → Prop
  /-- The run moves, and only its deliveries begin. -/
  | move {m : Run.Move} {after : Run} {effects : List Run.Effect} :
      run.step now m = some (after, effects) → run' = some after →
      attempts = effects.filterMap Run.Effect.attempt? → Moves now run run' attempts (some m)
  /-- The run stays as it is. -/
  | stay : run' = some run → Moves now run run' attempts none

private theorem Advance.moves {now : Moment} {d d' : Dispatcher} {k r : Nat} {move : Run.Move}
    {effects : List Run.Effect} {run : Run} (advance : Advance now d k move d' effects)
    (present : d.runs[r]? = some run) :
    Moves now run d'.runs[r]? (effects.filterMap Run.Effect.attempt?)
      (if k = r then some move else none) := by
  obtain ⟨before, after, asked, found, moved, runs, same⟩ : ∃ before after asked,
      d.runs[k]? = some before ∧ before.step now move = some (after, asked) ∧
      d'.runs = d.runs.set k after ∧
      effects.filterMap Run.Effect.attempt? = asked.filterMap Run.Effect.attempt? := by
    cases advance with
    | on present moved => exact ⟨_, _, _, present, moved, rfl, rfl⟩
    | finish present moved =>
        refine ⟨_, _, _, present, moved, rfl, ?_⟩
        rw [List.filterMap_append, List.append_right_eq_self]
        rfl
    | fail present moved => exact ⟨_, _, _, present, moved, rfl, rfl⟩
  have inside := (List.getElem?_eq_some_iff.mp found).1
  by_cases mine : k = r
  · subst mine
    obtain rfl : before = run := Option.some.inj (found.symm.trans present)
    rw [if_pos rfl]
    exact .move moved (by rw [runs, List.getElem?_set_self inside]) same
  · rw [if_neg mine]
    exact .stay (by rw [runs, List.getElem?_set_ne mine, present])

private theorem Advance.absent {now : Moment} {d d' : Dispatcher} {k r : Nat} {move : Run.Move}
    {effects : List Run.Effect} (advance : Advance now d k move d' effects)
    (absent : d.runs[r]? = none) : d'.runs[r]? = none := by
  rw [List.getElem?_eq_none_iff] at absent ⊢
  cases advance with
  | on | finish | fail => simpa [release] using absent

private theorem runMove_begin {d : Dispatcher} {c r : Nat}
    (other : d.callers[c]? = some ⟨.cancel, .opening⟩ → ∀ k, d.flight ≠ .attached k) :
    d.runMove? r (.caller c .begin) = none := by
  unfold runMove?
  dsimp only
  split
  next k caller flight => exact absurd flight (other caller k)
  next => rfl

private theorem moves_of_begin {now : Moment} {d d' : Dispatcher} {c r : Nat} {run : Run}
    {attempts : List Attempt}
    (other : d.callers[c]? = some ⟨.cancel, .opening⟩ → ∀ k, d.flight ≠ .attached k)
    (stays : d'.runs[r]? = some run) :
    Moves now run d'.runs[r]? attempts (d.runMove? r (.caller c .begin)) := by
  rw [runMove_begin other]
  exact .stay stays

private theorem moves_of_wanted {now : Moment} {d d' : Dispatcher} {c r : Nat} {run : Run}
    {attempts : List Attempt} {errand : Errand} {request : Request}
    (caller : d.callers[c]? = some ⟨errand, .opening⟩)
    (wanted : errand.wanted = .ok (some request)) (stays : d'.runs[r]? = some run) :
    Moves now run d'.runs[r]? attempts (d.runMove? r (.caller c .begin)) := by
  refine moves_of_begin (fun cancel => ?_) stays
  obtain rfl : errand = .cancel := by simpa [caller] using cancel
  cases wanted

private theorem moves_of_cancel {now : Moment} {d : Dispatcher} {c k r : Nat} {run : Run}
    (caller : d.callers[c]? = some ⟨.cancel, .opening⟩) (attached : d.flight = .attached k)
    (present : d.runs[r]? = some run) :
    Moves now run (d.cancelRun k).runs[r]? [] (d.runMove? r (.caller c .begin)) := by
  have meets : d.runMove? r (.caller c .begin) = if k = r then some .cancel else none := by
    simp [runMove?, caller, attached]
  rw [meets]
  by_cases mine : k = r
  · subst mine
    rw [if_pos rfl]
    have cancelled : run.step now .cancel = some ({ run with tally := run.tally.cancel }, []) :=
      rfl
    exact .move cancelled (by simp [cancelRun, present]) rfl
  · rw [if_neg mine]
    exact .stay (by simp [cancelRun, mine, present])

/-- A call cancels a run or leaves it as it is. -/
private theorem Call.moves {now : Moment} {d d' : Dispatcher} {c r : Nat} {move : Caller.Move}
    {effects : List Run.Effect} {run : Run} (call : Call now d c move d' effects)
    (present : d.runs[r]? = some run) :
    Moves now run d'.runs[r]? (effects.filterMap Run.Effect.attempt?)
      (d.runMove? r (.caller c move)) := by
  cases call with
  | misuse caller usage =>
      refine moves_of_begin (fun cancel => ?_) present
      rw [caller] at cancel
      cases cancel
      cases usage
  | busy caller wanted | unpaced caller wanted =>
      rw [refuse_eq]
      exact moves_of_wanted caller wanted present
  | overlong caller wanted | claim caller wanted => exact moves_of_wanted caller wanted present
  | spare _ flight | park _ flight => exact moves_of_begin (fun _ k => by simp [flight]) present
  | cancel caller attached => exact moves_of_cancel caller attached present
  | resolve caller => exact moves_of_begin (fun cancel => by simp [caller] at cancel) present
  | chatsLost caller | usersLost caller =>
      refine .stay ?_
      rw [breakDown_eq]
      split <;> exact present
  | noTargets caller =>
      rw [refuse_eq]
      exact .stay present
  | start caller =>
      have inside := (List.getElem?_eq_some_iff.mp present).1
      refine .stay ?_
      rw [startRun_eq, setStage_runs, withRun_runs, if_neg (Nat.ne_of_lt inside), present]
  | chats | resolved | replyLost | replied => exact .stay present

/-- Whatever a dispatcher does, each run makes a move of its own or stays as it is. -/
theorem moves_of_step {now : Moment} {d d' : Dispatcher} {move : Move}
    {effects : List Run.Effect} (made : d.step now move = some (d', effects)) {r : Nat} {run : Run}
    (present : d.runs[r]? = some run) :
    Moves now run d'.runs[r]? (effects.filterMap Run.Effect.attempt?) (d.runMove? r move) := by
  cases change_of_step made with
  | arrive => exact .stay present
  | call call => exact call.moves present
  | run _ advance => exact advance.moves present
  | @removed k j answer run removal d' effects there asked advance =>
      have moves := advance.moves present
      simpa [runMove?, there, asked] using moves
  | addUser => exact .stay present
  | addChat => exact .stay present

theorem starts_of_step {now : Moment} {d d' : Dispatcher} {move : Move}
    {effects : List Run.Effect} (made : d.step now move = some (d', effects)) {r : Nat} {run : Run}
    (absent : d.runs[r]? = none) (present : d'.runs[r]? = some run) :
    ∃ c request targets, Event.Starts ⟨now, d, move, d', effects⟩ c r request targets ∧
      run = .opening (d.plan request targets) now (d.flight.attach r).2 := by
  cases change_of_step made with
  | arrive | addUser | addChat =>
      rw [absent] at present
      cases present
  | call call =>
      cases call with
      | @start errand request reach chats targets caller going collected nonempty =>
          rw [startRun_eq, setStage_runs, withRun_runs] at present
          split at present
          next last =>
            refine ⟨_, request, targets, ⟨⟨errand, chats, reach, rfl, going, caller, collected⟩,
              nonempty, last.symm, rfl⟩, (Option.some.inj present).symm⟩
          next => cases absent.symm.trans present
      | busy | unpaced | noTargets =>
          rw [refuse_eq] at present
          cases absent.symm.trans present
      | chatsLost | usersLost =>
          rw [breakDown_eq] at present
          split at present <;> cases absent.symm.trans present
      | cancel => simp [cancelRun, List.getElem?_modify, absent] at present
      | misuse | overlong | claim | spare | park | resolve | chats | resolved | replyLost
      | replied => cases absent.symm.trans present
  | run _ advance => cases (advance.absent absent).symm.trans present
  | removed _ _ advance => cases (advance.absent absent).symm.trans present

private theorem Advance.kept {now : Moment} {d d' : Dispatcher} {k : Nat} {move : Run.Move}
    {effects : List Run.Effect} (advance : Advance now d k move d' effects) :
    d'.settings = d.settings ∧ d'.clocks = d.clocks := by
  cases advance <;> exact ⟨rfl, rfl⟩

theorem kept_of_step {now : Moment} {d d' : Dispatcher} {move : Move}
    {effects : List Run.Effect} (made : d.step now move = some (d', effects)) :
    d'.settings = d.settings ∧ d'.clocks = d.clocks := by
  cases change_of_step made with
  | arrive | addUser | addChat => exact ⟨rfl, rfl⟩
  | call call =>
      cases call with
      | busy | unpaced | noTargets =>
          rw [refuse_eq]
          exact ⟨rfl, rfl⟩
      | chatsLost | usersLost =>
          rw [breakDown_eq]
          split <;> exact ⟨rfl, rfl⟩
      | start =>
          rw [startRun_eq]
          exact ⟨rfl, rfl⟩
      | misuse | overlong | claim | spare | park | cancel | resolve | chats | resolved | replyLost
      | replied => exact ⟨rfl, rfl⟩
  | run _ advance => exact advance.kept
  | removed _ _ advance => exact advance.kept

/-- Only runs deliver and edit. -/
theorem message_of_step {now : Moment} {d d' : Dispatcher} {move : Move}
    {effects : List Run.Effect} (made : d.step now move = some (d', effects))
    {effect : Run.Effect} (member : effect ∈ effects) (message : effect.isMessage = true) :
    ∃ r own, eventOf? r ⟨now, d, move, d', effects⟩ = some own ∧ effect ∈ own.effects := by
  have mine {k : Nat} {m : Run.Move} {mid : Dispatcher} (advance : Advance now d k m mid effects)
      (own : d.runMove? k move = some m) :
      ∃ r own, eventOf? r ⟨now, d, move, d', effects⟩ = some own ∧ effect ∈ own.effects := by
    obtain ⟨run, after, asked, present, moved, there⟩ : ∃ run after asked,
        d.runs[k]? = some run ∧ run.step now m = some (after, asked) ∧ effect ∈ asked := by
      cases advance with
      | on present moved | fail present moved => exact ⟨_, _, _, present, moved, member⟩
      | finish present moved =>
          refine ⟨_, _, _, present, moved, (List.mem_append.mp member).resolve_right ?_⟩
          rintro (_ | ⟨_, ⟨⟩⟩)
          cases message
    exact ⟨k, ⟨now, run, m, after, asked⟩, by simp [eventOf?, present, own, moved], there⟩
  cases change_of_step made with
  | arrive | addUser | addChat => cases member
  | call call => cases (call.silent effect member).symm.trans message
  | run _ advance => exact mine advance (by simp [runMove?])
  | removed there asked advance => exact mine advance (by simp [runMove?, there, asked])

theorem stepRun_of_step {now : Moment} {d : Dispatcher} {r : Nat} {run run' : Run}
    {move : Run.Move} {effects : List Run.Effect} (present : d.runs[r]? = some run)
    (made : run.step now move = some (run', effects)) :
    d.stepRun now r move = some ({ d with runs := d.runs.set r run' }.conclude r run' effects) := by
  simp [stepRun, present, made]

/-- A dispatcher lets its runs make all moves that are their own. -/
theorem step_of_inner {now : Moment} {d : Dispatcher} {r : Nat} {run run' : Run}
    {move : Run.Move} {effects : List Run.Effect} (present : d.runs[r]? = some run)
    (made : run.step now move = some (run', effects)) (inner : move.isInner = true) :
    ∃ d' asked, d.step now (.run r move) = some (d', asked) := by
  have allowed : d.step now (.run r move) = d.stepRun now r move := by
    cases move with
    | cancel => cases inner
    | removal k removal =>
        cases removal with
        | begin => rfl
        | answered answer => cases inner
    | announced | worker | display | joined | drained | timedOut | concluded | edited
    | replied => rfl
  exact ⟨_, _, allowed.trans (stepRun_of_step present made)⟩

end Dispatcher

/-! ## Courses -/

private theorem eventsOf_singleton {now : Moment} {s t : Dispatcher} {move : Dispatcher.Move}
    {effects : List Run.Effect} {r : Nat} {run : Run} (present : s.runs[r]? = some run)
    (moves : Dispatcher.Moves now run t.runs[r]? (effects.filterMap Run.Effect.attempt?)
      (s.runMove? r move)) :
    ∃ run', t.runs[r]? = some run' ∧
      Course Run.step run (eventsOf r [⟨now, s, move, t, effects⟩]) run' := by
  generalize own : s.runMove? r move = own? at moves
  cases moves with
  | @move m after asked moved there _ =>
      have picked : eventOf? r ⟨now, s, move, t, effects⟩ = some ⟨now, run, m, after, asked⟩ := by
        simp [eventOf?, present, own, moved]
      refine ⟨after, there, ?_⟩
      rw [eventsOf, List.filterMap_cons_some picked, List.filterMap_nil]
      exact .single moved
  | stay there =>
      have passed : eventOf? r ⟨now, s, move, t, effects⟩ = none := by
        simp [eventOf?, present, own]
      refine ⟨run, there, ?_⟩
      rw [eventsOf, List.filterMap_cons_none passed, List.filterMap_nil]
      exact .start

section Courses

variable {d d' : Dispatcher} {events : List (Event Dispatcher Dispatcher.Move)} {r : Nat}

/-- What a run does during a course of its dispatcher is a course of its own. -/
theorem course_of_run (course : Course Dispatcher.step d events d') {run : Run}
    (present : d.runs[r]? = some run) :
    ∃ run', d'.runs[r]? = some run' ∧ Course Run.step run (eventsOf r events) run' := by
  induction course with
  | start => exact ⟨run, present, .start⟩
  | next _ made ih =>
      obtain ⟨middle, there, early⟩ := ih
      obtain ⟨run', last, late⟩ := eventsOf_singleton there (Dispatcher.moves_of_step made there)
      rw [eventsOf_append]
      exact ⟨run', last, early.append late⟩

theorem length_of_course (course : Course Dispatcher.step d events d') :
    d.runs.length ≤ d'.runs.length := by
  by_contra fewer
  obtain ⟨run, there, -⟩ :=
    course_of_run course (List.getElem?_eq_getElem (Nat.lt_of_not_le fewer))
  exact Nat.lt_irrefl _ (List.getElem?_eq_some_iff.mp there).1

theorem eventsOf_of_absent (course : Course Dispatcher.step d events d')
    (absent : d'.runs[r]? = none) : eventsOf r events = [] := by
  induction course with
  | start => rfl
  | @next events now s t move effects _ made ih =>
      have before : s.runs[r]? = none := by
        cases present : s.runs[r]? with
        | none => rfl
        | some run =>
            obtain ⟨run', there, -⟩ := course_of_run (.single made) present
            cases absent.symm.trans there
      rw [eventsOf_append, ih before, List.nil_append, eventsOf, List.filterMap_cons_none]
      · rfl
      · simp [eventOf?, before]

/-- Every run of a dispatcher that nobody had called began with an event. -/
theorem origin_of_run {settings : Settings} {directory : Directory} {clocks : Clocks}
    (course : Course Dispatcher.step (.start settings directory clocks) events d) {run : Run}
    (present : d.runs[r]? = some run) : ∃ c, Ran c r events := by
  induction course generalizing run with
  | start => simp [Dispatcher.start] at present
  | @next events now s t move effects _ made ih =>
      cases before : s.runs[r]? with
      | some middle =>
          obtain ⟨c, ran⟩ := ih before
          exact ⟨c, ran.append _⟩
      | none =>
          obtain ⟨c, request, targets, starts, -⟩ :=
            Dispatcher.starts_of_step made before present
          have last := List.mem_singleton_self (⟨now, s, move, t, effects⟩ : Event Dispatcher _)
          exact ⟨c, _, List.mem_append_right _ last, request, targets, starts⟩

theorem eventsOf_of_starts {past rest : List (Event Dispatcher Dispatcher.Move)}
    {e : Event Dispatcher Dispatcher.Move} {c : Nat} {request : Request} {targets : Targets}
    (course : Course Dispatcher.step d (past ++ e :: rest) d')
    (starts : e.Starts c r request targets) :
    eventsOf r (past ++ e :: rest) = eventsOf r rest := by
  have absent : e.before.runs[r]? = none := by
    rw [List.getElem?_eq_none_iff, starts.number]
  have silent : eventOf? r e = none := by simp [eventOf?, absent]
  rw [eventsOf_append, eventsOf_of_absent course.around.1 absent, List.nil_append, eventsOf,
    List.filterMap_cons_none silent, eventsOf]

/-- A run that started with an event is there from then on, and all its events are a course from
its start. -/
theorem course_of_starts (course : Course Dispatcher.step d events d')
    {e : Event Dispatcher Dispatcher.Move} {c : Nat} {request : Request} {targets : Targets}
    (member : e ∈ events) (starts : e.Starts c r request targets) :
    ∃ run, d'.runs[r]? = some run ∧
      Course Run.step (.opening (e.before.plan request targets) e.moment
        (e.before.flight.attach r).2) (eventsOf r events) run := by
  obtain ⟨past, rest, rfl⟩ := List.append_of_mem member
  rw [eventsOf_of_starts course starts]
  exact course_of_run course.around.2.2 starts.opens

theorem own_of_starts (course : Course Dispatcher.step d events d')
    {e : Event Dispatcher Dispatcher.Move} {c : Nat} {request : Request} {targets : Targets}
    (member : e ∈ events) (starts : e.Starts c r request targets) {run : Run}
    (present : d'.runs[r]? = some run) :
    Course Run.step (.opening (e.before.plan request targets) e.moment
      (e.before.flight.attach r).2) (eventsOf r events) run := by
  obtain ⟨run', there, own⟩ := course_of_starts course member starts
  obtain rfl : run' = run := Option.some.inj (there.symm.trans present)
  exact own

private theorem not_starts_again {c k : Nat} {e : Event Dispatcher Dispatcher.Move}
    {request : Request} {targets : Targets} (past : Course Dispatcher.step d events e.before)
    (ran : Ran c r events) : ¬e.Starts k r request targets := by
  intro starts
  obtain ⟨first, member, request, targets, starts'⟩ := ran
  obtain ⟨run, present, -⟩ := course_of_starts past member starts'
  have inside := (List.getElem?_eq_some_iff.mp present).1
  rw [starts.number] at inside
  exact Nat.lt_irrefl _ inside

/-- A run is started by one caller only. -/
theorem ran_unique {settings : Settings} {directory : Directory} {clocks : Clocks} {c c' : Nat}
    (course : Course Dispatcher.step (.start settings directory clocks) events d)
    (ran : Ran c r events) (ran' : Ran c' r events) : c = c' := by
  induction course with
  | start =>
      obtain ⟨e, member, -⟩ := ran
      cases member
  | next past made ih =>
      obtain ⟨e, member, request, targets, starts⟩ := ran
      obtain ⟨e', member', request', targets', starts'⟩ := ran'
      rcases List.mem_append.mp member with there | here
      · have ran : Ran c r _ := ⟨e, there, request, targets, starts⟩
        rcases List.mem_append.mp member' with there' | here'
        · exact ih ran ⟨e', there', request', targets', starts'⟩
        · obtain rfl := List.mem_singleton.mp here'
          exact absurd starts' (not_starts_again past ran)
      · obtain rfl := List.mem_singleton.mp here
        rcases List.mem_append.mp member' with there' | here'
        · exact absurd starts
            (not_starts_again past ⟨e', there', request', targets', starts'⟩)
        · obtain rfl := List.mem_singleton.mp here'
          obtain ⟨_, _, _, move, -⟩ := starts.listed
          obtain ⟨_, _, _, move', -⟩ := starts'.listed
          cases move.symm.trans move'
          rfl

theorem Event.Starts.distinct {e : Event Dispatcher Dispatcher.Move} {c : Nat}
    {request : Request} {targets : Targets} (starts : e.Starts c r request targets) :
    targets.list.Nodup := by
  obtain ⟨errand, chats, reach, -, -, -, rfl⟩ := starts.listed
  exact Targets.nodup_collect _ _ _ _

theorem Event.Starts.countable {e : Event Dispatcher Dispatcher.Move} {c : Nat}
    {request : Request} {targets : Targets} (starts : e.Starts c r request targets) :
    targets.list.length < 2 ^ 64 := by
  obtain ⟨errand, chats, reach, -, -, -, rfl⟩ := starts.listed
  exact Targets.length_collect _ _ _ _

theorem kept_of_course (course : Course Dispatcher.step d events d') :
    d'.settings = d.settings ∧ d'.clocks = d.clocks := by
  induction course with
  | start => exact ⟨rfl, rfl⟩
  | next _ made ih =>
      obtain ⟨settings, clocks⟩ := Dispatcher.kept_of_step made
      exact ⟨settings.trans ih.1, clocks.trans ih.2⟩

theorem settings_of_course (course : Course Dispatcher.step d events d') :
    d'.settings = d.settings :=
  (kept_of_course course).1

theorem kept_of_member (course : Course Dispatcher.step d events d')
    {e : Event Dispatcher Dispatcher.Move} (member : e ∈ events) :
    e.before.settings = d.settings ∧ e.before.clocks = d.clocks := by
  obtain ⟨past, rest, rfl⟩ := List.append_of_mem member
  exact kept_of_course course.around.1

theorem settings_of_member (course : Course Dispatcher.step d events d')
    {e : Event Dispatcher Dispatcher.Move} (member : e ∈ events) :
    e.before.settings = d.settings :=
  (kept_of_member course member).1

theorem clocks_of_member (course : Course Dispatcher.step d events d')
    {e : Event Dispatcher Dispatcher.Move} (member : e ∈ events) :
    e.before.clocks = d.clocks :=
  (kept_of_member course member).2

/-- The events of a run lead from its start to where it is, and its plan allows as many removals at
once as the settings do. -/
theorem own_of_run {settings : Settings} {directory : Directory} {clocks : Clocks} {run : Run}
    (course : Course Dispatcher.step (.start settings directory clocks) events d)
    (present : d.runs[r]? = some run) : ∃ plan began cancelled,
    plan.removalPermits = max settings.removalConcurrency.toNat 1 ∧
      Course Run.step (.opening plan began cancelled) (eventsOf r events) run := by
  obtain ⟨c, e, member, request, targets, starts⟩ := origin_of_run course present
  refine ⟨_, _, _, ?_, own_of_starts course member starts present⟩
  rw [Plan.removalPermits, Dispatcher.plan, settings_of_member course member]
  rfl

theorem permits_of_course {settings : Settings} {directory : Directory} {clocks : Clocks}
    {run : Run} (course : Course Dispatcher.step (.start settings directory clocks) events d)
    (fits : settings.removalConcurrency.toNat ≤ Plan.maxRemovalPermits)
    (present : d.runs[r]? = some run) : run.plan.removalPermits ≤ Plan.maxRemovalPermits := by
  obtain ⟨plan, began, cancelled, permits, own⟩ := own_of_run course present
  rw [(Run.plan_of_course own).1, Run.opening_plan, permits]
  exact Nat.max_le.mpr ⟨fits, by decide⟩

/-- Whatever is delivered is delivered by a run. -/
theorem attempts_of_course (course : Course Dispatcher.step d events d') {a : Attempt}
    (tried : a ∈ events.flatMap Event.attempts) :
    ∃ r, a ∈ (eventsOf r events).flatMap Event.attempts := by
  obtain ⟨e, member, begun⟩ := List.mem_flatMap.mp tried
  obtain ⟨past, rest, rfl⟩ := List.append_of_mem member
  obtain ⟨effect, asked, attempt⟩ := List.mem_filterMap.mp begun
  have message : effect.isMessage = true := by
    unfold Run.Effect.attempt? at attempt
    split at attempt
    · rfl
    · cases attempt
  obtain ⟨r, own, picked, there⟩ := Dispatcher.message_of_step course.around.2.1 asked message
  refine ⟨r, List.mem_flatMap.mpr ⟨own, ?_, List.mem_filterMap.mpr ⟨effect, there, attempt⟩⟩⟩
  exact List.mem_filterMap.mpr ⟨e, member, picked⟩

/-- What a run can do by itself it can do under its dispatcher. -/
theorem lift_of_course {run run' : Run} {own : List (Event Run Run.Move)}
    (course : Course Run.step run own run')
    (inner : ∀ e ∈ own, e.move.isInner = true)
    (present : d.runs[r]? = some run) :
    ∃ events d', Course Dispatcher.step d events d' ∧ d'.runs[r]? = some run' ∧
      eventsOf r events = own ∧ events.map Event.moment = own.map Event.moment ∧
      ∀ e ∈ events, ∃ move, e.move = .run r move := by
  induction course with
  | start => exact ⟨[], d, .start, present, rfl, rfl, by simp⟩
  | @next own now s t move effects _ made ih =>
      obtain ⟨events, middle, early, there, same, moments, moves⟩ :=
        ih fun e member => inner e (List.mem_append_left _ member)
      obtain ⟨d', asked, step⟩ := Dispatcher.step_of_inner there made
        (inner _ (List.mem_append_right _ (List.mem_singleton_self _)))
      have picked : eventOf? r ⟨now, middle, .run r move, d', asked⟩ =
          some ⟨now, s, move, t, effects⟩ := by
        simp [eventOf?, there, Dispatcher.runMove?, made]
      have moved := Dispatcher.moves_of_step (r := r) step there
      simp only [Dispatcher.runMove?, if_pos] at moved
      cases moved with
      | @move _ last _ again here =>
          obtain rfl : t = last := by
            rw [made] at again
            cases again
            rfl
          refine ⟨_, d', early.next step, here, ?_, by simp [moments], ?_⟩
          · rw [eventsOf_append, same, eventsOf, List.filterMap_cons_some picked,
              List.filterMap_nil]
          · intro e member
            rcases List.mem_append.mp member with before | last
            · exact moves e before
            · exact ⟨move, by rw [List.mem_singleton.mp last]⟩

end Courses

end Broadcast
