import Broadcast.Proofs.Dispatcher.Callers
import Broadcast.Proofs.Run.Pending

/-!
# Cancels and whom they meet

An accepted cancel meets the run of the caller who holds the slot: at once if it is attached, and
else as soon as it starts. It meets nobody else; a run that is cancelled was cancelled while its
own caller held the slot.
-/

namespace Broadcast

/-- A wish to cancel is accepted. -/
structure Event.Cancels (e : Event Dispatcher Dispatcher.Move) : Prop where
  /-- Somebody wishes to cancel. -/
  wish : ∃ k, e.move = .caller k .begin ∧ e.before.callers[k]? = some ⟨.cancel, .opening⟩
  /-- There is something to cancel. -/
  accepted : e.before.flight.cancel.2.isAccepted = true

/-- No cancel was accepted while a caller held the slot. -/
def Spared (c : Nat) (events : List (Event Dispatcher Dispatcher.Move)) : Prop :=
  ∀ e ∈ events, e.Cancels → e.before.held c = none

namespace Dispatcher

/-- A cancel is parked, or it meets the attached run. -/
theorem cancel_of_cancels {e : Event Dispatcher Move}
    (made : step e.moment e.before e.move = some (e.after, e.effects)) (cancels : e.Cancels) :
    (∃ parked, e.before.flight = .claimed parked ∧ e.after.flight = .claimed true) ∨
      ∃ r, e.before.flight = .attached r ∧ e.after.runs = (e.before.cancelRun r).runs := by
  obtain ⟨now, d, move, d', effects⟩ := e
  obtain ⟨⟨k, rfl, wish⟩, accepted⟩ := cancels
  dsimp only at made wish accepted ⊢
  cases change_of_step made with
  | call call =>
      cases call with
      | park _ claimed => exact .inl ⟨_, claimed, rfl⟩
      | cancel _ attached => exact .inr ⟨_, attached, rfl⟩
      | spare _ idle =>
          simp [idle, Flight.cancel, Flight.Cancellation.isAccepted] at accepted
      | misuse present wanted | busy present wanted | unpaced present wanted
      | overlong present wanted | claim present wanted =>
          cases present.symm.trans wish
          cases wanted
      | resolve present => cases present.symm.trans wish

end Dispatcher

section Courses

variable {settings : Settings} {directory : Directory} {clocks : Clocks} {d d' : Dispatcher}
  {events more : List (Event Dispatcher Dispatcher.Move)} {c r : Nat}

/-! ## Whoever holds the slot is met -/

private theorem rank_of_lists {errand : Errand} {stage : Caller.Stage}
    (lists : Caller.lists ⟨errand, stage⟩ = true) : 1 ≤ stage.rank ∧ stage.rank ≤ 2 := by
  cases stage with
  | opening | running | replying | done | broken => cases lists
  | listingChats | listingUsers => simp [Caller.Stage.rank]

private theorem lists_of_rank {errand : Errand} {stage earlier : Caller.Stage}
    (lists : Caller.lists ⟨errand, stage⟩ = true) (begun : 1 ≤ earlier.rank)
    (before : earlier.rank < stage.rank) : Caller.lists ⟨errand, earlier⟩ = true := by
  cases stage with
  | opening | running | replying | done | broken => cases lists
  | listingChats | listingUsers =>
      cases earlier with
      | listingChats | listingUsers => exact lists
      | opening => cases begun
      | running | replying | done | broken => simp [Caller.Stage.rank] at before

private theorem parked_of_step {now : Moment} {move : Dispatcher.Move}
    {effects : List Run.Effect} (made : Dispatcher.step now d move = some (d', effects))
    (parked : d.flight = .claimed true) {q : Bool} (claimed : d'.flight = .claimed q) :
    q = true := by
  cases Dispatcher.shift_of_step made with
  | still flight | relist _ _ _ flight | run _ _ _ _ flight | cancel _ _ flight =>
      rw [flight, parked] at claimed
      cases claimed
      rfl
  | claim idle => cases idle.symm.trans parked
  | park _ _ flight =>
      cases flight.symm.trans claimed
      rfl
  | attach _ _ flight | free _ _ flight | finish _ _ _ _ _ flight =>
      cases flight.symm.trans claimed

/-- As long as a caller lists recipients after a cancel was parked, the cancel stays parked. -/
private theorem parked_of_course (guarded : d.Guarded)
    (course : Course Dispatcher.step d events d') {errand : Errand} {old : Caller.Stage}
    (present : d.callers[c]? = some ⟨errand, old⟩) (listing : 1 ≤ old.rank)
    (parked : Caller.lists ⟨errand, old⟩ = true → d.flight = .claimed true) :
    ∃ stage, d'.callers[c]? = some ⟨errand, stage⟩ ∧ 1 ≤ stage.rank ∧
      (Caller.lists ⟨errand, stage⟩ = true → d'.flight = .claimed true) := by
  have all : d'.Guarded ∧ ∃ stage, d'.callers[c]? = some ⟨errand, stage⟩ ∧ 1 ≤ stage.rank ∧
      (Caller.lists ⟨errand, stage⟩ = true → d'.flight = .claimed true) := by
    induction course with
    | start => exact ⟨guarded, old, present, listing, parked⟩
    | next _ made ih =>
        obtain ⟨guarded, middle, there, early, parked⟩ := ih
        have guarded' := Dispatcher.guarded_of_step made guarded
        obtain ⟨stage, here, later⟩ := Dispatcher.rises_of_step made there
        refine ⟨guarded', stage, here, ?_, ?_⟩
        · rcases later with rfl | later
          · exact early
          · exact Nat.le_of_lt (Nat.lt_of_le_of_lt early later)
        · intro lists
          have before : Caller.lists ⟨errand, middle⟩ = true := by
            rcases later with rfl | later
            · exact lists
            · exact lists_of_rank lists early later
          obtain ⟨q, claimed, -⟩ := guarded'.slot.listing
            (Dispatcher.held_eq_some.mpr ⟨here, holds_of_lists lists⟩) lists
          rw [claimed, parked_of_step made (parked before) claimed]
  exact all.2

private theorem starts_before {past rest : List (Event Dispatcher Dispatcher.Move)}
    {e e' : Event Dispatcher Dispatcher.Move} {k : Nat} {errand : Errand} {request : Request}
    {targets : Targets} (course : Course Dispatcher.step d (past ++ e :: rest) d')
    (running : e.before.callers[c]? = some ⟨errand, .running k⟩) (other : e' ≠ e)
    (member : e' ∈ past ++ e :: rest) (starts : e'.Starts c r request targets) :
    e' ∈ past ∧ r = k := by
  obtain ⟨early, made, late⟩ := course.around
  obtain ⟨errand', chats, reach, -, -, listing, -⟩ := starts.listed
  rcases List.mem_append.mp member with there | here
  · refine ⟨there, ?_⟩
    obtain ⟨before, between, rfl⟩ := List.append_of_mem there
    obtain ⟨-, -, later⟩ := early.around
    obtain ⟨_, began⟩ := starts.running
    obtain ⟨stage, now, same⟩ := rises_of_course later began
    cases running.symm.trans now
    rcases same with same | same
    · cases same
      rfl
    · exact absurd same (Nat.lt_irrefl _)
  · exfalso
    obtain ⟨before, between, rfl⟩ := List.append_of_mem ((List.mem_cons.mp here).resolve_left other)
    obtain ⟨later, -, -⟩ := late.around
    obtain ⟨stage, now, same⟩ := rises_of_course ((Course.single made).append later) running
    cases listing.symm.trans now
    rcases same with same | same
    · cases same
    · simp [Caller.Stage.rank] at same

theorem held_of_cancels {e : Event Dispatcher Dispatcher.Move}
    (course : Course Dispatcher.step (.start settings directory clocks) events e.before)
    (cancels : e.Cancels) : ∃ c caller, e.before.held c = some caller := by
  have slot := (Dispatcher.guarded_of_course course).slot
  have accepted := cancels.accepted
  generalize e.before.flight = flight at slot accepted
  generalize e.before.held = held at slot ⊢
  cases slot with
  | idle => cases accepted
  | claimed => exact ⟨_, _, Dispatcher.only_self _ _⟩
  | attached => exact ⟨_, _, Dispatcher.only_self _ _⟩

/-- What an accepted cancel has done to the run of a caller that held the slot. -/
structure Met (caller : Caller) (r : Nat) (all rest : List (Event Dispatcher Dispatcher.Move))
    (d : Dispatcher) : Prop where
  /-- No delivery begins afterwards. -/
  quiet : (eventsOf r rest).flatMap Event.attempts = []
  /-- No delivery begins at all, if the run had not started. -/
  silent : caller.lists = true → (eventsOf r all).flatMap Event.attempts = []
  /-- The run is cancelled. -/
  cancelled : ∀ run, d.runs[r]? = some run → run.tally.cancelled = true

private theorem met_of_attached {past rest : List (Event Dispatcher Dispatcher.Move)}
    {e e' : Event Dispatcher Dispatcher.Move} {errand : Errand} {k : Nat} {request : Request}
    {targets : Targets}
    (course : Course Dispatcher.step (.start settings directory clocks) (past ++ e :: rest) d)
    (cancels : e.Cancels) (running : e.before.callers[c]? = some ⟨errand, .running k⟩)
    (member : e' ∈ past ++ e :: rest) (starts : e'.Starts c r request targets) :
    Met ⟨errand, .running k⟩ r (past ++ e :: rest) rest d := by
  obtain ⟨early, made, late⟩ := course.around
  have attached := (Dispatcher.guarded_of_course early).attached running
  have other : e' ≠ e := by
    rintro rfl
    obtain ⟨_, chats, reach, -, -, listing, -⟩ := starts.listed
    cases running.symm.trans listing
  obtain ⟨before, rfl⟩ := starts_before course running other member starts
  obtain ⟨run, present, own⟩ := course_of_starts early before starts
  have cancelled : e.after.runs[r]? = some { run with tally := run.tally.cancel } := by
    rcases Dispatcher.cancel_of_cancels made cancels with ⟨_, claimed, -⟩ | ⟨k, same, runs⟩
    · cases attached.symm.trans claimed
    · cases attached.symm.trans same
      simp [runs, Dispatcher.cancelRun, present]
  obtain ⟨run', there, later⟩ := course_of_run late cancelled
  refine ⟨Run.quiet_of_cancelled later ?_ rfl, ?_, ?_⟩
  · have stops : run.step e.moment .cancel =
        some ({ run with tally := run.tally.cancel }, []) := rfl
    exact Run.staffed_of_step stops (Run.staffed_of_course own)
  · intro lists
    cases lists
  · intro last present'
    obtain rfl : run' = last := Option.some.inj (there.symm.trans present')
    exact Run.cancelled_of_course later rfl

/-- A caller who lists recipients when a cancel is accepted starts its run later. -/
private theorem starts_after {past rest : List (Event Dispatcher Dispatcher.Move)}
    {e e' : Event Dispatcher Dispatcher.Move} {errand : Errand} {stage : Caller.Stage}
    {request : Request} {targets : Targets}
    (course : Course Dispatcher.step d (past ++ e :: rest) d') (cancels : e.Cancels)
    (listing : e.before.callers[c]? = some ⟨errand, stage⟩) (early : stage.rank ≤ 2)
    (member : e' ∈ past ++ e :: rest) (starts : e'.Starts c r request targets) : e' ∈ rest := by
  rcases List.mem_append.mp member with there | here
  · exfalso
    obtain ⟨before, between, rfl⟩ := List.append_of_mem there
    obtain ⟨_, running⟩ := starts.running
    -- Stages only rise, and whoever has started a run lists recipients no more.
    obtain ⟨stage, now, same⟩ := rises_of_course course.around.1.around.2.2 running
    cases listing.symm.trans now
    have last : Caller.Stage.rank (.running r) = 3 := rfl
    rcases same with rfl | same <;> omega
  · apply (List.mem_cons.mp here).resolve_left
    rintro rfl
    obtain ⟨k, move, -⟩ := cancels.wish
    obtain ⟨_, _, _, move', -⟩ := starts.listed
    cases move.symm.trans move'

private theorem attach_of_parked {past rest : List (Event Dispatcher Dispatcher.Move)}
    {e : Event Dispatcher Dispatcher.Move} {errand : Errand} {stage : Caller.Stage}
    {request : Request} {targets : Targets} (guarded : d.Guarded)
    (course : Course Dispatcher.step d (past ++ e :: rest) d')
    (listing : d.callers[c]? = some ⟨errand, stage⟩) (begun : 1 ≤ stage.rank)
    (parked : d.flight = .claimed true) (starts : e.Starts c r request targets) :
    (e.before.flight.attach r).2 = true := by
  obtain ⟨_, now, -, still⟩ :=
    parked_of_course guarded course.around.1 listing begun fun _ => parked
  obtain ⟨_, chats, reach, -, broadcast, listing', -⟩ := starts.listed
  cases listing'.symm.trans now
  rw [still (by simp [Caller.lists, broadcast])]
  rfl

private theorem met_of_parked {past rest : List (Event Dispatcher Dispatcher.Move)}
    {e e' : Event Dispatcher Dispatcher.Move} {caller : Caller} {request : Request}
    {targets : Targets}
    (course : Course Dispatcher.step (.start settings directory clocks) (past ++ e :: rest) d)
    (cancels : e.Cancels) (listing : e.before.callers[c]? = some caller)
    (lists : caller.lists = true) (member : e' ∈ past ++ e :: rest)
    (starts : e'.Starts c r request targets) : Met caller r (past ++ e :: rest) rest d := by
  obtain ⟨early, made, late⟩ := course.around
  obtain ⟨errand, old⟩ := caller
  have begun : 1 ≤ old.rank ∧ old.rank ≤ 2 := rank_of_lists lists
  have guarded := Dispatcher.guarded_of_course early
  obtain ⟨parked, claimed, -⟩ := guarded.slot.listing
    (Dispatcher.held_eq_some.mpr ⟨listing, holds_of_lists lists⟩) lists
  have after : e.after.flight = .claimed true := by
    rcases Dispatcher.cancel_of_cancels made cancels with ⟨_, -, after⟩ | ⟨k, attached, -⟩
    · exact after
    · cases claimed.symm.trans attached
  have meets : (e'.before.flight.attach r).2 = true := by
    obtain ⟨before, between, rfl⟩ :=
      List.append_of_mem (starts_after course cancels listing begun.2 member starts)
    obtain ⟨stage, there, same⟩ := Dispatcher.rises_of_step made listing
    have still : 1 ≤ stage.rank := by rcases same with rfl | same <;> omega
    exact attach_of_parked (Dispatcher.guarded_of_step made guarded) late there still after starts
  obtain ⟨run, there, own⟩ := course_of_starts course member starts
  rw [meets] at own
  have silent := Run.quiet_of_cancelled own (Run.staffed_opening _ _ _) rfl
  refine ⟨?_, fun _ => silent, ?_⟩
  · rw [eventsOf_append, ← List.singleton_append, eventsOf_append, List.flatMap_append,
      List.flatMap_append] at silent
    exact (List.append_eq_nil_iff.mp (List.append_eq_nil_iff.mp silent).2).2
  · intro last present
    obtain rfl : run = last := Option.some.inj (there.symm.trans present)
    exact Run.cancelled_of_course own rfl

/-- A cancel that was accepted while a caller held the slot meets the run of that caller. -/
theorem met_of_cancels {past rest : List (Event Dispatcher Dispatcher.Move)}
    {e e' : Event Dispatcher Dispatcher.Move} {caller : Caller} {request : Request}
    {targets : Targets}
    (course : Course Dispatcher.step (.start settings directory clocks) (past ++ e :: rest) d)
    (cancels : e.Cancels) (holds : e.before.held c = some caller)
    (member : e' ∈ past ++ e :: rest) (starts : e'.Starts c r request targets) :
    Met caller r (past ++ e :: rest) rest d := by
  obtain ⟨present, holds⟩ := Dispatcher.held_eq_some.mp holds
  obtain ⟨errand, stage⟩ := caller
  cases stage with
  | running k => exact met_of_attached course cancels present member starts
  | opening | listingChats | listingUsers | replying | done | broken =>
      exact met_of_parked course cancels present holds member starts

/-! ## Nobody else is met -/

theorem Spared.before {e : Event Dispatcher Dispatcher.Move} (spared : Spared c (events ++ [e])) :
    Spared c events ∧ (e.Cancels → e.before.held c = none) :=
  ⟨fun e' member => spared e' (List.mem_append_left _ member),
    spared e (List.mem_append_right _ (List.mem_singleton_self e))⟩

theorem Spared.append {more : List (Event Dispatcher Dispatcher.Move)} (early : Spared c events)
    (late : Spared c more) : Spared c (events ++ more) :=
  fun e member => (List.mem_append.mp member).elim (early e) (late e)

theorem spared_of_absent (course : Course Dispatcher.step d events d')
    (absent : d'.callers[c]? = none) : Spared c events := by
  intro e member _
  obtain ⟨past, rest, rfl⟩ := List.append_of_mem member
  obtain ⟨-, made, late⟩ := course.around
  cases holds : e.before.held c with
  | none => rfl
  | some caller =>
      obtain ⟨stage, there, -⟩ := rises_of_course ((Course.single made).append late)
        (Dispatcher.held_eq_some.mp holds).1
      cases absent.symm.trans there

/-- Nothing is parked for a caller who is spared. -/
private theorem claimed_of_spared
    (course : Course Dispatcher.step (.start settings directory clocks) events d)
    (spared : Spared c events) {caller : Caller} (holds : d.held c = some caller)
    (lists : caller.lists = true) : d.flight = .claimed false := by
  induction course generalizing caller with
  | start => cases holds
  | @next events now s t move effects past made ih =>
      obtain ⟨clean, nothing⟩ := spared.before
      have guarded := Dispatcher.guarded_of_step made (Dispatcher.guarded_of_course past)
      obtain ⟨parked, claimed, -⟩ := guarded.slot.listing holds lists
      cases Dispatcher.shift_of_step made with
      | still flight held | run _ _ _ _ flight held =>
          rw [flight]
          exact ih clean (held ▸ holds) lists
      | @relist _ k _ _ before listed _ flight held =>
          rw [flight]
          by_cases mine : c = k
          · subst mine
            exact ih clean before listed
          · rw [held, Function.update_of_ne mine] at holds
            exact ih clean holds lists
      | claim _ _ flight => exact flight
      | park present claimed _ held =>
          -- A cancel that is parked is accepted while this caller holds the slot.
          have accepted : s.flight.cancel.2.isAccepted = true := by rw [claimed]; rfl
          cases (held ▸ holds).symm.trans (nothing ⟨⟨_, rfl, present⟩, accepted⟩)
      | cancel _ attached _ held =>
          cases (ih clean (held ▸ holds) lists).symm.trans attached
      | attach _ _ flight | free _ _ flight | finish _ _ _ _ _ flight =>
          cases flight.symm.trans claimed

private theorem cancels_of_runMove {now : Moment} {move : Dispatcher.Move}
    {effects : List Run.Effect} (made : Dispatcher.step now d move = some (d', effects))
    (own : d.runMove? r move = some .cancel) :
    d.flight = .attached r ∧ Event.Cancels ⟨now, d, move, d', effects⟩ := by
  rcases Dispatcher.source_of_runMove own with rfl | ⟨k, answer, given, -, same⟩ |
    ⟨-, attached, c, rfl, wish⟩
  · cases made
  · cases same
  · exact ⟨attached, ⟨c, rfl, wish⟩, by dsimp only; rw [attached]; rfl⟩

/-- A run whose caller is spared is not cancelled. -/
theorem going_of_spared
    (course : Course Dispatcher.step (.start settings directory clocks) events d)
    (spared : Spared c events) (ran : Ran c r events) {run : Run}
    (present : d.runs[r]? = some run) : run.tally.cancelled = false := by
  induction course generalizing run with
  | start => simp [Dispatcher.start] at present
  | @next events now s t move effects past made ih =>
      obtain ⟨clean, nothing⟩ := spared.before
      cases before : s.runs[r]? with
      | none =>
          -- The run starts just now, and is cancelled only if a cancel is parked.
          obtain ⟨k, request, targets, starts, rfl⟩ :=
            Dispatcher.starts_of_step made before present
          obtain rfl : c = k := ran_unique (past.next made) ran
            ⟨_, List.mem_append_right _ (List.mem_singleton_self _), request, targets, starts⟩
          obtain ⟨errand, chats, _, -, broadcast, listing, -⟩ := starts.listed
          have lists : Caller.lists ⟨errand, .listingUsers request chats⟩ = true := by
            simp [Caller.lists, broadcast]
          rw [claimed_of_spared past clean
            (Dispatcher.held_eq_some.mpr ⟨listing, holds_of_lists lists⟩) lists]
          rfl
      | some earlier =>
          have ran : Ran c r events := by
            obtain ⟨k, origin⟩ := origin_of_run past before
            rwa [ran_unique (past.next made) ran (origin.append _)]
          have going := ih clean ran before
          have moves := Dispatcher.moves_of_step made before
          generalize own : s.runMove? r move = own? at moves
          cases moves with
          | stay there =>
              obtain rfl : run = earlier := Option.some.inj (present.symm.trans there)
              exact going
          | @move m after asked moved there =>
              obtain rfl : run = after := Option.some.inj (present.symm.trans there)
              -- A cancel that finds the run attached would not have spared its caller.
              have other : m ≠ .cancel := by
                rintro rfl
                obtain ⟨attached, cancels⟩ := cancels_of_runMove made own
                obtain ⟨k, errand, running⟩ :=
                  (Dispatcher.guarded_of_course past).runner attached
                obtain rfl : c = k := ran_unique past ran (ran_of_running past running)
                have holds := Dispatcher.held_eq_some.mpr ⟨running, rfl⟩
                cases holds.symm.trans (nothing cancels)
              rw [Run.going_of_step moved other, going]

end Courses

end Broadcast
