import Broadcast.Proofs.Dispatcher.Cancel

/-!
# Launched runs

A dispatcher whose slot is free comes to one more run by one more caller, if the request has
targets and a pace. Nobody else need move meanwhile, so each course of a run by itself is that of
a run of some dispatcher.
-/

namespace Broadcast

namespace Dispatcher

/-- The dispatcher after one more caller has started one more run. -/
def launched (d : Dispatcher) (request : Request) (targets : Targets) (now : Moment) :
    Dispatcher :=
  { d with
    flight := .attached d.runs.length
    runs := d.runs ++ [.opening (d.plan request targets) now false]
    callers := d.callers ++ [⟨.run request, .running d.runs.length⟩] }

/-- The dispatcher with one more caller, who wants a broadcast. -/
def withCaller (d : Dispatcher) (flight : Flight) (request : Request) (stage : Caller.Stage) :
    Dispatcher :=
  { d with flight, callers := d.callers ++ [⟨.run request, stage⟩] }

section

variable {d : Dispatcher} {flight : Flight} {request : Request} {stage : Caller.Stage}

@[simp] theorem withCaller_callers :
    (d.withCaller flight request stage).callers[d.callers.length]? =
      some ⟨.run request, stage⟩ :=
  List.getElem?_concat_length

private theorem setStage_last {d : Dispatcher} {callers : List Caller} {errand : Errand}
    {old : Caller.Stage} (last : d.callers = callers ++ [⟨errand, old⟩]) (stage : Caller.Stage) :
    d.setStage callers.length stage = { d with callers := callers ++ [⟨errand, stage⟩] } := by
  rw [setStage, last, List.modify_eq_take_drop, List.take_left, List.drop_left]
  rfl

private theorem step_begin (now : Moment) {pacer : Pacer}
    (paced : Pacer.ofInterval (d.pause request) = .ok pacer) :
    (d.withCaller .idle request .opening).step now (.caller d.callers.length .begin) =
      some (d.withCaller (.claimed false) request (.listingChats request), [.ask .listChats]) := by
  have begins : (d.withCaller .idle request .opening).beginBroadcast d.callers.length
      (.run request) request =
        (d.withCaller (.claimed false) request (.listingChats request), [.ask .listChats]) := by
    have paced' : Pacer.ofInterval ((d.withCaller .idle request .opening).pause request) =
        .ok pacer := paced
    rw [beginBroadcast, paced']
    exact congrArg (·, _) (setStage_last rfl _)
  simp only [step, stepCaller, withCaller_callers]
  exact congrArg some begins

private theorem step_chatsListed (now : Moment) :
    (d.withCaller flight request (.listingChats request)).step now
        (.caller d.callers.length (.chatsListed (.gave .performed))) =
      some (d.withCaller flight request (.listingUsers request (.ok d.directory.chats)),
        [.ask .listUsers]) := by
  simp only [step, stepCaller, withCaller_callers]
  exact congrArg (fun d => some (d, _)) (setStage_last rfl _)

private theorem startRun_withCaller (now : Moment) (targets : Targets) :
    ((d.withCaller (.claimed false) request stage).startRun now d.callers.length request
      targets).1 = d.launched request targets now := by
  rw [startRun_eq]
  exact setStage_last
    (d := (d.withCaller (.claimed false) request stage).withRun now request targets) rfl _

private theorem step_usersListed (now : Moment)
    {chats : Except Directory.Fault (List Recipient)} {targets : Targets}
    (collected : targets = Targets.collect d.settings.channelThreshold request chats
      (.ok d.directory.users))
    (nonempty : targets.list ≠ []) :
    ∃ effects, (d.withCaller (.claimed false) request (.listingUsers request chats)).step now
        (.caller d.callers.length (.usersListed (.gave .performed))) =
      some (d.launched request targets now, effects) := by
  let ready := d.withCaller (.claimed false) request (.listingUsers request chats)
  refine ⟨(ready.startRun now d.callers.length request targets).2, ?_⟩
  have known : ready.targetsKnown now d.callers.length (.run request) request targets =
      ready.startRun now d.callers.length request targets := if_neg nonempty
  rw [← startRun_withCaller now targets]
  simp only [step, stepCaller, withCaller_callers]
  rw [collected] at known ⊢
  exact congrArg some known

end

end Dispatcher

section Courses

variable {d : Dispatcher}

/-- Events by which one more caller starts one more run. -/
structure Launch (d : Dispatcher) (request : Request) (targets : Targets) (now : Moment)
    (events : List (Event Dispatcher Dispatcher.Move)) (e : Event Dispatcher Dispatcher.Move) :
    Prop where
  /-- The caller has the run. -/
  course : Course Dispatcher.step d events (d.launched request targets now)
  /-- Caller and run have the next numbers. -/
  starts : e.Starts d.callers.length d.runs.length request targets
  /-- Before, the caller finds the slot free and learns of the chats. -/
  steps : ∃ first begins listed, events = [first, begins, listed, e] ∧
    begins.move = .caller d.callers.length .begin ∧
    begins.before.callers[d.callers.length]? = some ⟨.run request, .opening⟩ ∧
    begins.before.flight = .idle ∧
    listed.move = .caller d.callers.length (.chatsListed (.gave .performed))
  /-- Everything happens at once. -/
  moments : events.map Event.moment = List.replicate 4 now
  /-- Nobody else moves. -/
  moves : ∀ e ∈ events,
    e.move = .open (.run request) ∨ ∃ move, e.move = .caller d.callers.length move
  /-- Nobody wishes to cancel. -/
  spares : ∀ e ∈ events, ¬e.Cancels

/-- A dispatcher whose slot is free comes to one more run by a broadcast. -/
theorem launch_of_idle (idle : d.flight = .idle) (now : Moment) {request : Request}
    {targets : Targets} {pacer : Pacer} (paced : Pacer.ofInterval (d.pause request) = .ok pacer)
    (collected : targets = Targets.collect d.settings.channelThreshold request
      (.ok d.directory.chats) (.ok d.directory.users))
    (nonempty : targets.list ≠ []) : ∃ events e, Launch d request targets now events e := by
  have opens : d.step now (.open (.run request)) =
      some (d.withCaller .idle request .opening, []) := by
    rw [← idle]
    rfl
  obtain ⟨effects, starts⟩ := Dispatcher.step_usersListed now collected nonempty
  have early := ((Course.single opens).next (Dispatcher.step_begin now paced)).next
    (Dispatcher.step_chatsListed now)
  refine ⟨_, _, early.next starts, ?_,
    ⟨_, _, _, rfl, rfl, Dispatcher.withCaller_callers, rfl, rfl⟩, rfl, ?_, ?_⟩
  · exact ⟨⟨_, _, _, rfl, rfl, Dispatcher.withCaller_callers, collected⟩, nonempty, rfl,
      (Dispatcher.startRun_withCaller now targets).symm⟩
  · intro e member
    simp only [List.nil_append, List.cons_append, List.mem_cons, List.not_mem_nil, or_false]
      at member
    rcases member with rfl | rfl | rfl | rfl
    · exact .inl rfl
    · exact .inr ⟨_, rfl⟩
    · exact .inr ⟨_, rfl⟩
    · exact .inr ⟨_, rfl⟩
  · rintro e member ⟨⟨k, move, wish⟩, -⟩
    simp only [List.nil_append, List.cons_append, List.mem_cons, List.not_mem_nil, or_false]
      at member
    rcases member with rfl | rfl | rfl | rfl
    · cases move
    · cases move
      cases Dispatcher.withCaller_callers.symm.trans wish
    · cases move
    · cases move

theorem Launch.last {now : Moment} {request : Request} {targets : Targets}
    {events : List (Event Dispatcher Dispatcher.Move)} {e : Event Dispatcher Dispatcher.Move}
    (launch : Launch d request targets now events e) : events.getLast? = some e := by
  obtain ⟨_, _, _, rfl, -⟩ := launch.steps
  rfl

theorem Launch.quiet {request : Request} {targets : Targets} {now : Moment}
    {events : List (Event Dispatcher Dispatcher.Move)} {e : Event Dispatcher Dispatcher.Move}
    (launch : Launch d request targets now events e) (r : Nat) : eventsOf r events = [] := by
  apply List.filterMap_eq_nil_iff.mpr
  intro e' member
  by_contra some
  obtain ⟨own, picked⟩ := Option.ne_none_iff_exists'.mp some
  obtain ⟨-, -, moves, -⟩ := of_eventOf picked
  rcases Dispatcher.source_of_runMove moves with ran | ⟨k, answer, given, removed, -⟩ |
    ⟨-, attached, c, begins, wish⟩
  · rcases launch.moves e' member with move | ⟨m, move⟩ <;> cases move.symm.trans ran
  · rcases launch.moves e' member with move | ⟨m, move⟩ <;> cases move.symm.trans removed
  · exact launch.spares e' member ⟨⟨c, begins, wish⟩, by rw [attached]; rfl⟩

theorem course_of_users (idle : d.flight = .idle) (now : Moment) {users : List Recipient}
    {nodup : users.Nodup} (known : d.directory = .ofUsers users nodup) (source : SourceMessage)
    (delay : Option Duration) {pacer : Pacer}
    (paced : Pacer.ofInterval (d.pause { source, delay }) = .ok pacer)
    (kinds : ∀ x ∈ users, x.kind? d.settings.channelThreshold = some .user)
    (nonempty : users ≠ []) :
    ∃ events e, Course Dispatcher.step d events
        (d.launched { source, delay } (.ofUsers users) now) ∧
      e ∈ events ∧ e.Starts d.callers.length d.runs.length { source, delay } (.ofUsers users) ∧
      eventsOf d.runs.length events = [] ∧ events.map Event.moment = List.replicate 4 now ∧
      (∀ e ∈ events, ¬e.Cancels) ∧ events.getLast? = some e := by
  have collected : Targets.ofUsers users = Targets.collect d.settings.channelThreshold
      { source, delay } (.ok d.directory.chats) (.ok d.directory.users) := by
    rw [known]
    exact (Targets.collect_ofUsers nodup kinds source delay).symm
  obtain ⟨events, e, launch⟩ := launch_of_idle idle now paced collected nonempty
  exact ⟨events, e, launch.course, List.mem_of_getLast? launch.last, launch.starts,
    launch.quiet _, launch.moments, launch.spares, launch.last⟩

/-- Every course of a run by itself is that of a run that such a dispatcher comes to. -/
theorem launch_of_users (idle : d.flight = .idle) {now : Moment} {users : List Recipient}
    {nodup : users.Nodup} (known : d.directory = .ofUsers users nodup) {source : SourceMessage}
    {delay : Option Duration} {pacer : Pacer}
    (paced : Pacer.ofInterval (d.pause { source, delay }) = .ok pacer)
    (kinds : ∀ x ∈ users, x.kind? d.settings.channelThreshold = some .user)
    (nonempty : users ≠ []) {own : List (Event Run Run.Move)} {run : Run}
    (course : Course Run.step (.opening (d.plan { source, delay } (.ofUsers users)) now false)
      own run)
    (inner : ∀ e ∈ own, e.move.isInner = true) :
    ∃ events d' e, Course Dispatcher.step d events d' ∧
      e ∈ events ∧ e.Starts d.callers.length d.runs.length { source, delay } (.ofUsers users) ∧
      d'.runs[d.runs.length]? = some run ∧ eventsOf d.runs.length events = own ∧
      events.map Event.moment = List.replicate 4 now ++ own.map Event.moment ∧
      ∀ e ∈ events, ¬e.Cancels := by
  obtain ⟨past, e, early, member, starts, silent, moments, spares, -⟩ :=
    course_of_users idle now known source delay paced kinds nonempty
  obtain ⟨events, d', late, present, same, moments', inside⟩ := lift_of_course
    (d := d.launched { source, delay } (.ofUsers users) now) course inner
    List.getElem?_concat_length
  refine ⟨past ++ events, d', e, early.append late, List.mem_append_left _ member, starts, present,
    ?_, ?_, ?_⟩
  · rw [eventsOf_append, silent, same, List.nil_append]
  · rw [List.map_append, moments', moments]
  · intro e' member' cancels
    rcases List.mem_append.mp member' with early | late
    · exact spares e' early cancels
    · obtain ⟨move, ran⟩ := inside e' late
      obtain ⟨k, wish, -⟩ := cancels.wish
      cases ran.symm.trans wish

/-- Every course of a run by itself is that of the first run of some dispatcher. -/
theorem lone_of_users {settings : Settings} {clocks : Clocks} {now : Moment}
    {users : List Recipient} {nodup : users.Nodup} {source : SourceMessage}
    {delay : Option Duration} {pacer : Pacer}
    (paced : Pacer.ofInterval ((Dispatcher.start settings (.ofUsers users nodup) clocks).pause
      { source, delay }) = .ok pacer)
    (kinds : ∀ x ∈ users, x.kind? settings.channelThreshold = some .user)
    (nonempty : users ≠ []) {own : List (Event Run Run.Move)} {run : Run}
    (course : Course Run.step
      (.opening ((Dispatcher.start settings (.ofUsers users nodup) clocks).plan
        { source, delay } (.ofUsers users)) now false) own run)
    (inner : ∀ e ∈ own, e.move.isInner = true) :
    ∃ events d e, Course Dispatcher.step (.start settings (.ofUsers users nodup) clocks) events d ∧
      e ∈ events ∧ e.Starts 0 0 { source, delay } (.ofUsers users) ∧ d.runs[0]? = some run ∧
      eventsOf 0 events = own ∧
      events.map Event.moment = List.replicate 4 now ++ own.map Event.moment := by
  obtain ⟨events, d, e, found, member, starts, present, same, moments, -⟩ :=
    launch_of_users (d := .start settings (.ofUsers users nodup) clocks) rfl rfl paced kinds
      nonempty course inner
  exact ⟨events, d, e, found, member, starts, present, same, moments⟩

end Courses

end Broadcast
