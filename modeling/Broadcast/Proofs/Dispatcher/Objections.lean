import Broadcast.Proofs.Dispatcher.Returns

/-!
# Commands that start no run

A caller who prepares a broadcast asks for listings only. An objection ends the preparation: its
caller answers with one notice, and gives up the slot if it held it. Until then and from then on it
changes nothing but its own stage, and a slot that nobody else holds.
-/

namespace Broadcast

/-- Why a command starts no run. -/
inductive Objection
  | usage (error : UsageError)
  | dispatch (error : DispatchError)
deriving DecidableEq, Repr

namespace Objection

/-- The notice that tells the operator. -/
def notice : Objection → String
  | usage error => Notice.wrongUsage error
  | dispatch error => error.notice

/-- What has been asked for before there is an objection. -/
def listings : Objection → List Ask
  | dispatch .noTargets => [.listChats, .listUsers]
  | usage _ | dispatch .alreadyRunning | dispatch (.invalidPacing _) => []

/-- The objection is one to a broadcast that has claimed the slot. -/
def claims : Objection → Bool
  | dispatch .noTargets | dispatch (.invalidPacing _) => true
  | usage _ | dispatch .alreadyRunning => false

end Objection

/-- What is asked for by an effect. -/
def Run.Effect.ask? : Run.Effect → Option Ask
  | .ask a => some a
  | .publish _ | .spawn _ => none

/-- What is asked for with an event. -/
def Event.asks {σ μ : Type} (e : Event σ μ) : List Ask :=
  e.effects.filterMap Run.Effect.ask?

/-- What a caller asks for during some events. -/
def asksOf (c : Nat) (events : List (Event Dispatcher Dispatcher.Move)) : List Ask :=
  (events.filter (·.move.isOfCaller c)).flatMap Event.asks

/-- There is an objection to a broadcast that a caller begins, or whose targets become known. -/
inductive Event.Objects (e : Event Dispatcher Dispatcher.Move) (c : Nat) (errand : Errand) :
    Objection → Prop
  /-- The command is not understood, whoever holds the slot. -/
  | misuse {error : UsageError} :
      e.move = .caller c .begin → e.before.callers[c]? = some ⟨errand, .opening⟩ →
      errand.wanted = .error error → Objects e c errand (.usage error)
  /-- Somebody holds the slot. -/
  | busy {request : Request} :
      e.move = .caller c .begin → e.before.callers[c]? = some ⟨errand, .opening⟩ →
      errand.wanted = .ok (some request) → e.before.flight.isBusy = true →
      Objects e c errand (.dispatch .alreadyRunning)
  /-- There is no pause to pace by. -/
  | unpaced {request : Request} :
      e.move = .caller c .begin → e.before.callers[c]? = some ⟨errand, .opening⟩ →
      errand.wanted = .ok (some request) → e.before.flight = .idle →
      (e.before.pause request).nanos = 0 →
      Objects e c errand (.dispatch (.invalidPacing (e.before.pause request)))
  /-- Nobody is to be reached. -/
  | noTargets {request : Request} {reach : Reach}
      {chats : Except Directory.Fault (List Recipient)} :
      e.move = .caller c (.usersListed (.gave reach)) →
      e.before.callers[c]? = some ⟨errand, .listingUsers request chats⟩ →
      errand.wanted = .ok (some request) →
      (Targets.collect e.before.settings.channelThreshold request chats
        (Dispatcher.listed e.before.directory.users reach)).list = [] →
      Objects e c errand (.dispatch .noTargets)

/-- An event changes nothing but the stage of a caller, and a slot that nobody else holds. -/
def Event.KeepsTo (e : Event Dispatcher Dispatcher.Move) (c : Nat) : Prop :=
  ∃ flight stage, e.after = { e.before with flight }.setStage c stage ∧
    (flight = e.before.flight ∨ e.before.flight = .idle ∨ ∃ caller, e.before.held c = some caller)

/-! ## What is asked for -/

theorem asksOf_append (c : Nat) (left right : List (Event Dispatcher Dispatcher.Move)) :
    asksOf c (left ++ right) = asksOf c left ++ asksOf c right := by
  simp [asksOf]

theorem asksOf_own {c : Nat} {e : Event Dispatcher Dispatcher.Move} {m : Caller.Move}
    (own : e.move = .caller c m) : asksOf c [e] = e.asks := by
  simp [asksOf, own, Dispatcher.Move.isOfCaller]

theorem asksOf_eq_nil {c : Nat} {events : List (Event Dispatcher Dispatcher.Move)}
    (silent : ∀ e ∈ events, e.move.isOfCaller c = true → e.asks = []) : asksOf c events = [] := by
  rw [asksOf, List.flatMap_eq_nil_iff]
  intro e member
  obtain ⟨there, own⟩ := List.mem_filter.mp member
  exact silent e there own

/-! ## Preparations -/

/-- The errand is about a request. -/
def Errand.Seeks (errand : Errand) (request : Request) : Prop :=
  errand.wanted = .ok (some request) ∨ errand.isResolve = true

/-- How far a caller without a run has come with what it has asked for. -/
inductive Preparing (errand : Errand) : Caller.Stage → List Ask → Prop
  | opening : Preparing errand .opening []
  | chats {request : Request} :
      errand.Seeks request → Preparing errand (.listingChats request) [.listChats]
  | users {request : Request} {chats : Except Directory.Fault (List Recipient)} :
      errand.Seeks request → Preparing errand (.listingUsers request chats) [.listChats, .listUsers]

theorem Preparing.seeks {errand : Errand} {request : Request}
    {chats : Except Directory.Fault (List Recipient)} {asked : List Ask}
    (preparing : Preparing errand (.listingUsers request chats) asked) :
    errand.Seeks request := by
  cases preparing with
  | users seeks => exact seeks

theorem Preparing.asked {errand : Errand} {request : Request}
    {chats : Except Directory.Fault (List Recipient)} {asked : List Ask}
    (preparing : Preparing errand (.listingUsers request chats) asked) :
    asked = [.listChats, .listUsers] := by
  cases preparing with
  | users => rfl

/-- A caller goes on by a call. -/
structure Event.Advances (e : Event Dispatcher Dispatcher.Move) (c : Nat) (errand : Errand)
    (old stage : Caller.Stage) : Prop where
  before : e.before.callers[c]? = some ⟨errand, old⟩
  /-- No other caller goes on. -/
  callers : e.after.callers = (e.before.setStage c stage).callers
  /-- It comes further. -/
  later : old.rank < stage.rank
  /-- As long as it prepares a broadcast it asks for listings only. -/
  asks : stage.rank ≤ 2 → ∀ asked, Preparing errand old asked →
    Preparing errand stage (asked ++ e.asks)
  /-- Meanwhile it leaves everything else as it is, but for a free slot that it may claim. -/
  keeps : stage.rank ≤ 2 → ∃ flight, e.after = { e.before with flight }.setStage c stage ∧
    (flight = e.before.flight ∨ e.before.flight = .idle)

theorem Event.Advances.after {e : Event Dispatcher Dispatcher.Move} {c : Nat} {errand : Errand}
    {old stage : Caller.Stage} (advances : e.Advances c errand old stage) :
    e.after.callers[c]? = some ⟨errand, stage⟩ := by
  rw [advances.callers, Dispatcher.setStage_callers _ _ _ advances.before, if_pos rfl]

private theorem advances_of_call {e : Event Dispatcher Dispatcher.Move} {c : Nat}
    {move : Caller.Move} (call : Dispatcher.Call e.moment e.before c move e.after e.effects) :
    ∃ errand old stage, e.Advances c errand old stage := by
  obtain ⟨now, d, _, d', effects⟩ := e
  dsimp only at call
  have ends {mid : Dispatcher} {errand : Errand} {old stage : Caller.Stage}
      {move : Dispatcher.Move} {effects : List Run.Effect}
      (present : d.callers[c]? = some ⟨errand, old⟩) (same : mid.callers = d.callers)
      (told : 2 < stage.rank) (later : old.rank < stage.rank) :
      ∃ errand old stage', Event.Advances ⟨now, d, move, mid.setStage c stage, effects⟩ c errand
        old stage' :=
    ⟨errand, old, stage, present, by rw [Dispatcher.setStage, same]; rfl, later, by omega, by omega⟩
  cases call with
  | claim present wanted idle =>
      refine ⟨_, _, _, present, rfl, by simp [Caller.Stage.rank],
        fun _ asked preparing => ?_, fun _ => ⟨_, rfl, .inr idle⟩⟩
      cases preparing
      exact .chats (.inl wanted)
  | resolve present =>
      refine ⟨_, _, _, present, rfl, by simp [Caller.Stage.rank],
        fun _ asked preparing => ?_, fun _ => ⟨d.flight, rfl, .inl rfl⟩⟩
      cases preparing
      exact .chats (.inr rfl)
  | chats present =>
      refine ⟨_, _, _, present, rfl, by simp [Caller.Stage.rank],
        fun _ asked preparing => ?_, fun _ => ⟨d.flight, rfl, .inl rfl⟩⟩
      cases preparing with
      | chats seeks => exact .users seeks
  | misuse present | overlong present | spare present | park present | cancel present
  | resolved present | replyLost present | replied present =>
      exact ends present rfl (by simp [Caller.Stage.rank]) (by simp [Caller.Stage.rank])
  | @busy errand _ present | @unpaced errand _ present | @noTargets errand _ _ _ present =>
      rw [Dispatcher.refuse_eq]
      cases errand <;>
        exact ends present rfl (by simp [Dispatcher.refusal, Caller.Stage.rank])
          (by simp [Dispatcher.refusal, Caller.Stage.rank])
  | chatsLost present | usersLost present =>
      have freed : (d.setStage c .broken).release = d.release.setStage c .broken := rfl
      rw [Dispatcher.breakDown_eq, freed]
      split <;>
        exact ends present rfl (by simp [Caller.Stage.rank]) (by simp [Caller.Stage.rank])
  | start present =>
      rw [Dispatcher.startRun_eq]
      exact ends present rfl (by simp [Caller.Stage.rank]) (by simp [Caller.Stage.rank])

theorem Dispatcher.Call.opening {now : Moment} {d d' : Dispatcher} {c : Nat}
    {effects : List Run.Effect} (call : Call now d c .begin d' effects) :
    ∃ errand, d.callers[c]? = some ⟨errand, .opening⟩ := by
  cases call <;> exact ⟨_, by assumption⟩

theorem advances_of_own {e : Event Dispatcher Dispatcher.Move} {c : Nat}
    (made : e.before.step e.moment e.move = some (e.after, e.effects))
    (own : e.move.isOfCaller c = true) : ∃ errand old stage, e.Advances c errand old stage := by
  obtain ⟨m, move⟩ := Dispatcher.Move.exists_of_isOfCaller own
  rw [move] at made
  cases Dispatcher.change_of_step made with
  | call call => exact advances_of_call call

section Courses

variable {d d' : Dispatcher} {past rest events : List (Event Dispatcher Dispatcher.Move)} {c : Nat}
  {errand : Errand} {stage : Caller.Stage}

private theorem advances_of_course (course : Course Dispatcher.step d events d')
    (present : d'.callers[c]? = some ⟨errand, stage⟩)
    {e : Event Dispatcher Dispatcher.Move} (member : e ∈ events)
    (own : e.move.isOfCaller c = true) :
    ∃ old later, e.Advances c errand old later ∧ later.rank ≤ stage.rank := by
  obtain ⟨before, after, rfl⟩ := List.append_of_mem member
  obtain ⟨-, made, future⟩ := course.around
  obtain ⟨errand', old, later, advances⟩ := advances_of_own made own
  obtain ⟨stage', there, rises⟩ := rises_of_course future advances.after
  cases there.symm.trans present
  refine ⟨old, later, advances, ?_⟩
  rcases rises with rfl | rises
  · exact Nat.le_refl _
  · exact Nat.le_of_lt rises

theorem unmoved_of_opening (course : Course Dispatcher.step d events d')
    (present : d'.callers[c]? = some ⟨errand, .opening⟩) :
    ∀ e ∈ events, e.move.isOfCaller c = false := by
  intro e member
  by_contra own
  obtain ⟨old, later, advances, most⟩ :=
    advances_of_course course present member (Bool.eq_true_of_not_eq_false own)
  exact Nat.not_lt_zero _ (Nat.lt_of_lt_of_le advances.later most)

/-- Whoever prepares a broadcast has asked for listings only. -/
theorem preparing_of_course {settings : Settings} {directory : Directory} {clocks : Clocks}
    (course : Course Dispatcher.step (.start settings directory clocks) events d)
    (present : d.callers[c]? = some ⟨errand, stage⟩) (lists : stage.rank ≤ 2) :
    Preparing errand stage (asksOf c events) := by
  induction course generalizing stage with
  | start => simp [Dispatcher.start] at present
  | @next events now s t move effects past made ih =>
      by_cases own : move.isOfCaller c = true
      · obtain ⟨errand', old, later, advances⟩ :=
          advances_of_own (e := ⟨now, s, move, t, effects⟩) made own
        cases advances.after.symm.trans present
        obtain ⟨m, rfl⟩ := Dispatcher.Move.exists_of_isOfCaller own
        rw [asksOf_append, asksOf_own rfl]
        have early := advances.later
        exact advances.asks lists _ (ih advances.before (by omega))
      · have other : asksOf c [⟨now, s, move, t, effects⟩] = [] :=
          asksOf_eq_nil (by simp [own])
        rw [asksOf_append, other, List.append_nil]
        rcases (Dispatcher.touch_of_step made).before present with same | rfl | ⟨old, -, onward⟩
        · exact ih same lists
        · have unmoved := unmoved_of_opening (past.next made) present
          have silent : asksOf c events = [] := asksOf_eq_nil fun e member mine => by
            simp [unmoved e (List.mem_append_left _ member)] at mine
          rw [silent]
          exact .opening
        · obtain ⟨m, rfl⟩ := onward.own (by have := onward.later; omega)
          simp [Dispatcher.Move.isOfCaller] at own

theorem keepsTo_of_preparing (course : Course Dispatcher.step d events d')
    (present : d'.callers[c]? = some ⟨errand, stage⟩) (lists : stage.rank ≤ 2) :
    ∀ e ∈ events, e.move.isOfCaller c = true → e.KeepsTo c := by
  intro e member own
  obtain ⟨old, later, advances, most⟩ := advances_of_course course present member own
  obtain ⟨flight, after, slot⟩ := advances.keeps (Nat.le_trans most lists)
  exact ⟨flight, later, after, slot.imp_right .inl⟩

end Courses

/-! ## Objections -/

namespace Dispatcher

variable {d : Dispatcher} {c : Nat} {replyTo : Option SourceMessage} {args : String}

private theorem begin_of_misuse {error : UsageError}
    (usage : (Errand.broadcast replyTo args).wanted = .error error) :
    d.begin c (.broadcast replyTo args) = d.reply c (Notice.wrongUsage error) := by
  unfold Errand.wanted at usage
  unfold begin
  dsimp only at usage ⊢
  generalize replyTo.elim (.error .missingSource) (Request.ofArgs · args) = read at usage ⊢
  cases read <;> cases usage
  rfl

private theorem begin_of_wanted {request : Request}
    (wanted : (Errand.broadcast replyTo args).wanted = .ok (some request)) :
    d.begin c (.broadcast replyTo args) =
      d.beginBroadcast c (.broadcast replyTo args) request := by
  unfold Errand.wanted at wanted
  unfold begin
  dsimp only at wanted ⊢
  generalize replyTo.elim (.error .missingSource) (Request.ofArgs · args) = read at wanted ⊢
  cases read <;> cases wanted
  rfl

private theorem step_of_opening {errand : Errand}
    (there : d.callers[c]? = some ⟨errand, .opening⟩) (now : Moment) :
    d.step now (.caller c .begin) = some (d.begin c errand) := by
  rw [step, stepCaller, there]
  rfl

/-- With an objection a command does nothing but to ask for a notice, and to give up the slot if it
has listed recipients. -/
theorem step_of_objects {e : Event Dispatcher Move} {objection : Objection}
    (objects : e.Objects c (.broadcast replyTo args) objection)
    (made : e.before.step e.moment e.move = some (e.after, e.effects)) :
    e.asks = [.reply objection.notice] ∧
      e.after = (if objection.listings = [] then e.before else e.before.release).setStage c
        .replying := by
  obtain ⟨now, d, move, d', effects⟩ := e
  cases objects with
  | misuse move there usage =>
      dsimp only at move there made
      rw [move, step_of_opening there, begin_of_misuse usage] at made
      cases made
      exact ⟨rfl, rfl⟩
  | busy move there wanted taken =>
      dsimp only at move there taken made
      have full : d.flight.claim? = none := by
        cases flight : d.flight with
        | idle => simp [flight, Flight.isBusy] at taken
        | claimed | attached => rfl
      rw [move, step_of_opening there, begin_of_wanted wanted, beginBroadcast, full] at made
      cases made
      exact ⟨rfl, rfl⟩
  | @unpaced request move there wanted idle empty =>
      dsimp only at move there idle empty made
      have free : d.flight.claim? = some (.claimed false) := by rw [idle]; rfl
      have fault : Pacer.ofInterval (d.pause request) = .error .empty := by
        rw [Pacer.ofInterval, dif_neg (by omega)]
      rw [move, step_of_opening there, begin_of_wanted wanted, beginBroadcast, free] at made
      dsimp only at made
      rw [fault] at made
      cases made
      exact ⟨rfl, rfl⟩
  | noTargets move there wanted nobody =>
      dsimp only at move there nobody made
      rw [move, step, stepCaller, there] at made
      dsimp only [Option.bind_eq_bind, Option.bind_some] at made
      rw [targetsKnown, if_pos nobody] at made
      · cases made
        exact ⟨rfl, rfl⟩
      · rintro _ ⟨⟩

theorem prepared_of_objects {e : Event Dispatcher Move} {errand : Errand} {objection : Objection}
    (objects : e.Objects c errand objection) :
    e.move.isOfCaller c = true ∧ ∃ stage, e.before.callers[c]? = some ⟨errand, stage⟩ ∧
      stage.rank ≤ 2 ∧ (objection.listings = [] → stage = .opening) ∧
      ∀ asked, Preparing errand stage asked → asked = objection.listings := by
  cases objects with
  | misuse move there | busy move there | unpaced move there =>
      refine ⟨by rw [move]; exact decide_eq_true rfl, _, there, Nat.zero_le 2, fun _ => rfl, ?_⟩
      rintro _ ⟨⟩
      rfl
  | noTargets move there =>
      refine ⟨by rw [move]; exact decide_eq_true rfl, _, there, Nat.le_refl 2, ?_,
        fun _ preparing => preparing.asked⟩
      intro none
      cases none

theorem held_of_objects {e : Event Dispatcher Move} {objection : Objection}
    (objects : e.Objects c (.broadcast replyTo args) objection)
    (lists : objection.listings ≠ []) : ∃ caller, e.before.held c = some caller := by
  cases objects with
  | misuse | busy | unpaced => exact absurd rfl lists
  | noTargets _ there => exact ⟨_, held_eq_some.mpr ⟨there, rfl⟩⟩

theorem keepsTo_of_objects {e : Event Dispatcher Move} {objection : Objection}
    (objects : e.Objects c (.broadcast replyTo args) objection)
    (made : e.before.step e.moment e.move = some (e.after, e.effects)) : e.KeepsTo c := by
  obtain ⟨-, after⟩ := step_of_objects objects made
  by_cases untouched : objection.listings = []
  · rw [if_pos untouched] at after
    exact ⟨e.before.flight, .replying, after, .inl rfl⟩
  · rw [if_neg untouched] at after
    exact ⟨.idle, .replying, after, .inr (.inr (held_of_objects objects untouched))⟩

theorem idle_of_objects {e : Event Dispatcher Move} {objection : Objection}
    (objects : e.Objects c (.broadcast replyTo args) objection)
    (made : e.before.step e.moment e.move = some (e.after, e.effects))
    (claims : objection.claims = true) : e.after.flight = .idle := by
  obtain ⟨-, after⟩ := step_of_objects objects made
  rw [after]
  cases objects with
  | misuse | busy => cases claims
  | unpaced _ _ _ idle => exact idle
  | noTargets => rfl

private theorem objects_of_call {now : Moment} {d' : Dispatcher} {m : Caller.Move}
    {effects : List Run.Effect} (call : Call now d c m d' effects) {old stage : Caller.Stage}
    (before : d.callers[c]? = some ⟨.broadcast replyTo args, old⟩) (lists : old.rank ≤ 2)
    (after : d'.callers[c]? = some ⟨.broadcast replyTo args, stage⟩)
    (returned : stage.hasReturned = true)
    (seeks : ∀ request chats, old = .listingUsers request chats →
      (Errand.broadcast replyTo args).wanted = .ok (some request)) :
    ∃ objection, Event.Objects ⟨now, d, .caller c m, d', effects⟩ c (.broadcast replyTo args)
      objection := by
  have reaches {mid : Dispatcher} {new : Caller.Stage} (there : d' = mid.setStage c new)
      (same : mid.callers = d.callers) : new = stage := by
    rw [there, setStage_callers mid c new (same ▸ before), if_pos rfl] at after
    cases after
    rfl
  cases call with
  | misuse there usage =>
      cases there.symm.trans before
      exact ⟨_, .misuse rfl there usage⟩
  | busy there wanted taken =>
      cases there.symm.trans before
      exact ⟨_, .busy rfl there wanted taken⟩
  | @unpaced _ request there wanted idle fault =>
      cases there.symm.trans before
      have empty : (d.pause request).nanos = 0 := by
        unfold Pacer.ofInterval at fault
        split at fault
        next =>
          split at fault <;> cases fault
        next empty => omega
      exact ⟨_, .unpaced rfl there wanted idle empty⟩
  | noTargets there going nobody =>
      cases there.symm.trans before
      exact ⟨_, .noTargets rfl there (seeks _ _ rfl) nobody⟩
  | spare there | park there | cancel there | resolve there => cases there.symm.trans before
  | resolved there resolves =>
      cases there.symm.trans before
      cases resolves
  | replyLost there | replied there =>
      cases there.symm.trans before
      simp [Caller.Stage.rank] at lists
  | overlong | claim | chats =>
      obtain rfl := reaches rfl rfl
      cases returned
  | chatsLost there | usersLost there =>
      cases there.symm.trans before
      have freed : d.breakDown c (.broadcast replyTo args) = d.release.setStage c .broken := rfl
      obtain rfl := reaches freed rfl
      cases returned
  | start =>
      obtain rfl := reaches (startRun_eq _ _ _ _ _) rfl
      cases returned

/-- How a command ends for which there is an objection: it is handled, or will be so as soon as its
notice has been sent or has failed; unless the one who should send it breaks down. -/
inductive Answered (d : Dispatcher) (c : Nat) (errand : Errand)
    (rest : List (Event Dispatcher Move)) : Prop
  | handled : d.callers[c]? = some ⟨errand, .done .handled⟩ → Answered d c errand rest
  | replying :
      d.callers[c]? = some ⟨errand, .replying⟩ →
      (∀ now, d.step now (.caller c (.replied (.gave ()))) =
        some (d.setStage c (.done .handled), [])) →
      Answered d c errand rest
  | broken {e : Event Dispatcher Move} :
      d.callers[c]? = some ⟨errand, .broken⟩ → e ∈ rest →
      e.move = .caller c (.replied .broke) → Answered d c errand rest

private theorem replied_of_step {now : Moment} {d d' : Dispatcher} {move : Move}
    {effects : List Run.Effect} (made : d.step now move = some (d', effects)) {c : Nat}
    {errand : Errand} (present : d.callers[c]? = some ⟨errand, .replying⟩) :
    d'.callers[c]? = some ⟨errand, .replying⟩ ∨ d'.callers[c]? = some ⟨errand, .done .handled⟩ ∨
      d'.callers[c]? = some ⟨errand, .broken⟩ ∧ move = .caller c (.replied .broke) := by
  have advances {r : Nat} {m : Run.Move} {mid : Dispatcher}
      (advance : Advance now d r m mid effects) (callers : d'.callers = mid.callers) :
      d'.callers[c]? = some ⟨errand, .replying⟩ := by
    rw [callers]
    cases advance with
    | on => exact present
    | @finish _ _ _ _ k _ _ _ _ _ running | @fail _ _ _ k _ _ _ _ _ running =>
        refine (setStage_callers _ k _ running c).trans ?_
        rw [if_neg, present]
        rintro rfl
        cases running.symm.trans present
  cases change_of_step made with
  | arrive =>
      have inside := (List.getElem?_eq_some_iff.mp present).1
      exact .inl (by rw [List.getElem?_append_left inside, present])
  | addUser | addChat => exact .inl present
  | run _ advance => exact .inl (advances advance rfl)
  | removed _ _ advance => exact .inl (advances advance rfl)
  | @call k m _ _ call =>
      by_cases mine : c = k
      · subst mine
        cases call with
        | replyLost there =>
            cases there.symm.trans present
            exact .inr (.inr ⟨by rw [setStage_callers _ _ _ there, if_pos rfl], rfl⟩)
        | replied there =>
            cases there.symm.trans present
            exact .inr (.inl (by rw [setStage_callers _ _ _ there, if_pos rfl]))
        | misuse there | busy there | unpaced there | overlong there | claim there | spare there
        | park there | cancel there | resolve there | chatsLost there | chats there
        | usersLost there | resolved there | noTargets there | start there =>
            cases there.symm.trans present
      · obtain ⟨_, _, _, goes⟩ := advances_of_call (e := ⟨now, d, .caller k m, d', effects⟩) call
        refine .inl ?_
        rw [goes.callers, setStage_callers _ _ _ goes.before, if_neg mine, present]

/-- Whoever asks for a notice to be sent is answered. -/
theorem answered_of_course {d d' : Dispatcher} {c : Nat} {errand : Errand}
    {rest : List (Event Dispatcher Move)} (future : Course step d rest d')
    (present : d.callers[c]? = some ⟨errand, .replying⟩) : Answered d' c errand rest := by
  have ready {d : Dispatcher} {rest : List (Event Dispatcher Move)}
      (present : d.callers[c]? = some ⟨errand, .replying⟩) : Answered d c errand rest := by
    refine .replying present fun now => ?_
    rw [step, stepCaller, present]
    rfl
  induction future with
  | start => exact ready present
  | next _ made ih =>
      cases ih with
      | handled there => exact .handled (last_of_step made there rfl)
      | broken there member lost =>
          exact .broken (last_of_step made there rfl) (List.mem_append_left _ member) lost
      | replying there =>
          rcases replied_of_step made there with still | handled | ⟨broken, lost⟩
          · exact ready still
          · exact .handled handled
          · exact .broken broken (List.mem_append_right _ (List.mem_singleton_self _)) lost

end Dispatcher

section Courses

variable {settings : Settings} {directory : Directory} {clocks : Clocks} {d : Dispatcher}
  {events : List (Event Dispatcher Dispatcher.Move)} {c : Nat} {replyTo : Option SourceMessage}
  {args : String} {stage : Caller.Stage}

/-- A command that is told something without a run is so because of an objection. -/
theorem objects_of_course
    (course : Course Dispatcher.step (.start settings directory clocks) events d)
    (present : d.callers[c]? = some ⟨.broadcast replyTo args, stage⟩)
    (returned : stage.hasReturned = true) (idle : ∀ r, ¬Ran c r events) :
    ∃ e ∈ events, ∃ objection, e.Objects c (.broadcast replyTo args) objection := by
  induction course generalizing stage with
  | start => simp [Dispatcher.start] at present
  | @next events now s t move effects past made ih =>
      have before {old : Caller.Stage}
          (there : s.callers[c]? = some ⟨.broadcast replyTo args, old⟩)
          (returned : old.hasReturned = true) :
          ∃ e ∈ events ++ [⟨now, s, move, t, effects⟩], ∃ objection,
            e.Objects c (.broadcast replyTo args) objection := by
        obtain ⟨e, member, objects⟩ := ih there returned fun r ran => idle r (ran.append _)
        exact ⟨e, List.mem_append_left _ member, objects⟩
      rcases (Dispatcher.touch_of_step made).before present with same | rfl | ⟨old, there, onward⟩
      · exact before same returned
      · cases returned
      · have seeks (request : Request) (chats : Except Directory.Fault (List Recipient))
            (same : old = .listingUsers request chats) :
            (Errand.broadcast replyTo args).wanted = .ok (some request) := by
          subst same
          exact (preparing_of_course past there (Nat.le_refl 2)).seeks.resolve_right
            (by simp [Errand.isResolve])
        cases old with
        | replying | done => exact before there rfl
        | running r => exact absurd ((ran_of_running past there).append _) (idle r)
        | broken =>
            have later := onward.later
            cases stage <;> simp [Caller.Stage.rank] at later
        | opening | listingChats | listingUsers =>
            obtain ⟨m, rfl⟩ := onward.own (by simp [Caller.Stage.rank])
            cases Dispatcher.change_of_step made with
            | call call =>
                obtain ⟨objection, objects⟩ := Dispatcher.objects_of_call call there
                  (by simp [Caller.Stage.rank]) present returned seeks
                exact ⟨_, List.mem_append_right _ (List.mem_singleton_self _), objection, objects⟩

end Courses

end Broadcast
