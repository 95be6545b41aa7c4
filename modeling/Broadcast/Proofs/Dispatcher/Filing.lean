import Broadcast.Proofs.Dispatcher.Callers
import Broadcast.Proofs.Dispatcher.Listings

/-!
# Where recipients are listed

A removal takes its recipient out of the listing that goes with the sign of its number, and never
looks into the other one. So whoever was asked to leave is out of the former for good, and in the
latter exactly if it was there before.
-/

namespace Broadcast

namespace Directory

/-- The listing that goes with the sign of a recipient. -/
def proper (d : Directory) (x : Recipient) : List Recipient :=
  if x.isUser then d.users else d.chats

/-- The listing that does not go with the sign of a recipient. -/
def astray (d : Directory) (x : Recipient) : List Recipient :=
  if x.isUser then d.chats else d.users

theorem contains_iff {d : Directory} {x : Recipient} :
    d.contains x = true ↔ x ∈ d.proper x ∨ x ∈ d.astray x := by
  unfold contains proper astray
  cases x.isUser <;> simp [or_comm]

/-- A directory has lost recipients from their proper listings only, and has got no new ones. -/
structure Sheds (before after : Directory) : Prop where
  /-- Nobody is added to a proper listing. -/
  proper : ∀ x, x ∈ after.proper x → x ∈ before.proper x
  /-- Whoever is astray stays so. -/
  astray : ∀ x, x ∈ after.astray x ↔ x ∈ before.astray x

theorem Sheds.refl (d : Directory) : Sheds d d :=
  ⟨fun _ => id, fun _ => Iff.rfl⟩

theorem Sheds.trans {first middle last : Directory} (early : Sheds first middle)
    (late : Sheds middle last) : Sheds first last :=
  ⟨fun x there => early.proper x (late.proper x there),
    fun x => (late.astray x).trans (early.astray x)⟩

end Directory

/-- Whoever a run has asked to leave the directory is out of its proper listing. -/
structure Served (directory : Directory) (run : Run) : Prop where
  /-- No removal has broken down. -/
  whole : ∀ x, ⟨x, .broken⟩ ∉ run.removals
  /-- Every removal that was carried out has had its effect. -/
  left : ∀ x, ⟨x, .done⟩ ∈ run.removals → x ∉ directory.proper x

namespace Dispatcher

/-- The move puts somebody into the directory. -/
def Move.adds : Move → Bool
  | .addUser _ | .addChat _ => true
  | .open _ | .caller _ _ | .run _ _ | .removed _ _ _ => false

/-- Nobody who lists recipients for a broadcast has been told of a certain one. -/
def Unaware (d : Dispatcher) (x : Recipient) : Prop :=
  ∀ (c : Nat) (errand : Errand) (request : Request)
    (chats : Except Directory.Fault (List Recipient)),
    d.callers[c]? = some ⟨errand, .listingUsers request chats⟩ → errand.isResolve = false →
      x ∉ chats.toOption.getD []

section Moves

variable {now : Moment} {d d' : Dispatcher} {move : Move} {effects : List Run.Effect} {r : Nat}

/-- Whoever is asked to leave is out of its proper listing then, and nobody else is moved. -/
private theorem sheds_of_removal (d : Dispatcher) (removal : Run.Removal) (answer : Answer Reach) :
    Directory.Sheds d.directory (d.removalDirectory removal answer) ∧
      (answer = .gave .performed → removal.recipient ∉
        (d.removalDirectory removal answer).proper removal.recipient) := by
  obtain ⟨y, stage⟩ := removal
  cases answer with
  | broke => exact ⟨.refl _, fun same => by cases same⟩
  | gave reach =>
      cases reach with
      | unavailable => exact ⟨.refl _, fun same => by cases same⟩
      | performed =>
          have other {x : Recipient} (kind : x.isUser ≠ y.isUser) : x ≠ y := by
            rintro rfl
            exact kind rfl
          cases kind : y.isUser with
          | true =>
              simp only [removalDirectory, Run.Removal.listing, kind, if_true,
                Directory.removeUser, Directory.proper, forall_true_left]
              refine ⟨⟨fun x => ?_, fun x => ?_⟩, d.directory.users_nodup.not_mem_erase⟩
              · unfold Directory.proper
                split
                · exact List.mem_of_mem_erase
                · exact id
              · unfold Directory.astray
                split
                · exact Iff.rfl
                next chat => exact List.mem_erase_of_ne (other (by rw [kind]; exact chat))
          | false =>
              simp only [removalDirectory, Run.Removal.listing, kind, Bool.false_eq_true, if_false,
                Directory.removeChat, Directory.proper, forall_true_left]
              refine ⟨⟨fun x => ?_, fun x => ?_⟩, d.directory.chats_nodup.not_mem_erase⟩
              · unfold Directory.proper
                split
                · exact id
                · exact List.mem_of_mem_erase
              · unfold Directory.astray
                split
                next user => exact List.mem_erase_of_ne (other (by rw [kind, user]; simp))
                · exact Iff.rfl

private theorem Call.directory {c : Nat} {m : Caller.Move} (call : Call now d c m d' effects) :
    d'.directory = d.directory := by
  cases call with
  | busy | unpaced | noTargets =>
      rw [refuse_eq]
      rfl
  | chatsLost | usersLost =>
      rw [breakDown_eq]
      split <;> rfl
  | start =>
      rw [startRun_eq]
      rfl
  | misuse | overlong | claim | spare | park | cancel | resolve | chats | resolved | replyLost
  | replied => rfl

theorem sheds_of_step (made : d.step now move = some (d', effects)) (alone : move.adds = false) :
    Directory.Sheds d.directory d'.directory := by
  cases change_of_step made with
  | arrive => exact .refl _
  | call call =>
      rw [call.directory]
      exact .refl _
  | run _ advance => cases advance <;> exact .refl _
  | @removed _ _ answer _ removal => exact (sheds_of_removal d removal answer).1
  | addUser | addChat => cases alone

/-- As long as nobody is added, whoever the directory was asked to remove is out of its proper
listing. -/
private theorem served_of_step (made : d.step now move = some (d', effects))
    (alone : move.adds = false)
    (answered : ∀ k answer, move = .removed r k answer → answer = .gave .performed)
    {run run' : Run} (present : d.runs[r]? = some run) (there : d'.runs[r]? = some run')
    (served : Served d.directory run) : Served d'.directory run' := by
  have sheds := sheds_of_step made alone
  have moves := moves_of_step made present
  generalize own : d.runMove? r move = own? at moves
  cases moves with
  | stay same =>
      cases same.symm.trans there
      exact ⟨served.whole, fun x done left => served.left x done (sheds.proper x left)⟩
  | move moved same =>
      cases same.symm.trans there
      -- A removal that has just ended was carried out by the directory.
      have fresh {removal : Run.Removal} (member : removal ∈ run'.removals)
          (ended : removal.hasEnded = true) :
          removal ∈ run.removals ∨ removal.stage ≠ .broken ∧
            removal.recipient ∉ d'.directory.proper removal.recipient := by
        rcases Run.ended_of_step moved member ended with old | ⟨k, given, rfl, asking, broke⟩
        · exact .inl old
        · obtain ⟨answer, found, asked, rfl, present', there', rfl, directory⟩ :=
            removed_of_answered made own
          cases present.symm.trans present'
          cases asking.symm.trans there'
          have performed := answered k answer rfl
          refine .inr ⟨fun broken => ?_, ?_⟩
          · have lost := broke broken
            rw [performed, removalAnswer] at lost
            split at lost <;> cases lost
          · rw [directory]
            exact (sheds_of_removal d _ answer).2 performed
      constructor
      · intro x broken
        rcases fresh broken rfl with old | ⟨whole, -⟩
        · exact served.whole x old
        · exact whole rfl
      · intro x done
        rcases fresh done rfl with old | ⟨-, left⟩
        · exact fun left => served.left x old (sheds.proper x left)
        · exact left

/-- Nobody who lists recipients for a broadcast learns of one who is listed nowhere. -/
theorem unaware_of_step (made : d.step now move = some (d', effects)) {x : Recipient}
    (unaware : d.Unaware x)
    (gone : ∀ {c caller}, d.held c = some caller → caller.lists = true →
      d.directory.contains x = false) : d'.Unaware x := by
  intro c errand request chats listing broadcast
  rcases (touch_of_step made).before listing with same | new | ⟨old, before, onward⟩
  · exact unaware c errand request chats same broadcast
  · cases new
  · obtain ⟨rfl, reach, rfl⟩ := onward.listed request chats rfl
    cases reach with
    | unavailable => exact List.not_mem_nil
    | performed =>
        have lists : Caller.lists ⟨errand, .listingChats request⟩ = true := by
          simp [Caller.lists, broadcast]
        have out := gone (held_eq_some.mpr ⟨before, holds_of_lists lists⟩) lists
        intro chat
        have listed : x ∈ d.directory.chats := chat
        have stays : d.directory.contains x = true := by simp [Directory.contains, listed]
        cases out.symm.trans stays

end Moves

end Dispatcher

section Courses

variable {d d' : Dispatcher} {events : List (Event Dispatcher Dispatcher.Move)} {r : Nat}
  {run : Run}

/-- As long as nobody is added, nobody comes into a listing and nobody who is astray leaves it. -/
theorem sheds_of_course (course : Course Dispatcher.step d events d')
    (alone : ∀ e ∈ events, e.move.adds = false) :
    Directory.Sheds d.directory d'.directory := by
  induction course with
  | start => exact .refl _
  | next _ made ih =>
      refine (ih fun e member => alone e (List.mem_append_left _ member)).trans ?_
      exact Dispatcher.sheds_of_step made
        (alone _ (List.mem_append_right _ (List.mem_singleton_self _)))

/-- The directory is left to itself, and it carries out the removals of a run in time. -/
structure Serves (r : Nat) (events : List (Event Dispatcher Dispatcher.Move)) : Prop where
  /-- Nobody is added. -/
  alone : ∀ e ∈ events, e.move.adds = false
  /-- The directory can be reached whenever it is asked. -/
  answered : ∀ e ∈ events, ∀ k answer, e.move = .removed r k answer → answer = .gave .performed
  /-- The removals have ended by the time the run stops waiting for them. -/
  waited : ∀ own ∈ eventsOf r events, own.move = .timedOut →
    own.before.removals.all Run.Removal.hasEnded = true

theorem Serves.before {more : List (Event Dispatcher Dispatcher.Move)}
    (serves : Serves r (events ++ more)) : Serves r events where
  alone e member := serves.alone e (List.mem_append_left _ member)
  answered e member := serves.answered e (List.mem_append_left _ member)
  waited own member := by
    apply serves.waited own
    rw [eventsOf_append]
    exact List.mem_append_left _ member

private theorem served_of_course (course : Course Dispatcher.step d events d')
    (serves : Serves r events) {first : Run} (present : d.runs[r]? = some first)
    (served : Served d.directory first) (there : d'.runs[r]? = some run) :
    Served d'.directory run := by
  induction course generalizing run with
  | start =>
      cases present.symm.trans there
      exact served
  | @next events now s t move effects past made ih =>
      have here := List.mem_append_right events
        (List.mem_singleton_self (⟨now, s, move, t, effects⟩ : Event Dispatcher _))
      obtain ⟨earlier, before, -⟩ := course_of_run past present
      exact Dispatcher.served_of_step made (serves.alone _ here) (serves.answered _ here) before
        there (ih serves.before before)

section Starts

variable {settings : Settings} {directory : Directory} {clocks : Clocks}
  {past rest : List (Event Dispatcher Dispatcher.Move)} {e : Event Dispatcher Dispatcher.Move}
  {c : Nat} {request : Request} {targets : Targets}

private theorem ended_of_serves
    (course : Course Dispatcher.step (.start settings directory clocks) (past ++ e :: rest) d)
    (starts : e.Starts c r request targets) (serves : Serves r rest)
    (present : d.runs[r]? = some run) (isOver : run.stage.isOver = true) :
    run.removals.all Run.Removal.hasEnded = true := by
  have own := own_of_starts course (List.mem_append_right _ (List.mem_cons_self ..)) starts present
  rw [eventsOf_of_starts course starts] at own
  exact Run.ended_of_over own serves.waited isOver

/-- Whoever was to be removed by a run that is over is out of its proper listing. -/
theorem unlisted_of_over
    (course : Course Dispatcher.step (.start settings directory clocks) (past ++ e :: rest) d)
    (starts : e.Starts c r request targets) (serves : Serves r rest)
    (present : d.runs[r]? = some run) (isOver : run.stage.isOver = true) {x : Recipient}
    (removed : x ∈ run.removals.map Run.Removal.recipient) : x ∉ d.directory.proper x := by
  have ended := List.all_eq_true.mp (ended_of_serves course starts serves present isOver)
  have served : Served d.directory run :=
    served_of_course course.around.2.2 serves starts.opens ⟨nofun, nofun⟩ present
  obtain ⟨⟨y, stage⟩, there, rfl⟩ := List.mem_map.mp removed
  cases stage with
  | done => exact served.left y there
  | broken => exact absurd there (served.whole y)
  | queued | asking => cases ended _ there

theorem removals_of_serves {more : List (Event Dispatcher Dispatcher.Move)}
    (course : Course Dispatcher.step (.start settings directory clocks) (past ++ e :: rest) d)
    (starts : e.Starts c r request targets) (serves : Serves r rest)
    (present : d.runs[r]? = some run) (isOver : run.stage.isOver = true)
    (future : Course Dispatcher.step d more d') {last : Run} (there : d'.runs[r]? = some last) :
    last.removals = run.removals := by
  have own := own_of_starts course (List.mem_append_right _ (List.mem_cons_self ..)) starts present
  obtain ⟨run', here, onward⟩ := course_of_run future present
  cases here.symm.trans there
  exact Run.removals_of_over onward (Run.staffed_of_course own) isOver
    (ended_of_serves course starts serves present isOver)

end Starts

theorem Event.Starts.lists {e : Event Dispatcher Dispatcher.Move} {c : Nat} {request : Request}
    {targets : Targets} (starts : e.Starts c r request targets) :
    ∃ caller, e.before.held c = some caller ∧ caller.lists = true := by
  obtain ⟨errand, chats, -, -, broadcast, listing, -⟩ := starts.listed
  have lists : Caller.lists ⟨errand, .listingUsers request chats⟩ = true := by
    simp [Caller.lists, broadcast]
  exact ⟨_, Dispatcher.held_eq_some.mpr ⟨listing, holds_of_lists lists⟩, lists⟩

private theorem untargeted_of_starts {e : Event Dispatcher Dispatcher.Move} {c : Nat}
    {request : Request} {targets : Targets} {x : Recipient} (starts : e.Starts c r request targets)
    (unaware : e.before.Unaware x) (gone : e.before.directory.contains x = false) :
    x ∉ targets.list := by
  intro target
  obtain ⟨errand, chats, reach, -, broadcast, listing, rfl⟩ := starts.listed
  rcases Targets.mem_collect target with chat | user
  · exact unaware c errand request chats listing broadcast chat
  · cases reach with
    | unavailable => cases user
    | performed =>
        have listed : x ∈ e.before.directory.users := user
        have stays : e.before.directory.contains x = true := by simp [Directory.contains, listed]
        cases gone.symm.trans stays

/-- Whoever is out of the directory whenever a run is over is no target of any later run. -/
theorem untargeted_of_course (course : Course Dispatcher.step d events d') (guarded : d.Guarded)
    (present : d.runs[r]? = some run) (attached : d.flight = .attached r) {x : Recipient}
    (out : ∀ e ∈ events, ∀ run, e.before.runs[r]? = some run → run.stage.isOver = true →
      e.before.directory.contains x = false) :
    ∀ e ∈ events, ∀ c k request targets, e.Starts c k request targets → x ∉ targets.list := by
  have all : (d'.Guarded ∧ d'.Unaware x) ∧
      ∀ e ∈ events, ∀ c k request targets, e.Starts c k request targets → x ∉ targets.list := by
    induction course with
    | start =>
        refine ⟨⟨guarded, fun c errand request chats listing broadcast => ?_⟩, by simp⟩
        have lists : Caller.lists ⟨errand, .listingUsers request chats⟩ = true := by
          simp [Caller.lists, broadcast]
        obtain ⟨parked, claimed, -⟩ := guarded.slot.listing
          (Dispatcher.held_eq_some.mpr ⟨listing, holds_of_lists lists⟩) lists
        cases attached.symm.trans claimed
    | @next events now s t move effects past made ih =>
        obtain ⟨⟨guarded, unaware⟩, untargeted⟩ :=
          ih fun e member => out e (List.mem_append_left _ member)
        have here := List.mem_append_right events
          (List.mem_singleton_self (⟨now, s, move, t, effects⟩ : Event Dispatcher _))
        -- Whoever lists recipients holds the slot, so the run is over then.
        have gone {c : Nat} {caller : Caller} (holds : s.held c = some caller)
            (lists : caller.lists = true) : s.directory.contains x = false := by
          obtain ⟨run', there, -⟩ := course_of_run past present
          obtain ⟨parked, claimed, -⟩ := guarded.slot.listing holds lists
          refine out _ here run' there ?_
          rw [← Bool.not_eq_false, guarded.ends r run' there, claimed]
          exact Flight.noConfusion
        refine ⟨⟨Dispatcher.guarded_of_step made guarded,
          Dispatcher.unaware_of_step made unaware gone⟩, fun e member => ?_⟩
        rcases List.mem_append.mp member with early | last
        · exact untargeted e early
        · obtain rfl := List.mem_singleton.mp last
          intro c k request targets starts
          obtain ⟨caller, holds, lists⟩ := starts.lists
          exact untargeted_of_starts starts unaware (gone holds lists)
  exact all.2

end Courses

end Broadcast
