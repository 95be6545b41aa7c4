import Broadcast.Proofs.Dispatcher.Runs
import Broadcast.Proofs.Run.Departures
import Broadcast.Proofs.Run.Ending

/-!
# The directory during a run

A directory that is left to the removals of one run loses those who leave with them and nobody
else, each out of the listing of its kind; the order of the others stays.
-/

namespace Broadcast

/-- The event leaves the directory to the removals of one run. -/
def Event.LeavesDirectoryTo (e : Event Dispatcher Dispatcher.Move) (r : Nat) : Prop :=
  e.after.directory = e.before.directory ∨ ∃ k answer, e.move = .removed r k answer

/-- A recipient leaves the listing in which it is. -/
inductive Departure (before after : Directory) (x : Recipient) : Prop
  | user :
      x ∈ before.users → after.users = before.users.erase x → after.chats = before.chats →
      Departure before after x
  | chat :
      x ∈ before.chats → after.chats = before.chats.erase x → after.users = before.users →
      Departure before after x

/-- What has become of a directory, given the run whose removals change it. -/
structure Thinned (original now : Directory) (run : Run) : Prop where
  /-- Some users have left. -/
  users : now.users.Sublist original.users
  /-- Some chats have left. -/
  chats : now.chats.Sublist original.chats
  /-- The run has counted them. -/
  size : run.removed.toNat + now.users.length + now.chats.length =
    original.users.length + original.chats.length
  /-- Whoever has left has done so with a removal. -/
  done : ∀ x, x ∈ original.users ∧ x ∉ now.users ∨ x ∈ original.chats ∧ x ∉ now.chats →
    ⟨x, .done⟩ ∈ run.removals

namespace Dispatcher

section Moves

variable {now : Moment} {d d' : Dispatcher} {move : Move} {effects : List Run.Effect} {r : Nat}
  {run run' : Run}

theorem removed_of_answered (made : d.step now move = some (d', effects)) {k : Nat}
    {given : Answer Bool} (own : d.runMove? r move = some (.removal k (.answered given))) :
    ∃ answer run removal, move = .removed r k answer ∧ d.runs[r]? = some run ∧
      run.removals[k]? = some removal ∧ given = d.removalAnswer removal answer ∧
      d'.directory = d.removalDirectory removal answer := by
  rcases source_of_runMove own with rfl | ⟨j, answer, given', rfl, same⟩ | ⟨same, -⟩
  · cases made
  · cases same
    cases change_of_step made with
    | @removed _ _ _ run removal _ _ present asked =>
        simp only [runMove?, if_true, present, asked, Option.bind_eq_bind, Option.bind_some,
          Option.some.injEq, Run.Move.removal.injEq, true_and, Run.RemovalMove.answered.injEq]
          at own
        exact ⟨answer, run, removal, rfl, present, asked, own.symm, rfl⟩
  · cases same

private theorem removed_of_departs (made : d.step now move = some (d', effects)) {m : Run.Move}
    (own : d.runMove? r move = some m) (departs : m.departs = true) :
    ∃ k answer, move = .removed r k answer := by
  cases m with
  | removal k removal =>
      cases removal with
      | answered given =>
          obtain ⟨answer, -, -, same, -⟩ := removed_of_answered made own
          exact ⟨k, answer, same⟩
      | begin => cases departs
  | announced | worker | display | joined | drained | timedOut | concluded | edited | replied
  | cancel => cases departs

private theorem departure_of_answer (d : Dispatcher) (removal : Run.Removal)
    (answer : Answer Reach) :
    d.removalAnswer removal answer = .gave true ∧
        Departure d.directory (d.removalDirectory removal answer) removal.recipient ∨
      (Run.Move.removal r (.answered (d.removalAnswer removal answer))).departs = false ∧
        d.removalDirectory removal answer = d.directory := by
  cases answer with
  | broke => exact .inr ⟨rfl, rfl⟩
  | gave reach =>
      cases reach with
      | unavailable => exact .inr ⟨rfl, rfl⟩
      | performed =>
          cases listing : removal.listing with
          | user =>
              by_cases member : removal.recipient ∈ d.directory.users
              · refine .inl ⟨?_, ?_⟩
                · simp [removalAnswer, listing, member]
                · rw [removalDirectory, listing]
                  exact .user member rfl rfl
              · refine .inr ⟨?_, ?_⟩
                · simp [removalAnswer, listing, member, Run.Move.departs]
                · simp [removalDirectory, listing, Directory.removeUser,
                    List.erase_of_not_mem member]
          | chat =>
              by_cases member : removal.recipient ∈ d.directory.chats
              · refine .inl ⟨?_, ?_⟩
                · simp [removalAnswer, listing, member]
                · rw [removalDirectory, listing]
                  exact .chat member rfl rfl
              · refine .inr ⟨?_, ?_⟩
                · simp [removalAnswer, listing, member, Run.Move.departs]
                · simp [removalDirectory, listing, Directory.removeChat,
                    List.erase_of_not_mem member]

/-- A directory that is left to a run loses whoever leaves with its removals, and nobody else. -/
theorem directory_of_step (made : d.step now move = some (d', effects))
    (present : d.runs[r]? = some run) (there : d'.runs[r]? = some run')
    (left : Event.LeavesDirectoryTo ⟨now, d, move, d', effects⟩ r) :
    d'.directory = d.directory ∧ run'.removed = run.removed ∨
      run'.removed = run.removed + 1 ∧
        ∃ x, ⟨x, .done⟩ ∈ run'.removals ∧ Departure d.directory d'.directory x := by
  have moves := moves_of_step made present
  rw [there] at moves
  by_cases mine : ∃ k answer, move = .removed r k answer
  · obtain ⟨k, answer, rfl⟩ := mine
    cases change_of_step made with
    | @removed _ _ _ before removal mid _ found asked =>
        obtain rfl : before = run := Option.some.inj (found.symm.trans present)
        have own : d.runMove? r (.removed r k answer) =
            some (.removal k (.answered (d.removalAnswer removal answer))) := by
          simp [runMove?, found, asked]
        rw [own] at moves
        cases moves with
        | move moved after =>
            cases after
            have counted := Run.removed_of_step moved
            rcases departure_of_answer (r := k) d removal answer with ⟨gave, leaves⟩ | ⟨stays, same⟩
            · rw [gave] at moved counted
              obtain ⟨x, same, done⟩ := Run.done_of_departs moved
              cases same.symm.trans asked
              exact .inr ⟨counted, x, done, leaves⟩
            · rw [stays] at counted
              exact .inl ⟨same, counted⟩
  · refine .inl ⟨left.resolve_right mine, ?_⟩
    generalize own : d.runMove? r move = own? at moves
    cases moves with
    | stay same =>
        cases same
        rfl
    | @move m _ _ moved after =>
        cases after
        rw [Run.removed_of_step moved, if_neg]
        exact fun departs => mine (removed_of_departs made own departs)

end Moves

end Dispatcher

section Courses

variable {settings : Settings} {directory : Directory} {clocks : Clocks} {d : Dispatcher}
  {past rest : List (Event Dispatcher Dispatcher.Move)} {e : Event Dispatcher Dispatcher.Move}
  {c r : Nat} {request : Request} {targets : Targets} {run : Run}

private theorem erase_of_sublist {original now : List Recipient} {x : Recipient}
    (part : now.Sublist original) (member : x ∈ now) :
    (now.erase x).Sublist original ∧ (now.erase x).length + 1 = now.length ∧
      ∀ y, y ∈ original ∧ y ∉ now.erase x → y = x ∨ y ∈ original ∧ y ∉ now := by
  refine ⟨List.erase_sublist.trans part, List.length_erase_add_one member, ?_⟩
  rintro y ⟨there, gone⟩
  by_cases same : y = x
  · exact .inl same
  · exact .inr ⟨there, by rwa [List.mem_erase_of_ne same] at gone⟩

private theorem Thinned.departure {original now later : Directory} {run run' : Run}
    {x : Recipient} (thinned : Thinned original now run) (leaves : Departure now later x)
    (counted : run'.removed.toNat = run.removed.toNat + 1) (done : ⟨x, .done⟩ ∈ run'.removals)
    (stays : ∀ y, ⟨y, .done⟩ ∈ run.removals → ⟨y, .done⟩ ∈ run'.removals) :
    Thinned original later run' := by
  have size := thinned.size
  cases leaves with
  | user member users chats =>
      obtain ⟨part, shorter, gone⟩ := erase_of_sublist thinned.users member
      rw [← users] at part shorter gone
      refine ⟨part, by rw [chats]; exact thinned.chats, by rw [chats]; omega, ?_⟩
      rintro y (left | left)
      · rcases gone y left with rfl | before
        · exact done
        · exact stays y (thinned.done y (.inl before))
      · exact stays y (thinned.done y (.inr (by rwa [chats] at left)))
  | chat member chats users =>
      obtain ⟨part, shorter, gone⟩ := erase_of_sublist thinned.chats member
      rw [← chats] at part shorter gone
      refine ⟨by rw [users]; exact thinned.users, part, by rw [users]; omega, ?_⟩
      rintro y (left | left)
      · exact stays y (thinned.done y (.inl (by rwa [users] at left)))
      · rcases gone y left with rfl | before
        · exact done
        · exact stays y (thinned.done y (.inr before))

/-- From the start of a run, a directory that is left to it loses those whom it counts as having
left. -/
theorem thinned_of_starts
    (course : Course Dispatcher.step (.start settings directory clocks) (past ++ e :: rest) d)
    (starts : e.Starts c r request targets) (left : ∀ e' ∈ rest, e'.LeavesDirectoryTo r)
    (present : d.runs[r]? = some run) : Thinned e.after.directory d.directory run := by
  induction rest using List.reverseRecOn generalizing d run with
  | nil =>
      obtain ⟨-, -, rfl⟩ := course.of_concat
      obtain rfl := Option.some.inj (starts.opens.symm.trans present)
      refine ⟨.refl _, .refl _, ?_, ?_⟩
      · rw [Run.opening_removed, UInt64.toNat_zero, Nat.zero_add]
      · rintro x (⟨there, gone⟩ | ⟨there, gone⟩) <;> exact absurd there gone
  | append_singleton rest last ih =>
      rw [← List.cons_append, ← List.append_assoc] at course
      obtain ⟨before, made, rfl⟩ := course.of_concat
      have member : e ∈ past ++ e :: rest := List.mem_append_right _ (List.mem_cons_self ..)
      obtain ⟨earlier, there, own⟩ := course_of_starts before member starts
      have thinned := ih before (fun e' member => left e' (List.mem_append_left _ member)) there
      obtain ⟨later, there', onward⟩ := course_of_run (.single made) there
      obtain rfl : later = run := Option.some.inj (there'.symm.trans present)
      have alone := left last (List.mem_append_right _ (List.mem_singleton_self _))
      rcases Dispatcher.directory_of_step made there present alone with
        ⟨same, counted⟩ | ⟨counted, x, done, leaves⟩
      · rw [same]
        refine ⟨thinned.users, thinned.chats, by rw [counted]; exact thinned.size, ?_⟩
        exact fun y left => Run.done_of_course onward (thinned.done y left)
      · -- The counter has gone up, so it has not come round to zero.
        obtain ⟨-, -, grows⟩ := Run.counters_of_course onward (Run.staffed_of_course own)
          (Run.balanced_of_course own starts.countable)
        refine thinned.departure leaves ?_ done fun y => Run.done_of_course onward
        rw [counted, UInt64.le_iff_toNat_le] at grows
        rw [counted]
        have bound := earlier.removed.toNat_lt
        simp only [UInt64.toNat_add, UInt64.toNat_one] at grows ⊢
        omega

end Courses

/-! ## Going on -/

namespace Dispatcher

section Moves

variable {d : Dispatcher} {r k : Nat} {run : Run} {x : Recipient}

private theorem step_of_asking (now : Moment) (present : d.runs[r]? = some run)
    (asking : run.removals[k]? = some ⟨x, .asking⟩) (answer : Answer Reach) :
    ∃ d' effects, d.step now (.removed r k answer) = some (d', effects) := by
  have answered (given : Answer Bool) :
      ∃ d' effects, d.stepRun now r (.removal k (.answered given)) = some (d', effects) := by
    cases given with
    | broke =>
        have leaving := Run.Leaving.crash asking
        exact ⟨_, _, stepRun_of_step present leaving.stepRemoval⟩
    | gave left =>
        have leaving := Run.Leaving.answer left asking
        exact ⟨_, _, stepRun_of_step present leaving.stepRemoval⟩
  cases answer with
  | broke => simpa [step, stepRemoved, present, asking] using answered .broke
  | gave reach =>
      cases reach with
      | unavailable => simpa [step, stepRemoved, present, asking] using answered (.gave false)
      | performed =>
          obtain ⟨d', effects, made⟩ :=
            answered (d.removalAnswer ⟨x, .asking⟩ (.gave .performed))
          cases listing : Run.Removal.listing ⟨x, .asking⟩ with
          | user | chat =>
              simp only [removalAnswer, listing] at made
              refine ⟨{ d' with directory := d.removalDirectory ⟨x, .asking⟩ (.gave .performed) },
                effects, ?_⟩
              simp only [step, stepRemoved, present, asking, Option.bind_eq_bind, Option.bind_some,
                listing, made, removalDirectory]

/-- As long as not all removals of a run have ended, one of them can go on, whatever the directory
answers it, and the run has less left to do then. -/
private theorem step_of_going (now : Moment) (answers : Nat → Answer Reach)
    (present : d.runs[r]? = some run)
    (going : run.removals.all Run.Removal.hasEnded = false) :
    ∃ move d' effects run', d.step now move = some (d', effects) ∧
      (∃ k, move = .run r (.removal k .begin) ∨ move = .removed r k (answers k)) ∧
      d'.runs[r]? = some run' ∧ run'.effort < run.effort := by
  have less {k : Nat} {move : Move} {m : Run.RemovalMove} {d' : Dispatcher}
      {effects : List Run.Effect} (made : d.step now move = some (d', effects))
      (own : d.runMove? r move = some (.removal k m)) :
      ∃ run', d'.runs[r]? = some run' ∧ run'.effort < run.effort := by
    have moves := moves_of_step made present
    rw [own] at moves
    cases moves with
    | @move _ after _ moved there =>
        refine ⟨after, there, ?_⟩
        cases Run.way_of_step moved with
        | removal leaving => exact leaving.effort_lt
        | leg leg => cases leg
  obtain ⟨k, x, asking | ⟨queued, free⟩⟩ := Run.removal_of_going going
  · obtain ⟨d', effects, made⟩ := step_of_asking now present asking (answers k)
    have own : d.runMove? r (.removed r k (answers k)) =
        some (.removal k (.answered (d.removalAnswer ⟨x, .asking⟩ (answers k)))) := by
      simp [runMove?, present, asking]
    obtain ⟨run', there, less⟩ := less made own
    exact ⟨_, d', effects, run', made, ⟨k, .inr rfl⟩, there, less⟩
  · have begins : run.step now (.removal k .begin) = some (_, _) :=
      (Run.Leaving.begin queued free).stepRemoval
    obtain ⟨d', effects, made⟩ := step_of_inner present begins rfl
    obtain ⟨run', there, less⟩ := less made (if_pos rfl)
    exact ⟨_, d', effects, run', made, ⟨k, .inl rfl⟩, there, less⟩

end Moves

end Dispatcher

/-- Whatever the directory answers, the removals of a run can all end, each by itself. -/
theorem ends_of_removals (now : Moment) (answers : Nat → Answer Reach) {d : Dispatcher} {r : Nat}
    {run : Run} (present : d.runs[r]? = some run) :
    ∃ more d' run', Course Dispatcher.step d more d' ∧ d'.runs[r]? = some run' ∧
      run'.removals.all Run.Removal.hasEnded = true ∧
      ∀ e ∈ more, e.moment = now ∧
        ∃ k, e.move = .run r (.removal k .begin) ∨ e.move = .removed r k (answers k) := by
  induction left : run.effort using Nat.strongRecOn generalizing d run with
  | ind n ih =>
      cases ended : run.removals.all Run.Removal.hasEnded with
      | true => exact ⟨[], d, run, .start, present, ended, by simp⟩
      | false =>
          obtain ⟨move, d₁, effects, run₁, made, kind, there, less⟩ :=
            Dispatcher.step_of_going now answers present ended
          obtain ⟨more, d', run', course, last, ended, kinds⟩ := ih _ (left ▸ less) there rfl
          refine ⟨_, d', run', (Course.single made).append course, last, ended, ?_⟩
          rintro e (_ | ⟨_, member⟩)
          · exact ⟨rfl, kind⟩
          · exact kinds e member

end Broadcast
