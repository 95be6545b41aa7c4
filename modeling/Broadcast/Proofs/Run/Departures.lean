import Broadcast.Proofs.Run.Aftermath
import Broadcast.Proofs.Run.Dismissals

/-!
# Recipients that have left

A recipient leaves the directory with the answer to a removal, and the run counts it then. If the
removals have ended by the time the run stops waiting for them, its report counts them all.
-/

namespace Broadcast.Run

section Courses

variable {events : List (Event Run Move)} {plan : Plan} {began : Moment} {cancelled : Bool}
  {r : Run} {x : Recipient}

/-! ## Those who left -/

theorem removed_of_step {now : Moment} {r' : Run} {move : Move} {effects : List Effect}
    (made : r.step now move = some (r', effects)) :
    r'.removed = if move.departs then r.removed + 1 else r.removed := by
  cases parting_of_step made with
  | still _ stays _ same | dismiss _ stays _ same => rw [same, stays]; rfl
  | leave leaving =>
      cases leaving with
      | begin | crash => rfl
      | answer left => cases left <;> rfl

private theorem done_of_step {now : Moment} {r' : Run} {move : Move} {effects : List Effect}
    (made : r.step now move = some (r', effects)) (done : ⟨x, .done⟩ ∈ r.removals) :
    ⟨x, .done⟩ ∈ r'.removals := by
  have stays {k : Nat} {y : Recipient} {old : RemovalStage} (stage : RemovalStage)
      (present : r.removals[k]? = some ⟨y, old⟩) (goesOn : old ≠ .done) :
      ⟨x, .done⟩ ∈ (r.setRemoval k stage).removals := by
    obtain ⟨j, there⟩ := List.mem_iff_getElem?.mp done
    have other : k ≠ j := by
      rintro rfl
      cases there.symm.trans present
      exact goesOn rfl
    rw [setRemoval_removals stage present]
    exact List.mem_iff_getElem?.mpr ⟨j, by rw [List.getElem?_set_ne other, there]⟩
  cases parting_of_step made with
  | still _ _ same => rwa [same]
  | dismiss _ _ more =>
      rw [more]
      exact List.mem_append_left _ done
  | leave leaving =>
      cases leaving with
      | begin queued => exact stays _ queued (by simp)
      | crash asking | answer _ asking => exact stays _ asking (by simp)

theorem done_of_course {r' : Run} (course : Course step r events r')
    (done : ⟨x, .done⟩ ∈ r.removals) : ⟨x, .done⟩ ∈ r'.removals := by
  induction course with
  | start => exact done
  | next _ made ih => exact done_of_step made ih

theorem done_of_departs {now : Moment} {r' : Run} {k : Nat} {left : Bool} {effects : List Effect}
    (made : r.step now (.removal k (.answered (.gave left))) = some (r', effects)) :
    ∃ x, r.removals[k]? = some ⟨x, .asking⟩ ∧ ⟨x, .done⟩ ∈ r'.removals := by
  cases way_of_step made with
  | leg leg => cases leg
  | removal leaving =>
      cases leaving with
      | @answer x _ asking =>
          refine ⟨x, asking, List.mem_iff_getElem?.mpr ⟨k, ?_⟩⟩
          have inside := (List.getElem?_eq_some_iff.mp asking).1
          change (r.setRemoval k .done).removals[k]? = _
          rw [setRemoval_removals .done asking, List.getElem?_set_self inside]

/-- The counter of a run tells how many left the directory. -/
theorem removed_of_course (course : Course step (opening plan began cancelled) events r)
    (countable : plan.targets.length < 2 ^ 64) :
    r.removed.toNat = events.countP (·.move.departs) := by
  induction course with
  | start => rfl
  | @next events now s t move effects past made ih =>
      have grows := (counters_of_step made (staffed_of_course past)
        (balanced_of_course past countable)).2.2
      have bound := s.removed.toNat_lt
      rw [removed_of_step made, UInt64.le_iff_toNat_le] at grows
      rw [removed_of_step made, List.countP_append, List.countP_singleton, ← ih]
      cases departs : move.departs with
      | false => simp
      | true =>
          simp only [departs, if_true, UInt64.toNat_add, UInt64.toNat_one] at grows ⊢
          omega

end Courses

/-! ## Going on -/

/-- As long as not all removals have ended, one of them can go on: the directory answers it, or
there is a permit for it. -/
theorem removal_of_going {r : Run} (going : r.removals.all Removal.hasEnded = false) :
    ∃ (k : Nat) (x : Recipient), r.removals[k]? = some ⟨x, .asking⟩ ∨
      r.removals[k]? = some ⟨x, .queued⟩ ∧ r.asking < r.plan.removalPermits := by
  by_cases asks : ∃ removal ∈ r.removals, removal.stage = .asking
  · obtain ⟨⟨x, stage⟩, member, rfl⟩ := asks
    obtain ⟨k, there⟩ := List.mem_iff_getElem?.mp member
    exact ⟨k, x, .inl there⟩
  · have free : r.asking = 0 := by
      rw [asking, List.countP_eq_zero]
      intro removal member same
      exact asks ⟨removal, member, by simpa using same⟩
    obtain ⟨⟨x, stage⟩, member, goesOn⟩ := List.all_eq_false.mp going
    obtain ⟨k, there⟩ := List.mem_iff_getElem?.mp member
    cases stage with
    | queued =>
        refine ⟨k, x, .inr ⟨there, ?_⟩⟩
        rw [free, Plan.removalPermits]
        omega
    | asking => exact absurd ⟨_, member, rfl⟩ asks
    | done | broken => exact absurd rfl goesOn

/-! ## What the report says -/

/-- A run that has waited for its removals reports all that left the directory. -/
structure Drained (r : Run) : Prop where
  /-- The removals have ended. -/
  ended : r.stage = .stopping ∨ r.stage.report?.isSome = true →
    r.removals.all Removal.hasEnded = true
  /-- The report says what the counter says. -/
  report : ∀ report, r.stage.report? = some report → report.removed = r.removed

section Moves

variable {now : Moment} {r r' : Run} {move : Move} {effects : List Effect}

private theorem drained_of_early (early : r.stage ≠ .stopping) (none : r.stage.report? = none) :
    r.Drained where
  ended := by
    rintro (same | some)
    · exact absurd same early
    · simp [none] at some
  report := by simp [none]

private theorem Drained.congr (drained : r.Drained) (stage : r'.stage = r.stage)
    (removals : r'.removals = r.removals) (removed : r'.removed = r.removed) : r'.Drained := by
  constructor
  · rw [stage, removals]
    exact drained.ended
  · rw [stage, removed]
    exact drained.report

private theorem Drained.goOn {stage : Stage} {stopSent : Bool}
    (ended : r.removals.all Removal.hasEnded = true)
    (report : ∀ report, stage.report? = some report → report.removed = r.removed) :
    Drained { r with stage, stopSent } :=
  ⟨fun _ => ended, report⟩

private theorem Leaving.drained {k : Nat} {m : RemovalMove} (leaving : Leaving r k m r' effects)
    (drained : r.Drained) : r'.Drained := by
  have early {removal : Removal} (present : r.removals[k]? = some removal)
      (going : removal.hasEnded = false) (stage : r'.stage = r.stage) : r'.Drained := by
    have goesOn : r.removals.all Removal.hasEnded ≠ true := by
      intro ended
      have := List.all_eq_true.mp ended removal (List.mem_of_getElem? present)
      simp [going] at this
    apply drained_of_early
    · rw [stage]
      exact fun stopping => goesOn (drained.ended (.inl stopping))
    · rw [stage, ← Option.not_isSome_iff_eq_none]
      exact fun reports => goesOn (drained.ended (.inr reports))
  cases leaving with
  | begin queued => exact early queued rfl rfl
  | crash asking | answer _ asking => exact early asking rfl rfl

/-- A run comes to its report only when its removals have ended, or when it does not wait for them
any longer. -/
private theorem Leg.drained (leg : Leg now r move r' effects) (drained : r.Drained)
    (waited : move = .timedOut → r.removals.all Removal.hasEnded = true) : r'.Drained := by
  cases leg with
  | lost | overrun | crew | editLost | replyLost => exact drained_of_early (by simp [breakDown]) rfl
  | join =>
      unfold joined
      dsimp only
      split
      next none => exact .goOn (by simp [none]) (by simp [Stage.report?])
      next => exact drained_of_early (by simp) rfl
  | drain _ ended => exact .goOn ended (by simp [Stage.report?])
  | timeOut => exact .goOn (waited rfl) (by simp [Stage.report?])
  | report stopping | send stopping =>
      refine .goOn (drained.ended (.inl stopping)) fun _ made => ?_
      cases made
      rfl
  | edited editing | resend editing =>
      exact .goOn (drained.ended (.inr (by rw [editing]; rfl)))
        fun _ made => drained.report _ (by rw [editing]; exact made)
  | replied replying =>
      exact .goOn (drained.ended (.inr (by rw [replying]; rfl)))
        fun _ made => drained.report _ (by rw [replying]; exact made)
  | cancel => exact drained.congr rfl rfl rfl

private theorem drained_of_step (made : r.step now move = some (r', effects)) (staffed : r.Staffed)
    (drained : r.Drained) (waited : move = .timedOut → r.removals.all Removal.hasEnded = true) :
    r'.Drained := by
  cases way_of_step made with
  | worker turn =>
      have delivering := turn.keeps.2.2.1.trans (turn.delivering staffed)
      exact drained_of_early (by simp [delivering]) (by rw [delivering]; rfl)
  | removal leaving => exact leaving.drained drained
  | display showing => cases showing <;> exact drained.congr rfl rfl rfl
  | leg leg => exact leg.drained drained waited

end Moves

/-- A report counts all who left the directory, if the removals ended before the run stopped
waiting for them. -/
theorem drained_of_course {plan : Plan} {began : Moment} {cancelled : Bool}
    {events : List (Event Run Move)} {r : Run}
    (course : Course step (opening plan began cancelled) events r)
    (waited : ∀ e ∈ events, e.move = .timedOut → e.before.removals.all Removal.hasEnded = true) :
    r.Drained := by
  induction course with
  | start => exact drained_of_early (by simp) rfl
  | next past made ih =>
      refine drained_of_step made (staffed_of_course past) (ih fun e member => ?_) ?_
      · exact waited e (List.mem_append_left _ member)
      · exact waited _ (List.mem_append_right _ (List.mem_singleton_self _))

/-! ## How long a run waits -/

section Deadline

variable {r r' : Run} {deadline : Moment}

private theorem draining_of_step {now : Moment} {move : Move} {effects : List Effect}
    (made : r.step now move = some (r', effects)) (draining : r'.stage = .draining deadline) :
    r.stage = .draining deadline ∨
      move = .joined ∧ deadline = r.plan.clocks.after now r.plan.drainTimeout := by
  cases way_of_step made with
  | worker turn => exact .inl (turn.keeps.2.2.1 ▸ draining)
  | removal leaving =>
      left
      cases leaving with
      | begin | crash => exact draining
      | answer left => cases left <;> exact draining
  | display showing => exact .inl (by cases showing <;> exact draining)
  | leg leg =>
      cases leg with
      | join =>
          unfold joined at draining
          dsimp only at draining
          split at draining
          next none => cases draining
          next =>
            cases draining
            exact .inr ⟨rfl, rfl⟩
      | cancel => exact .inl draining
      | lost | overrun | crew | drain | timeOut | report | send | editLost | edited | resend
      | replyLost | replied => cases draining

/-- A run that waits for its removals has done so since its crew ended, and does until its drain
timeout has passed. -/
theorem joined_of_draining {events : List (Event Run Move)} (course : Course step r events r')
    (fresh : r.stage ≠ .draining deadline) (draining : r'.stage = .draining deadline) :
    ∃ e ∈ events, e.move = .joined ∧
      deadline = r.plan.clocks.after e.moment r.plan.drainTimeout := by
  induction course with
  | start => exact absurd draining fresh
  | @next events now s t move effects past made ih =>
      rcases draining_of_step made draining with same | ⟨rfl, rfl⟩
      · obtain ⟨e, member, joined⟩ := ih same
        exact ⟨e, List.mem_append_left _ member, joined⟩
      · refine ⟨_, List.mem_append_right _ (List.mem_singleton_self _), rfl, ?_⟩
        rw [(plan_of_course past).1]

/-- A run gives up waiting for its removals no earlier than its drain timeout after the end of its
crew. -/
theorem deadline_of_timedOut {events past rest : List (Event Run Move)} {e : Event Run Move}
    (course : Course step r events r') (fresh : ∀ deadline, r.stage ≠ .draining deadline)
    (split : events = past ++ e :: rest) (timedOut : e.move = .timedOut) :
    ∃ j ∈ past, j.move = .joined ∧
      r.plan.clocks.after j.moment r.plan.drainTimeout ≤ e.moment := by
  subst split
  obtain ⟨before, made, -⟩ := course.around
  obtain ⟨now, s, move, t, effects⟩ := e
  dsimp only at timedOut before made ⊢
  subst timedOut
  cases way_of_step made with
  | leg leg =>
      cases leg with
      | timeOut draining late =>
          obtain ⟨j, member, joined, rfl⟩ := joined_of_draining before (fresh _) draining
          exact ⟨j, member, joined, late⟩

end Deadline

/-! ## How removals end -/

section Ends

variable {events : List (Event Run Move)} {r r' : Run}

theorem ended_of_step {now : Moment} {move : Move} {effects : List Effect}
    (made : r.step now move = some (r', effects)) {removal : Removal}
    (member : removal ∈ r'.removals) (ended : removal.hasEnded = true) :
    removal ∈ r.removals ∨ ∃ k answer, move = .removal k (.answered answer) ∧
      r.removals[k]? = some ⟨removal.recipient, .asking⟩ ∧
      (removal.stage = .broken → answer = .broke) := by
  have others {k : Nat} {y : Recipient} {old new : RemovalStage}
      (present : r.removals[k]? = some ⟨y, old⟩)
      (here : removal ∈ (r.setRemoval k new).removals) :
      removal ∈ r.removals ∨ removal = ⟨y, new⟩ := by
    rw [setRemoval_removals new present] at here
    exact List.mem_or_eq_of_mem_set here
  cases parting_of_step made with
  | still _ _ same => exact .inl (same ▸ member)
  | dismiss _ _ more =>
      rw [more] at member
      refine .inl ((List.mem_append.mp member).resolve_right fun new => ?_)
      rw [List.mem_singleton.mp new] at ended
      cases ended
  | @leave k _ _ _ leaving =>
      cases leaving with
      | begin queued =>
          refine .inl ((others queued member).resolve_right ?_)
          rintro rfl
          cases ended
      | crash asking =>
          rcases others asking member with before | rfl
          · exact .inl before
          · exact .inr ⟨k, .broke, rfl, asking, fun _ => rfl⟩
      | answer left asking =>
          rcases others asking member with before | rfl
          · exact .inl before
          · exact .inr ⟨k, .gave left, rfl, asking, fun broken => by cases broken⟩

private theorem removals_of_announcing {plan : Plan} {began : Moment} {cancelled : Bool}
    (course : Course step (opening plan began cancelled) events r)
    (announcing : r.stage = .announcing) : r.removals = [] := by
  induction course with
  | start => rfl
  | @next events now s t _ _ past made ih =>
      cases change_of_step made with
      | turn turn =>
          have delivering := turn.keeps.2.2.1.trans (turn.delivering (staffed_of_course past))
          cases delivering.symm.trans announcing
      | crew => cases announcing
      | join =>
          have closing := stage_joined now s
          rw [announcing] at closing
          cases closing
      | aside aside =>
          rcases aside.stage with same | ⟨-, broken⟩ | ⟨-, closing | broken⟩
          · rw [← List.length_eq_zero_iff, aside.removals, ih (same.symm.trans announcing)]
            rfl
          · cases broken.symm.trans announcing
          · rw [announcing] at closing
            cases closing
          · cases broken.symm.trans announcing

private theorem removals_of_step {now : Moment} {move : Move} {effects : List Effect}
    (made : r.step now move = some (r', effects)) (crew : r.workers.all Worker.hasEnded = true)
    (ended : r.removals.all Removal.hasEnded = true) : r'.removals = r.removals := by
  have settled {k : Nat} {removal : Removal} (present : r.removals[k]? = some removal) :
      removal.hasEnded = true :=
    List.all_eq_true.mp ended removal (List.mem_of_getElem? present)
  cases way_of_step made with
  | worker turn => exact absurd crew turn.going
  | removal leaving =>
      cases leaving with
      | begin queued => cases settled queued
      | crash asking | answer _ asking => cases settled asking
  | display showing => cases showing <;> rfl
  | leg leg =>
      cases leg with
      | join => exact (joined_removals now r).1
      | lost | overrun | crew | drain | timeOut | report | send | editLost | edited | resend
      | replyLost | replied | cancel => rfl

/-- Once a run is over and all its removals have ended, they stay as they are. -/
theorem removals_of_over (course : Course step r events r') (staffed : r.Staffed)
    (isOver : r.stage.isOver = true) (ended : r.removals.all Removal.hasEnded = true) :
    r'.removals = r.removals := by
  have all : r'.Staffed ∧ r'.removals = r.removals := by
    induction course with
    | start => exact ⟨staffed, rfl⟩
    | next past made ih =>
        obtain ⟨staffed, same⟩ := ih
        have crew := staffed.over (by rw [over_of_course past isOver, isOver])
        exact ⟨staffed_of_step made staffed,
          (removals_of_step made crew (by rw [same, ended])).trans same⟩
  exact all.2

/-- The removals of a run that is over have ended, if they had whenever it stopped waiting for
them. -/
theorem ended_of_over {plan : Plan} {began : Moment} {cancelled : Bool}
    (course : Course step (opening plan began cancelled) events r)
    (waited : ∀ e ∈ events, e.move = .timedOut → e.before.removals.all Removal.hasEnded = true)
    (isOver : r.stage.isOver = true) : r.removals.all Removal.hasEnded = true := by
  induction course with
  | start => cases isOver
  | @next events now s t move effects past made ih =>
      have waited' : ∀ e ∈ events, e.move = .timedOut →
          e.before.removals.all Removal.hasEnded = true :=
        fun e member => waited e (List.mem_append_left _ member)
      have staffed := staffed_of_course past
      have drained := drained_of_course past waited'
      have stays (same : t.stage = s.stage) : t.removals.all Removal.hasEnded = true := by
        have before : s.stage.isOver = true := same ▸ isOver
        have ended := ih waited' before
        rw [removals_of_step made (staffed.over before) ended, ended]
      cases way_of_step made with
      | worker turn => exact stays turn.keeps.2.2.1
      | removal leaving => cases leaving <;> exact stays rfl
      | display showing => cases showing <;> exact stays rfl
      | leg leg =>
          cases leg with
          | lost announcing | overrun announcing =>
              have none := removals_of_announcing past announcing
              simp [breakDown, shown, none]
          | editLost stage | edited stage | replyLost stage | replied stage =>
              exact drained.ended (.inr (by rw [stage]; rfl))
          | join => cases isOver.symm.trans (over_of_joined now s)
          | crew | drain | timeOut | report | send | resend => cases isOver
          | cancel => exact stays rfl

end Ends

end Broadcast.Run
