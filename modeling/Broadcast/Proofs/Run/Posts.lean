import Broadcast.Proofs.Run.Ledger
import Broadcast.Proofs.Run.Report

/-!
# What a run posts

A run edits its notice to show how far it has come, and posts its report at last. Whatever it shows
it has reached, and once its report is drawn up it shows nothing else.
-/

namespace Broadcast

/-- What an operator gets to see. -/
inductive Post
  | reply (text : String)
  | edit (notice : Handle) (text : String)
deriving DecidableEq, Repr

/-- What an effect posts. -/
def Run.Effect.post? : Run.Effect → Option Post
  | .ask (.reply text) => some (.reply text)
  | .ask (.edit notice text) => some (.edit notice text)
  | _ => none

/-- What an event posts. -/
def Event.posts {σ μ : Type} (e : Event σ μ) : List Post :=
  e.effects.filterMap Run.Effect.post?

/-- What some events post, in order. -/
def posts {σ μ : Type} (events : List (Event σ μ)) : List Post :=
  events.flatMap Event.posts

@[simp] theorem posts_nil {σ μ : Type} : posts ([] : List (Event σ μ)) = [] := rfl

@[simp] theorem posts_cons {σ μ : Type} (e : Event σ μ) (events : List (Event σ μ)) :
    posts (e :: events) = e.posts ++ posts events :=
  List.flatMap_cons

@[simp] theorem posts_append {σ μ : Type} (left right : List (Event σ μ)) :
    posts (left ++ right) = posts left ++ posts right :=
  List.flatMap_append

/-- The counters of one run at a moment and at a later one. -/
structure Progress.Le (p q : Progress) : Prop where
  /-- The jobs stay the same. -/
  total : p.total = q.total
  /-- No delivery is taken back. -/
  success : p.success ≤ q.success
  /-- No failure is taken back. -/
  failed : p.failed ≤ q.failed
  /-- No removal is taken back. -/
  removed : p.removed ≤ q.removed

theorem Progress.Le.trans {p q s : Progress} (early : p.Le q) (late : q.Le s) : p.Le s where
  total := early.total.trans late.total
  success := UInt64.le_trans early.success late.success
  failed := UInt64.le_trans early.failed late.failed
  removed := UInt64.le_trans early.removed late.removed

theorem Progress.Le.refl (p : Progress) : p.Le p :=
  ⟨rfl, UInt64.le_refl _, UInt64.le_refl _, UInt64.le_refl _⟩

namespace Run

/-- The outside breaks down over what the run itself posts. -/
def Move.breaks : Move → Bool
  | .announced .broke | .edited .broke | .replied .broke => true
  | _ => false

/-- The report is not taken in place of the notice. -/
def Move.refuses : Move → Bool
  | .edited (.gave false) => true
  | _ => false

/-- The edits of the notice of a run that show some counters. -/
def progressPosts (r : Run) (shown : List Progress) : List Post :=
  shown.filterMap fun p => r.notice.map fun notice =>
    .edit notice (Notice.underWay r.plan.announcement p)

/-- The end of what a run posts: the report in place of the notice, and on its own if there is no
notice or it was refused there. -/
def closing (notice : Option Handle) (refused : Bool) (report : Report) : List Post :=
  match notice with
  | some notice =>
    .edit notice (Notice.complete report) ::
      if refused then [.reply (Notice.complete report)] else []
  | none => [.reply (Notice.complete report)]

/-! ## One move -/

section Moves

variable {now : Moment} {r r' : Run} {move : Move} {effects : List Effect}

/-- What a move of a run has to do with what it posts. -/
inductive Posting (now : Moment) (r : Run) (move : Move) (r' : Run) (effects : List Effect) : Prop
  /-- Nothing is posted. -/
  | quiet :
      effects.filterMap Effect.post? = [] → r'.notice = r.notice → move.refuses = false →
      (∀ answer, move ≠ .announced answer) →
      (r'.stage = .announcing ↔ r.stage = .announcing) →
      (∀ report, r'.stage = .editing report → r.stage = .editing report) →
      Posting now r move r' effects
  /-- The announcement is answered. -/
  | answer {answer : Answer (Option Handle)} :
      move = .announced answer → r.stage = .announcing → r'.stage ≠ .announcing →
      (∀ notice, answer = .gave notice → r'.notice = notice) →
      effects.filterMap Effect.post? = [] → Posting now r move r' effects
  /-- The counters are shown. -/
  | progress {every : Duration} {notice : Handle} {next later : Moment} {last : Progress} :
      move = .display .tick → r.plan.progressEvery = some every → r.notice = some notice →
      r.display = .watching next last →
      r' = { r with display := .editing later r.tally.progress } →
      effects.filterMap Effect.post? =
        [.edit notice (Notice.underWay r.plan.announcement r.tally.progress)] →
      Posting now r move r' effects
  /-- The report is drawn up. -/
  | report {report : Report} :
      Reports ⟨now, r, move, r', effects⟩ report → Posting now r move r' effects
  /-- The report is posted again. -/
  | resend {report : Report} :
      move = .edited (.gave false) → r.stage = .editing report → r'.notice = r.notice →
      r'.stage = .replying report →
      effects.filterMap Effect.post? = [.reply (Notice.complete report)] →
      Posting now r move r' effects

private theorem Turn.posts {i : Nat} {move : WorkerMove} (turn : Turn now r i move r' effects) :
    effects.filterMap Effect.post? = [] ∧ r'.notice = r.notice := by
  cases turn <;> exact ⟨rfl, rfl⟩

theorem posts_of_announced (r : Run) (answer : Answer (Option Handle)) :
    (r.announced answer).2.filterMap Effect.post? = [] := by
  rw [List.filterMap_eq_nil_iff]
  intro effect brought
  rcases plain_of_announced brought with ⟨metric, rfl⟩ | ⟨part, rfl⟩ <;> rfl

private theorem Leg.posting (leg : Leg now r move r' effects) (staffed : r.Staffed) :
    Posting now r move r' effects := by
  have made := leg.step
  cases leg with
  | lost announcing => exact .answer rfl announcing (by simp [breakDown]) (by simp) rfl
  | overrun announcing =>
      exact .answer rfl announcing (by simp [breakDown]) (fun _ same => by cases same; rfl)
        (posts_of_announced r _)
  | crew announcing =>
      exact .answer rfl announcing (by simp) (fun _ same => by cases same; rfl)
        (posts_of_announced r _)
  | join delivering =>
      have closing := stage_joined now r
      have none := report_of_joined now r
      refine .quiet rfl ?_ rfl (by simp) ?_ fun report editing => ?_
      · unfold joined
        dsimp only
        split <;> rfl
      · simp only [delivering, reduceCtorEq, iff_false]
        intro announcing
        simp [announcing, Stage.isClosing] at closing
      · simp [editing, Stage.report?] at none
  | report stopping ended notice =>
      exact .report ((reports_of_step made staffed rfl).resolve_left
        (by simp [stopping, Stage.report?]))
  | send stopping ended none =>
      exact .report ((reports_of_step made staffed rfl).resolve_left
        (by simp [stopping, Stage.report?]))
  | resend editing => exact .resend rfl editing rfl rfl rfl
  | drain stage | timeOut stage | editLost stage | edited stage | replyLost stage
  | replied stage =>
      refine .quiet rfl rfl rfl (by simp) ?_ ?_
      · simp [stage, stop, breakDown]
      · simp [stop, breakDown]
  | cancel => exact .quiet rfl rfl rfl (by simp) Iff.rfl fun _ => id

/-- Every move of a run has to do with its posts in one of the ways of `Posting`. -/
theorem posting_of_step (made : r.step now move = some (r', effects)) (staffed : r.Staffed) :
    Posting now r move r' effects := by
  cases way_of_step made with
  | worker turn =>
      have stage := turn.keeps.2.2.1
      exact .quiet turn.posts.1 turn.posts.2 rfl (by simp) (by rw [stage]) fun _ => stage ▸ id
  | removal leaving =>
      cases leaving <;> exact .quiet rfl rfl rfl (by simp) Iff.rfl fun _ => id
  | display showing =>
      cases showing with
      | edit every notice watching =>
          exact .progress rfl every notice watching rfl rfl
      | begin | pass | crash | answer | halt =>
          exact .quiet rfl rfl rfl (by simp) Iff.rfl fun _ => id
  | leg leg => exact leg.posting staffed

theorem unbroken_of_step (made : r.step now move = some (r', effects))
    (fits : r.plan.removalPermits ≤ Plan.maxRemovalPermits) (calm : move.breaks = false)
    (whole : r.stage ≠ .broken) : r'.stage ≠ .broken := by
  cases way_of_step made with
  | worker turn =>
      rw [turn.keeps.2.2.1]
      exact whole
  | removal leaving => cases leaving <;> exact whole
  | display showing => cases showing <;> exact whole
  | leg leg =>
      cases leg with
      | lost | editLost | replyLost => cases calm
      | overrun _ tooMany => exact absurd fits (Nat.not_le.mpr tooMany)
      | join => exact unbroken_joined now r
      | crew | drain | timeOut | report | send | edited | resend | replied => simp [stop]
      | cancel => exact whole

end Moves

/-! ## A whole run -/

/-- The announcement of a run is still to be answered, or it was answered, once, with the notice
that the run has since. -/
inductive Announced (events : List (Event Run Move)) (r : Run) : Prop
  | waits :
      r.stage = .announcing → r.notice = none →
      (∀ e ∈ events, ∀ answer, e.move ≠ .announced answer) → Announced events r
  | told :
      r.stage ≠ .announcing → (∃ e ∈ events, e.move = .announced (.gave r.notice)) →
      (∀ e ∈ events, ∀ answer, e.move = .announced answer → answer = .gave r.notice) →
      Announced events r

/-- Some events of a run show its counters and post nothing else. -/
structure Shows (events : List (Event Run Move)) (r : Run) (shown : List Progress) : Prop where
  /-- The counters are shown in the notice. -/
  posted : posts events = r.progressPosts shown
  /-- There is a notice then, and progress is to be shown. -/
  wanted : shown ≠ [] → r.notice.isSome = true ∧ r.plan.progressEvery.isSome = true
  /-- The run had come as far as it shows. -/
  reached : ∀ p ∈ shown, ∃ e ∈ events, e.before.tally.progress = p
  /-- No counter that is shown is lower than before. -/
  rising : shown.Pairwise Progress.Le
  /-- No job is counted twice. -/
  processed : ∀ p ∈ shown, p.processed ≤ p.total.toNat
  /-- No counter that is shown is higher than it is now. -/
  current : ∀ p ∈ shown, p.Le r.tally.progress

section Courses

variable {events : List (Event Run Move)} {plan : Plan} {began : Moment} {cancelled : Bool}
  {r r' : Run} {report : Report}

/-- A run breaks down only over its announcement or its report. -/
theorem unbroken_of_course (course : Course step r events r')
    (fits : r.plan.removalPermits ≤ Plan.maxRemovalPermits)
    (calm : ∀ e ∈ events, e.move.breaks = false) (whole : r.stage ≠ .broken) :
    r'.stage ≠ .broken := by
  induction course with
  | start => exact whole
  | next past made ih =>
      refine unbroken_of_step made (by rwa [(plan_of_course past).1]) ?_ ?_
      · exact calm _ (List.mem_append_right _ (List.mem_singleton_self _))
      · exact ih fun e member => calm e (List.mem_append_left _ member)

theorem le_of_course (course : Course step r events r') (staffed : r.Staffed)
    (balanced : r.Balanced) : r.tally.progress.Le r'.tally.progress := by
  obtain ⟨success, failed, removed⟩ := counters_of_course course staffed balanced
  exact ⟨(plan_of_course course).2.2.symm, success, failed, removed⟩

private theorem Announced.keep (announced : Announced events r) {e : Event Run Move}
    (other : ∀ answer, e.move ≠ .announced answer)
    (stage : r'.stage = .announcing ↔ r.stage = .announcing) (notice : r'.notice = r.notice) :
    Announced (events ++ [e]) r' := by
  cases announced with
  | waits announcing none silent =>
      refine .waits (stage.mpr announcing) (notice.trans none) ?_
      simpa [or_imp, forall_and] using ⟨silent, other⟩
  | told going answered once =>
      obtain ⟨x, member, answer⟩ := answered
      refine .told (fun announcing => going (stage.mp announcing))
        ⟨x, List.mem_append_left _ member, by rw [answer, notice]⟩ ?_
      simpa [or_imp, forall_and, notice, other] using once

private theorem Announced.next (announced : Announced events r) {now : Moment} {move : Move}
    {effects : List Effect} (made : r.step now move = some (r', effects)) (staffed : r.Staffed)
    (calm : move.breaks = false) : Announced (events ++ [⟨now, r, move, r', effects⟩]) r' := by
  cases posting_of_step made staffed with
  | quiet _ notice _ other stage => exact announced.keep other stage notice
  | progress move _ _ _ after =>
      exact announced.keep (by simp [move]) (by simp [after]) (by simp [after])
  | report reports =>
      have stopping : r.stage = .stopping := reports.stopping
      have concludes : move = .concluded := reports.concluded
      have after : r' = { r with stage := _ } := reports.after
      refine announced.keep (by simp [concludes]) ?_ (by rw [after])
      cases notice : r.notice <;> simp [after, stopping, notice]
  | resend move editing notice replying =>
      exact announced.keep (by simp [move]) (by simp [editing, replying]) notice
  | @answer answer move announcing going told =>
      cases announced with
      | told going => exact absurd announcing going
      | waits _ _ silent =>
          cases answer with
          | broke =>
              rw [move] at calm
              cases calm
          | gave notice =>
              have same := told notice rfl
              refine .told going ⟨_, List.mem_append_right _ (List.mem_singleton_self _),
                by rw [same]; exact move⟩ ?_
              intro e member answer answered
              rcases List.mem_append.mp member with there | here
              · exact absurd answered (silent e there answer)
              · obtain rfl := List.mem_singleton.mp here
                rw [same]
                exact Move.announced.inj (answered.symm.trans move)

theorem announced_of_course (course : Course step (opening plan began cancelled) events r)
    (calm : ∀ e ∈ events, e.move.breaks = false) : Announced events r := by
  induction course with
  | start => exact .waits rfl rfl (by simp)
  | next past made ih =>
      exact (ih fun e member => calm e (List.mem_append_left _ member)).next made
        (staffed_of_course past)
        (calm _ (List.mem_append_right _ (List.mem_singleton_self _)))

private theorem notice_of_step {now : Moment} {move : Move} {effects : List Effect}
    (made : r.step now move = some (r', effects)) (staffed : r.Staffed)
    (going : r.stage ≠ .announcing) : r'.notice = r.notice ∧ r'.stage ≠ .announcing := by
  cases posting_of_step made staffed with
  | quiet _ notice _ _ stage => exact ⟨notice, fun announcing => going (stage.mp announcing)⟩
  | answer _ announcing => exact absurd announcing going
  | progress _ _ _ _ after => exact ⟨by rw [after], by rw [after]; exact going⟩
  | report reports =>
      have after : r' = { r with stage := _ } := reports.after
      refine ⟨by rw [after], ?_⟩
      cases notice : r.notice <;> simp [after, notice]
  | resend _ _ notice replying => exact ⟨notice, by simp [replying]⟩

/-- A run that is announced keeps its notice. -/
theorem notice_of_course (course : Course step r events r') (staffed : r.Staffed)
    (going : r.stage ≠ .announcing) : r'.notice = r.notice := by
  have all : r'.Staffed ∧ r'.notice = r.notice ∧ r'.stage ≠ .announcing := by
    induction course with
    | start => exact ⟨staffed, rfl, going⟩
    | next _ made ih =>
        obtain ⟨staffed, same, going⟩ := ih
        obtain ⟨notice, going⟩ := notice_of_step made staffed going
        exact ⟨staffed_of_step made staffed, notice.trans same, going⟩
  exact all.2.1

private theorem Shows.later {shown : List Progress} {more : List (Event Run Move)}
    (shows : Shows events r shown) (course : Course step r more r') (staffed : r.Staffed)
    (balanced : r.Balanced) (keeps : r.notice.isSome = true → r'.notice = r.notice) :
    Shows events r' shown := by
  have plan := (plan_of_course course).1
  have notice (some : shown ≠ []) : r'.notice = r.notice := keeps (shows.wanted some).1
  refine ⟨?_, ?_, shows.reached, shows.rising, shows.processed, fun p member => ?_⟩
  · rw [shows.posted, progressPosts, progressPosts, plan]
    cases shown with
    | nil => rw [List.filterMap_nil, List.filterMap_nil]
    | cons p shown => rw [notice (List.cons_ne_nil p shown)]
  · intro some
    rw [notice some, plan]
    exact shows.wanted some
  · exact (shows.current p member).trans (le_of_course course staffed balanced)

private theorem Shows.silent {shown : List Progress} (shows : Shows events r shown)
    {e : Event Run Move} (silent : e.posts = []) : Shows (events ++ [e]) r shown where
  posted := by simp [shows.posted, silent]
  wanted := shows.wanted
  reached p member := by
    obtain ⟨x, there, same⟩ := shows.reached p member
    exact ⟨x, List.mem_append_left _ there, same⟩
  rising := shows.rising
  processed := shows.processed
  current := shows.current

private theorem Shows.show {shown : List Progress} (shows : Shows events r shown)
    {e : Event Run Move} {notice : Handle} (before : e.before = r)
    (sent : r.notice = some notice) (wanted : r.plan.progressEvery.isSome = true)
    (balanced : r.Balanced)
    (posts : e.posts = [.edit notice (Notice.underWay r.plan.announcement r.tally.progress)]) :
    Shows (events ++ [e]) r (shown ++ [r.tally.progress]) where
  posted := by simp [shows.posted, posts, progressPosts, sent]
  wanted _ := ⟨by rw [sent]; rfl, wanted⟩
  reached p member := by
    rcases List.mem_append.mp member with old | new
    · obtain ⟨x, there, same⟩ := shows.reached p old
      exact ⟨x, List.mem_append_left _ there, same⟩
    · exact ⟨e, by simp, by rw [before, List.mem_singleton.mp new]⟩
  rising := List.pairwise_append.mpr ⟨shows.rising, List.pairwise_singleton _ _,
    fun p member q last => List.mem_singleton.mp last ▸ shows.current p member⟩
  processed p member := by
    rcases List.mem_append.mp member with old | new
    · exact shows.processed p old
    · rw [List.mem_singleton.mp new]
      exact balanced.le_total
  current p member := by
    rcases List.mem_append.mp member with old | new
    · exact shows.current p old
    · rw [List.mem_singleton.mp new]
      exact .refl _

/-- With one more event a run shows its counters as they are, or it shows nothing, as long as its
report is not drawn up. -/
private theorem Shows.next {shown : List Progress} (shows : Shows events r shown)
    (announced : Announced events r) {now : Moment} {move : Move} {effects : List Effect}
    (made : r.step now move = some (r', effects)) (staffed : r.Staffed) (balanced : r.Balanced)
    (before : r.stage.report? = none) (unreported : r'.stage.report? = none) :
    ∃ shown', Shows (events ++ [⟨now, r, move, r', effects⟩]) r' shown' := by
  have later {events : List (Event Run Move)} {shown : List Progress}
      (shows : Shows events r shown) (keeps : r.notice.isSome = true → r'.notice = r.notice) :
      Shows events r' shown := shows.later (.single made) staffed balanced keeps
  cases posting_of_step made staffed with
  | quiet silent notice => exact ⟨shown, later (shows.silent silent) fun _ => notice⟩
  | answer _ announcing _ _ silent =>
      refine ⟨shown, later (shows.silent silent) fun some => ?_⟩
      cases announced with
      | waits _ none => simp [none] at some
      | told going => exact absurd announcing going
  | progress _ every sent _ after posts =>
      refine ⟨_, later (shows.show rfl sent (by rw [every]; rfl) balanced posts) fun _ => ?_⟩
      rw [after]
  | report reports =>
      have after : r' = { r with stage := _ } := reports.after
      rw [after] at unreported
      cases notice : r.notice <;> simp [notice, Stage.report?] at unreported
  | resend _ editing =>
      rw [editing] at before
      cases before

/-- As long as a run has not drawn up its report, it shows its counters and posts nothing else. -/
theorem shows_of_course (course : Course step (opening plan began cancelled) events r)
    (countable : plan.targets.length < 2 ^ 64)
    (fits : plan.removalPermits ≤ Plan.maxRemovalPermits)
    (calm : ∀ e ∈ events, e.move.breaks = false) (unreported : r.stage.report? = none) :
    ∃ shown, Shows events r shown := by
  induction course with
  | start => exact ⟨[], rfl, by simp, by simp, .nil, by simp, by simp⟩
  | @next events now s t move effects past made ih =>
      have calmBefore : ∀ e ∈ events, e.move.breaks = false :=
        fun e member => calm e (List.mem_append_left _ member)
      have whole : t.stage ≠ .broken := unbroken_of_course (past.next made) fits calm (by simp)
      have before : s.stage.report? = none := by
        by_contra some
        obtain ⟨report, reported⟩ := Option.ne_none_iff_exists'.mp some
        have stays := (report_of_course (.single made) reported).resolve_right whole
        cases unreported.symm.trans stays
      obtain ⟨shown, shows⟩ := ih calmBefore before
      exact shows.next (announced_of_course past calmBefore) made (staffed_of_course past)
        (balanced_of_course past countable) before unreported

/-- Whether a run was told during some events that its report was not taken in place of its
notice. -/
def refused (events : List (Event Run Move)) : Bool :=
  events.any (·.move.refuses)

/-- What a run that has its report has posted since. -/
private structure Closes (first : Run) (report : Report) (events : List (Event Run Move))
    (r : Run) : Prop where
  /-- The report is what it was. -/
  reported : r.stage.report? = some report
  /-- The report is posted again if it was refused. -/
  posted : posts events = if refused events then [.reply (Notice.complete report)] else []
  /-- Only an edit is refused. -/
  asked : refused events = true → first.stage = .editing report
  /-- An edit is answered once. -/
  awaited : r.stage = .editing report → first.stage = .editing report ∧ refused events = false

private theorem Closes.next {first : Run} (closes : Closes first report events r) {now : Moment}
    {move : Move} {effects : List Effect} (made : r.step now move = some (r', effects))
    (staffed : r.Staffed) (watched : r.Watched) (whole : r'.stage ≠ .broken) :
    Closes first report (events ++ [⟨now, r, move, r', effects⟩]) r' := by
  have reported := closes.reported
  have stays : r'.stage.report? = some report :=
    (report_of_course (.single made) reported).resolve_right whole
  cases posting_of_step made staffed with
  | quiet silent _ accepted _ _ editing =>
      have same : refused (events ++ [⟨now, r, move, r', effects⟩]) = refused events := by
        simp [refused, accepted]
      refine ⟨stays, ?_, by rw [same]; exact closes.asked, ?_⟩
      · rw [posts_append, same, closes.posted, posts_cons, posts_nil, Event.posts, silent]
        simp
      · rw [same]
        exact fun asks => closes.awaited (editing report asks)
  | answer _ announcing => simp [announcing, Stage.report?] at reported
  | progress _ _ _ watching =>
      have ended := watched.reporting (by rw [reported]; rfl)
      simp [watching, Display.hasEnded] at ended
  | report reports =>
      have stopping : r.stage = .stopping := reports.stopping
      simp [stopping, Stage.report?] at reported
  | resend answered editing _ replying posts =>
      rw [editing] at reported
      cases reported
      obtain ⟨asks, none⟩ := closes.awaited editing
      have told : refused (events ++ [⟨now, r, move, r', effects⟩]) = true := by
        simp [refused, answered, Move.refuses]
      refine ⟨stays, ?_, fun _ => asks, fun asks => ?_⟩
      · rw [posts_append, closes.posted, none, told, posts_cons, posts_nil, Event.posts, posts]
        rfl
      · cases replying.symm.trans asks

private theorem closes_of_course (course : Course step r events r') (staffed : r.Staffed)
    (watched : r.Watched) (fits : r.plan.removalPermits ≤ Plan.maxRemovalPermits)
    (calm : ∀ e ∈ events, e.move.breaks = false) (reported : r.stage.report? = some report) :
    Closes r report events r' := by
  have began : r.stage ≠ .broken := fun broken => by simp [broken, Stage.report?] at reported
  have all : (r'.Staffed ∧ r'.Watched) ∧ Closes r report events r' := by
    induction course with
    | start => exact ⟨⟨staffed, watched⟩, reported, rfl, by simp [refused], by simp [refused]⟩
    | next past made ih =>
        obtain ⟨⟨staffed, watched⟩, closes⟩ :=
          ih fun e member => calm e (List.mem_append_left _ member)
        exact ⟨⟨staffed_of_step made staffed, watched_of_step made watched⟩,
          closes.next made staffed watched (unbroken_of_course (past.next made) fits calm began)⟩
  exact all.2

/-- A run posts its report at last: in place of its notice, and on its own if there is no notice or
it was refused there. -/
theorem posts_of_reports {past rest : List (Event Run Move)} {e : Event Run Move}
    (course : Course step (opening plan began cancelled) (past ++ e :: rest) r)
    (reports : Reports e report) (fits : plan.removalPermits ≤ Plan.maxRemovalPermits)
    (calm : ∀ x ∈ past ++ e :: rest, x.move.breaks = false) :
    posts (e :: rest) = closing r.notice (refused rest) report ∧
      r.stage.report? = some report := by
  obtain ⟨early, made, late⟩ := course.around
  have staffed := staffed_of_step made (staffed_of_course early)
  have watched := watched_of_step made (watched_of_course early)
  have after := reports.after
  have reported : e.after.stage.report? = some report := by
    rw [after]
    cases e.before.notice <;> rfl
  have plan := (plan_of_course (early.next made)).1
  have closes := closes_of_course late staffed watched (by rw [plan]; exact fits)
    (fun x member => calm x (by simp [member])) reported
  have notice : r.notice = e.before.notice := by
    rw [notice_of_course late staffed, after]
    intro announcing
    simp [announcing, Stage.report?] at reported
  refine ⟨?_, closes.reported⟩
  rw [posts_cons, closes.posted, Event.posts, reports.asked, notice]
  cases sent : e.before.notice with
  | some notice => rfl
  | none =>
      -- Without a notice there is no edit that could be refused.
      have accepted : refused rest = false := by
        by_contra some
        have asks := closes.asked (by simpa using some)
        simp [after, sent] at asks
      rw [accepted]
      rfl

/-- What a run posts: first it shows its counters, and from its report on only the report. -/
theorem posts_of_course (course : Course step (opening plan began cancelled) events r)
    (countable : plan.targets.length < 2 ^ 64)
    (fits : plan.removalPermits ≤ Plan.maxRemovalPermits)
    (calm : ∀ e ∈ events, e.move.breaks = false) :
    ∃ shown early late, events = early ++ late ∧ Shows early r shown ∧
      (late = [] ∧ r.stage.report? = none ∧ posts events = r.progressPosts shown ∨
        ∃ e rest report, late = e :: rest ∧ Reports e report ∧ r.stage.report? = some report ∧
          posts events = r.progressPosts shown ++ closing r.notice (refused rest) report) := by
  cases reported : r.stage.report? with
  | none =>
      obtain ⟨shown, shows⟩ := shows_of_course course countable fits calm reported
      exact ⟨shown, events, [], by simp, shows, .inl ⟨rfl, rfl, shows.posted⟩⟩
  | some report =>
      obtain ⟨past, e, rest, rfl, reports⟩ := reports_of_course course reported
      obtain ⟨early, made, late⟩ := course.around
      have stopping := reports.stopping
      obtain ⟨shown, shows⟩ := shows_of_course early countable fits
        (fun x member => calm x (List.mem_append_left _ member)) (by rw [stopping]; rfl)
      have staffed := staffed_of_course early
      have later := shows.later ((Course.single made).append late) staffed
        (balanced_of_course early countable)
        fun _ => notice_of_course ((Course.single made).append late) staffed (by simp [stopping])
      refine ⟨shown, past, e :: rest, rfl, later, .inr ⟨e, rest, report, rfl, reports, rfl, ?_⟩⟩
      rw [posts_append, later.posted, (posts_of_reports course reports fits calm).1]

private theorem delivering_of_attempts {now : Moment} {move : Move} {effects : List Effect}
    (made : r.step now move = some (r', effects)) (staffed : r.Staffed)
    (tried : effects.filterMap Effect.attempt? ≠ []) : r.stage = .delivering := by
  cases change_of_step made with
  | turn turn => exact turn.delivering staffed
  | crew => exact absurd (quiet_crew r _) tried
  | join => exact absurd rfl tried
  | aside _ _ _ quiet => exact absurd quiet tried

/-- Deliveries begin only when the announcement has been answered. -/
theorem announced_of_attempts {past rest : List (Event Run Move)} {e : Event Run Move}
    (course : Course step (opening plan began cancelled) (past ++ e :: rest) r)
    (calm : ∀ x ∈ past ++ e :: rest, x.move.breaks = false) (tried : e.attempts ≠ []) :
    ∃ x ∈ past, x.move = .announced (.gave r.notice) := by
  obtain ⟨early, made, late⟩ := course.around
  have staffed := staffed_of_course early
  have delivering := delivering_of_attempts made staffed tried
  cases announced_of_course early fun x member => calm x (List.mem_append_left _ member) with
  | waits announcing => cases announcing.symm.trans delivering
  | told going answered =>
      obtain ⟨x, member, answer⟩ := answered
      have notice : r.notice = e.before.notice :=
        notice_of_course ((Course.single made).append late) staffed going
      exact ⟨x, member, by rw [answer, notice]⟩

end Courses

end Run

end Broadcast
