import Broadcast.Proofs.Run.Posts
import Broadcast.Proofs.Text.Notice

/-!
# Edits of a notice

A run asks for one edit of its notice at a time, and each text that it asks for is another one: its
counters only rise and are asked for only if they are not those that were asked for last, and its
report is asked for once. So whichever edits are made, an edit changes what the notice shows.
-/

namespace Broadcast

/-- The text of an edit. -/
def Post.edited? : Post → Option String
  | edit _ text => some text
  | reply _ => none

/-- The texts that an event asks a notice to show. -/
def Event.edits {σ μ : Type} (e : Event σ μ) : List String :=
  e.posts.filterMap Post.edited?

/-- The texts that some events ask a notice to show, in order. -/
def edits {σ μ : Type} (events : List (Event σ μ)) : List String :=
  events.flatMap Event.edits

theorem edits_concat {σ μ : Type} (events : List (Event σ μ)) (e : Event σ μ) :
    edits (events ++ [e]) = edits events ++ e.edits := by
  rw [edits, List.flatMap_append, List.flatMap_singleton, ← edits]

/-- What a notice shows, and what it is being asked to show instead. -/
structure Screen where
  /-- The text that is shown. -/
  text : Option String
  /-- The text of an edit that has not been answered. -/
  asked : Option String

namespace Run

/-- What an edit of the notice is answered. -/
def Move.editAnswer? : Move → Option (Answer Bool)
  | display (.answered answer) | edited answer => some answer
  | _ => none

/-- The announcement is sent, and there is a notice of it. -/
def Move.sends : Move → Bool
  | announced (.gave (some _)) => true
  | _ => false

end Run

open Run

/-- The notice after one more event: it shows the announcement once that is sent, and what it is
asked to show once that is accepted. -/
def Screen.next (s : Screen) (e : Event Run Move) : Screen :=
  match e.move.editAnswer? with
  | some (.gave true) => ⟨s.asked, none⟩
  | some _ => ⟨s.text, none⟩
  | none =>
    ⟨if e.move.sends then some e.before.plan.announcement else s.text, e.edits.head?.or s.asked⟩

/-- The notice of a run after some events. -/
def screen (events : List (Event Run Move)) : Screen :=
  events.foldl Screen.next ⟨none, none⟩

theorem screen_concat (events : List (Event Run Move)) (e : Event Run Move) :
    screen (events ++ [e]) = (screen events).next e := by
  rw [screen, List.foldl_append, List.foldl_cons, List.foldl_nil, ← screen]

theorem Screen.next_of_unanswered {s : Screen} {e : Event Run Move}
    (unanswered : e.move.editAnswer? = none) :
    s.next e = ⟨if e.move.sends then some e.before.plan.announcement else s.text,
      e.edits.head?.or s.asked⟩ := by
  rw [Screen.next, unanswered]

theorem Screen.next_of_answered {s : Screen} {e : Event Run Move} {answer : Answer Bool}
    (answered : e.move.editAnswer? = some answer) :
    s.next e = ⟨s.asked, none⟩ ∨ s.next e = ⟨s.text, none⟩ := by
  rcases answer with (_ | _) | _ <;> simp [Screen.next, answered]

theorem Progress.Le.antisymm {p q : Progress} (le : p.Le q) (ge : q.Le p) : p = q := by
  cases p
  cases q
  congr 1
  · exact le.total
  · exact UInt64.le_antisymm le.success ge.success
  · exact UInt64.le_antisymm le.failed ge.failed
  · exact UInt64.le_antisymm le.removed ge.removed

namespace Run

/-- The counters that the task that shows progress has asked for last. -/
def Display.last? : Display → Option Progress
  | watching _ last | editing _ last => some last
  | absent | fresh | ended => none

/-- The report of the run has been drawn up, or never will be. -/
def Stage.isPast : Stage → Bool
  | editing _ | replying _ | finished _ | broken => true
  | announcing | delivering | draining _ | stopping => false

/-- The text of an edit that the display waits for. -/
def Display.asks? (announcement : String) : Display → Option String
  | editing _ last => some (Notice.underWay announcement last)
  | absent | fresh | watching _ _ | ended => none

/-- The text of an edit that the run itself waits for. -/
def Stage.asks? : Stage → Option String
  | editing report => some (Notice.complete report)
  | announcing | delivering | draining _ | stopping | replying _ | finished _ | broken => none

/-- The text of an edit that a run waits for. -/
def asks? (r : Run) : Option String :=
  (r.display.asks? r.plan.announcement).or r.stage.asks?

/-! ## One move -/

section Moves

variable {now : Moment} {r r' : Run} {move : Move} {effects : List Effect}

/-- What was asked for stays in the past when a run goes on. -/
structure Still (r r' : Run) : Prop where
  /-- The announcement stays the same. -/
  plan : r'.plan = r.plan
  /-- A display that has not begun had not begun before. -/
  early : r'.stage = .announcing ∨ r'.display = .fresh →
    r.stage = .announcing ∨ r.display = .fresh
  /-- What was asked for last is so still, unless the display has just begun. -/
  last : ∀ last, r'.display.last? = some last →
    r.display.last? = some last ∨ r.display = .fresh ∧ last = .zero
  /-- A report is drawn up once. -/
  past : r.stage.isPast = true → r'.stage.isPast = true

/-- What a move of a run, and what it posts, have to do with the edits of the notice. -/
inductive Editing (r : Run) (move : Move) (r' : Run) (posts : List Post) : Prop
  /-- Nothing. -/
  | none :
      posts.filterMap Post.edited? = [] → Still r r' → move.editAnswer? = .none →
      move.sends = false → r'.asks? = r.asks? →
      (r'.notice.isSome = true → r.notice.isSome = true) → Editing r move r' posts
  /-- There is a notice from now on. -/
  | sent :
      posts.filterMap Post.edited? = [] → Still r r' → move.editAnswer? = .none →
      move.sends = true → r.asks? = .none → r'.asks? = .none → Editing r move r' posts
  /-- An edit is answered. -/
  | answered {answer : Answer Bool} :
      posts.filterMap Post.edited? = [] → Still r r' → move.editAnswer? = some answer →
      r.asks?.isSome = true → r'.asks? = .none → r'.notice = r.notice → Editing r move r' posts
  /-- The counters are asked for, if they are not those that were asked for last. -/
  | progress {notice : Handle} {next later : Moment} {last : Progress} :
      move = .display .tick → r.notice = some notice → r.display = .watching next last →
      r.tally.progress ≠ last → r.asks? = .none →
      r' = { r with display := .editing later r.tally.progress } →
      posts = [.edit notice (Notice.underWay r.plan.announcement r.tally.progress)] →
      Editing r move r' posts
  /-- The report is asked for. -/
  | report {notice : Handle} {report : Report} :
      move = .concluded → r.notice = some notice → r.stage = .stopping →
      r.display.hasEnded = true → r.asks? = .none → r' = { r with stage := .editing report } →
      posts = [.edit notice (Notice.complete report)] → Editing r move r' posts

theorem Display.asks?_of_ended {display : Display} (ended : display.hasEnded = true)
    (announcement : String) : display.asks? announcement = none := by
  cases display with
  | absent | ended => rfl
  | fresh | watching | editing => cases ended

private theorem Watched.unasked (watched : r.Watched) (going : r.display.hasEnded = false) :
    r.stage.asks? = none := by
  cases stage : r.stage with
  | editing report =>
      have ended := watched.reporting (by rw [stage]; rfl)
      cases going.symm.trans ended
  | announcing | delivering | draining | stopping | replying | finished | broken => rfl

private theorem Showing.editing {move : DisplayMove} (showing : Showing now r move r' effects)
    (watched : r.Watched) :
    Editing r (.display move) r'
      (Event.posts (⟨now, r, .display move, r', effects⟩ : Event Run Move)) := by
  have still (display : Display) (begun : display ≠ .fresh) (last : ∀ last,
      display.last? = some last → r.display.last? = some last ∨ r.display = .fresh ∧ last = .zero) :
      Still r { r with display } :=
    ⟨rfl, fun early => early.imp id fun fresh => absurd fresh begun, last, id⟩
  cases showing with
  | begin plan sent fresh =>
      refine .none rfl (still _ (by split <;> simp) fun last shows => .inr ⟨fresh, ?_⟩) rfl rfl
        ?_ id
      · cases told : r.stopSent <;> simp [told, Display.last?] at shows
        exact shows.symm
      · cases told : r.stopSent <;> simp [asks?, fresh, Display.asks?]
  | pass plan sent watching due same =>
      refine .none rfl (still _ (by simp) fun last shows => .inl ?_) rfl rfl ?_ id
      · rw [watching]
        exact shows
      · simp [asks?, watching, Display.asks?]
  | edit plan sent watching due changed =>
      have unasked := watched.unasked (by rw [watching]; rfl)
      exact .progress rfl sent watching changed
        (by simp [asks?, watching, unasked, Display.asks?]) rfl rfl
  | crash plan sent editing =>
      have unasked := watched.unasked (by rw [editing]; rfl)
      exact .answered rfl (still _ (by simp) fun last shows => by cases shows) rfl
        (by simp [asks?, editing, Display.asks?]) (by simp [asks?, unasked, Display.asks?]) rfl
  | answer made plan sent editing =>
      have unasked := watched.unasked (by rw [editing]; rfl)
      refine .answered rfl (still _ (by simp) fun last shows => .inl ?_) rfl
        (by simp [asks?, editing, Display.asks?]) (by simp [asks?, unasked, Display.asks?]) rfl
      rw [editing]
      exact shows
  | halt plan sent watching told =>
      refine .none rfl (still _ (by simp) fun last shows => by cases shows) rfl rfl ?_ id
      simp [asks?, watching, Display.asks?]

private theorem Still.of_stage (plan : r'.plan = r.plan) (display : r'.display = r.display)
    (begun : r'.stage ≠ .announcing) (past : r.stage.isPast = true → r'.stage.isPast = true) :
    Still r r' where
  plan := plan
  early early := .inr (display ▸ early.resolve_left begun)
  last _ shows := .inl (display ▸ shows)
  past := past

private theorem editing_of_announced {notice : Option Handle} (watched : r.Watched)
    (announcing : r.stage = .announcing) (plan : r'.plan = r.plan)
    (display : r'.display = (r.shown notice).display) (sent : r'.notice = notice)
    (unasked : r'.stage.asks? = none) :
    Editing r (.announced (.gave notice)) r' (Event.posts (⟨now, r, .announced (.gave notice), r',
      (r.announced (.gave notice)).2⟩ : Event Run Move)) := by
  have nothing : r'.display.last? = none ∧ r'.display.asks? r'.plan.announcement = none := by
    rw [display]
    unfold Run.shown
    dsimp only
    split <;> exact ⟨rfl, rfl⟩
  have before : r.asks? = none := by
    simp [asks?, watched.unstarted announcing, announcing, Display.asks?, Stage.asks?]
  have after : r'.asks? = none := by simp [asks?, unasked, nothing.2]
  have still : Still r r' := by
    refine ⟨plan, fun _ => .inl announcing, fun last shows => ?_,
      by simp [announcing, Stage.isPast]⟩
    cases nothing.1.symm.trans shows
  have plain : (Event.posts (⟨now, r, .announced (.gave notice), r',
      (r.announced (.gave notice)).2⟩ : Event Run Move)).filterMap Post.edited? = [] := by
    rw [Event.posts, posts_of_announced, List.filterMap_nil]
  cases notice with
  | none => exact .none plain still rfl rfl (after.trans before.symm) (by simp [sent])
  | some notice => exact .sent plain still rfl rfl before after

private theorem Leg.editing (leg : Leg now r move r' effects) (watched : r.Watched) :
    Editing r move r' (Event.posts (⟨now, r, move, r', effects⟩ : Event Run Move)) := by
  have ended {report : Report} (reported : r.stage.report? = some report) :
      r.display.asks? r.plan.announcement = none :=
    Display.asks?_of_ended (watched.reporting (by rw [reported]; rfl)) _
  cases leg with
  | lost announcing =>
      exact .none rfl (.of_stage rfl rfl (by simp [breakDown]) fun _ => rfl) rfl rfl
        (by simp [asks?, breakDown, announcing, Stage.asks?]) id
  | overrun announcing | crew announcing =>
      exact editing_of_announced watched announcing rfl rfl rfl rfl
  | join delivering _ =>
      unfold joined
      dsimp only
      split <;>
        exact .none rfl (.of_stage rfl rfl (by simp [stop]) (by simp [delivering, Stage.isPast]))
          rfl rfl (by simp [asks?, stop, delivering, Stage.asks?]) id
  | drain draining | timeOut draining =>
      exact .none rfl (.of_stage rfl rfl (by simp [stop]) (by simp [draining, Stage.isPast]))
        rfl rfl (by simp [asks?, stop, draining, Stage.asks?]) id
  | report stopping closed notice =>
      exact .report rfl notice stopping closed
        (by simp [asks?, stopping, Stage.asks?, Display.asks?_of_ended closed]) rfl rfl
  | send stopping =>
      exact .none rfl (.of_stage rfl rfl (by simp) fun _ => rfl) rfl rfl
        (by simp [asks?, stopping, Stage.asks?]) id
  | editLost editing | edited editing | resend editing =>
      have ended := ended (by rw [editing]; rfl)
      exact .answered rfl (.of_stage rfl rfl (by simp [breakDown]) fun _ => rfl) rfl
        (by simp [asks?, editing, Stage.asks?])
        (by simp [asks?, ended, breakDown, Stage.asks?]) rfl
  | replyLost replying | replied replying =>
      exact .none rfl (.of_stage rfl rfl (by simp [breakDown]) fun _ => rfl) rfl rfl
        (by simp [asks?, replying, breakDown, Stage.asks?]) id
  | cancel => exact .none rfl ⟨rfl, id, fun _ => .inl, id⟩ rfl rfl rfl id

/-- Every move of a run has to do with the edits of its notice in one of the ways of `Editing`. -/
theorem editing_of_step (made : r.step now move = some (r', effects)) (watched : r.Watched) :
    Editing r move r' (Event.posts (⟨now, r, move, r', effects⟩ : Event Run Move)) := by
  cases way_of_step made with
  | worker turn => cases turn <;> exact .none rfl ⟨rfl, id, fun _ => .inl, id⟩ rfl rfl rfl id
  | removal leaving =>
      cases leaving <;> exact .none rfl ⟨rfl, id, fun _ => .inl, id⟩ rfl rfl rfl id
  | display showing => exact showing.editing watched
  | leg leg => exact leg.editing watched

end Moves

/-! ## A whole run -/

/-- What a run has asked its notice to show. -/
structure Tried (events : List (Event Run Move)) (r : Run) : Prop where
  /-- Nothing is asked for before the display begins. -/
  early : r.stage = .announcing ∨ r.display = .fresh → edits events = []
  /-- The display has asked for nothing yet, or for counters that have only risen since. -/
  last : ∀ last, r.display.last? = some last →
    last = .zero ∧ edits events = [] ∨ last.Le r.tally.progress
  /-- The counters that were asked for have not fallen until they were asked for last, and the
  report is asked for once. -/
  asked : ∀ text ∈ edits events,
    (∃ p, text = Notice.underWay r.plan.announcement p ∧
      ∀ last, r.display.last? = some last → p.Le last) ∨
    (∃ report, text = Notice.complete report) ∧ r.stage.isPast = true
  /-- No text is asked for that the notice has ever been asked to show. -/
  distinct : (r.plan.announcement :: edits events).Nodup

/-- What the notice of a run shows and waits for, after some texts were asked for. -/
structure Screened (s : Screen) (texts : List String) (r : Run) : Prop where
  /-- There is a text in each notice. -/
  text : r.notice.isSome = true → s.text.isSome = true
  /-- The run waits for the edit that the notice waits for. -/
  asked : s.asked = r.asks?
  /-- That was asked for. -/
  pending : ∀ text, s.asked = some text → text ∈ texts
  /-- What is shown was asked for, or is the announcement. -/
  shown : ∀ text, s.text = some text → text ∈ r.plan.announcement :: texts
  /-- The notice shows another text than the one that it waits for. -/
  differs : ∀ text, s.asked = some text → ∃ shown, s.text = some shown ∧ shown ≠ text

section Courses

variable {events : List (Event Run Move)} {plan : Plan} {began : Moment} {cancelled : Bool}
  {r r' : Run} {now : Moment} {move : Move} {effects : List Effect}

private theorem Tried.keep (tried : Tried events r) {e : Event Run Move}
    (silent : e.posts.filterMap Post.edited? = []) (still : Still r r')
    (counters : r.tally.progress.Le r'.tally.progress) : Tried (events ++ [e]) r' := by
  have same : edits (events ++ [e]) = edits events := by
    rw [edits_concat, Event.edits, silent, List.append_nil]
  constructor
  · rw [same]
    exact fun early => tried.early (still.early early)
  · rw [same]
    intro last shows
    rcases still.last last shows with before | ⟨fresh, zero⟩
    · exact (tried.last last before).imp_right fun le => le.trans counters
    · exact .inl ⟨zero, tried.early (.inr fresh)⟩
  · rw [same, still.plan]
    intro text member
    rcases tried.asked text member with ⟨p, shows, risen⟩ | ⟨reports, past⟩
    · refine .inl ⟨p, shows, fun last shows => ?_⟩
      rcases still.last last shows with before | ⟨fresh, -⟩
      · exact risen last before
      · rw [tried.early (.inr fresh)] at member
        cases member
    · exact .inr ⟨reports, still.past past⟩
  · rw [same, still.plan]
    exact tried.distinct

private theorem Tried.distinct_concat (tried : Tried events r) {text : String}
    (other : text ≠ r.plan.announcement) (fresh : text ∉ edits events) :
    (r.plan.announcement :: (edits events ++ [text])).Nodup := by
  rw [← List.cons_append, List.nodup_append]
  refine ⟨tried.distinct, List.nodup_singleton text, fun shown member asked here => ?_⟩
  rw [List.mem_singleton.mp here]
  rintro rfl
  exact (List.mem_cons.mp member).elim other fresh

private theorem Tried.progress (tried : Tried events r) {e : Event Run Move}
    {next later : Moment} {last : Progress} (begun : r.stage ≠ .announcing)
    (watching : r.display = .watching next last) (changed : r.tally.progress ≠ last)
    (asked : e.edits = [Notice.underWay r.plan.announcement r.tally.progress]) :
    Tried (events ++ [e]) { r with display := .editing later r.tally.progress } := by
  have there : r.display.last? = some last := by rw [watching]; rfl
  -- Whatever was asked for has risen to what was asked for last, and that to what is asked for now.
  have risen {p : Progress} (member : Notice.underWay r.plan.announcement p ∈ edits events)
      (le : p.Le last) : p.Le r.tally.progress ∧ p ≠ r.tally.progress := by
    have late : last.Le r.tally.progress :=
      (tried.last last there).resolve_left fun none => by simp [none.2] at member
    exact ⟨le.trans late, fun same => changed ((same ▸ le).antisymm late)⟩
  constructor
  · rintro (announcing | fresh)
    · exact absurd announcing begun
    · cases fresh
  · rintro _ ⟨⟩
    exact .inr (.refl _)
  · rw [edits_concat, asked]
    intro text member
    rcases List.mem_append.mp member with old | new
    · refine (tried.asked text old).imp_left ?_
      rintro ⟨p, rfl, le⟩
      refine ⟨p, rfl, ?_⟩
      rintro _ ⟨⟩
      exact (risen old (le last there)).1
    · refine .inl ⟨_, List.mem_singleton.mp new, ?_⟩
      rintro _ ⟨⟩
      exact .refl _
  · rw [edits_concat, asked]
    refine tried.distinct_concat (Notice.underWay_ne _ _) fun old => ?_
    rcases tried.asked _ old with ⟨p, same, le⟩ | ⟨⟨report, same⟩, -⟩
    · obtain rfl := Notice.underWay_injective _ same
      exact (risen old (le last there)).2 rfl
    · exact (Notice.complete_ne _ _ _ _ report).2 _ same.symm

private theorem Tried.report (tried : Tried events r) {e : Event Run Move} {report : Report}
    (unreported : r.stage.isPast = false) (ended : r.display.hasEnded = true)
    (asked : e.edits = [Notice.complete report]) :
    Tried (events ++ [e]) { r with stage := .editing report } := by
  have nothing : r.display.last? = none ∧ r.display ≠ .fresh := by
    cases display : r.display with
    | absent | ended => exact ⟨rfl, Display.noConfusion⟩
    | fresh | watching | editing => simp [display, Display.hasEnded] at ended
  constructor
  · rintro (announcing | fresh)
    · cases announcing
    · exact absurd fresh nothing.2
  · intro last shows
    cases nothing.1.symm.trans shows
  · rw [edits_concat, asked]
    intro text member
    rcases List.mem_append.mp member with old | new
    · rcases tried.asked text old with ⟨p, same, -⟩ | ⟨reports, -⟩
      · exact .inl ⟨p, same, fun last shows => by cases nothing.1.symm.trans shows⟩
      · exact .inr ⟨reports, rfl⟩
    · exact .inr ⟨⟨report, List.mem_singleton.mp new⟩, rfl⟩
  · rw [edits_concat, asked]
    refine tried.distinct_concat (Notice.complete_ne _ _ _ _ report).1 fun old => ?_
    rcases tried.asked _ old with ⟨p, same, -⟩ | ⟨-, past⟩
    · exact (Notice.complete_ne _ _ _ _ report).2 p same
    · cases unreported.symm.trans past

private theorem Tried.next (tried : Tried events r) (made : r.step now move = some (r', effects))
    (staffed : r.Staffed) (balanced : r.Balanced) (watched : r.Watched) :
    Tried (events ++ [⟨now, r, move, r', effects⟩]) r' := by
  cases editing_of_step made watched with
  | none silent still | sent silent still | answered silent still =>
      exact tried.keep silent still (le_of_course (.single made) staffed balanced)
  | progress _ _ watching changed _ after posts =>
      obtain rfl := after
      refine tried.progress (fun announcing => ?_) watching changed
        (congrArg (List.filterMap Post.edited?) posts)
      cases watching.symm.trans (watched.unstarted announcing)
  | report _ _ stopping ended _ after posts =>
      obtain rfl := after
      exact tried.report (by rw [stopping]; rfl) ended
        (congrArg (List.filterMap Post.edited?) posts)

/-- Whatever a run asks its notice to show is something new. -/
theorem tried_of_course (course : Course step (opening plan began cancelled) events r)
    (countable : plan.targets.length < 2 ^ 64) : Tried events r := by
  induction course with
  | start => exact ⟨fun _ => rfl, by rintro _ ⟨⟩, by simp [edits], List.nodup_singleton _⟩
  | next past made ih =>
      exact ih.next made (staffed_of_course past) (balanced_of_course past countable)
        (watched_of_course past)

private theorem Screened.ask {s : Screen} {texts : List String} {text : String}
    (screened : Screened s texts r) (sent : r.notice.isSome = true) (plan : r'.plan = r.plan)
    (waits : r'.asks? = some text) (fresh : text ∉ r.plan.announcement :: texts) :
    Screened ⟨s.text, some text⟩ (texts ++ [text]) r' := by
  have there := screened.text sent
  constructor
  · exact fun _ => there
  · exact waits.symm
  · rintro _ ⟨⟩
    simp
  · intro old shows
    rw [plan]
    exact List.mem_append_left [text] (screened.shown old shows)
  · rintro _ ⟨⟩
    obtain ⟨shown, shows⟩ := Option.isSome_iff_exists.mp there
    exact ⟨shown, shows, fun same => fresh (same ▸ screened.shown shown shows)⟩

private theorem Screened.settle {s : Screen} {texts : List String} {text : Option String}
    (screened : Screened s texts r) (plan : r'.plan = r.plan) (notice : r'.notice = r.notice)
    (waited : r.asks?.isSome = true) (after : r'.asks? = none)
    (told : text = s.asked ∨ text = s.text) : Screened ⟨text, none⟩ texts r' := by
  constructor
  · rw [notice]
    intro sent
    rcases told with rfl | rfl
    · rw [screened.asked]
      exact waited
    · exact screened.text sent
  · exact after.symm
  · rintro _ ⟨⟩
  · intro shown shows
    rw [plan]
    rcases told with rfl | rfl
    · exact List.mem_cons_of_mem _ (screened.pending shown shows)
    · exact screened.shown shown shows
  · rintro _ ⟨⟩

/-- A notice shows what it is told, and waits for something else. -/
private theorem Screened.next {s : Screen} {texts : List String} (screened : Screened s texts r)
    {e : Event Run Move} (made : e.before.step e.moment e.move = some (e.after, e.effects))
    (same : e.before = r) (watched : r.Watched)
    (distinct : (r.plan.announcement :: (texts ++ e.edits)).Nodup) :
    Screened (s.next e) (texts ++ e.edits) e.after := by
  subst same
  have plan := (plan_of_step made).1
  have fresh {text : String} (asked : e.edits = [text]) :
      text ∉ e.before.plan.announcement :: texts := by
    rw [asked, ← List.cons_append, List.nodup_append] at distinct
    exact fun member => distinct.2.2 text member text (List.mem_singleton_self text) rfl
  cases editing_of_step made watched with
  | none silent _ unanswered unsent same notice =>
      have silent : e.edits = [] := silent
      rw [Screen.next_of_unanswered unanswered, unsent, silent, List.append_nil]
      exact ⟨fun some => screened.text (notice some), screened.asked.trans same.symm,
        screened.pending, by rw [plan]; exact screened.shown, screened.differs⟩
  | sent silent _ unanswered sent before after =>
      have silent : e.edits = [] := silent
      have unasked := screened.asked.trans before
      rw [Screen.next_of_unanswered unanswered, sent, silent, List.append_nil, unasked]
      refine ⟨fun _ => rfl, after.symm, by rintro _ ⟨⟩, ?_, by rintro _ ⟨⟩⟩
      rintro _ ⟨⟩
      rw [plan]
      exact List.mem_cons_self
  | answered silent _ told waited after notice =>
      have silent : e.edits = [] := silent
      rw [silent, List.append_nil]
      rcases Screen.next_of_answered (s := s) told with next | next <;> rw [next]
      · exact screened.settle plan notice waited after (.inl rfl)
      · exact screened.settle plan notice waited after (.inr rfl)
  | progress ticks sent _ _ _ after posts =>
      have asked : e.edits = [Notice.underWay e.before.plan.announcement e.before.tally.progress] :=
        congrArg (List.filterMap Post.edited?) posts
      rw [Screen.next_of_unanswered (by rw [ticks]; rfl), ticks, asked]
      exact screened.ask (by rw [sent]; rfl) plan (by rw [after]; rfl) (fresh asked)
  | @report _ report concludes sent _ ended _ after posts =>
      have asked : e.edits = [Notice.complete report] :=
        congrArg (List.filterMap Post.edited?) posts
      rw [Screen.next_of_unanswered (by rw [concludes]; rfl), concludes, asked]
      refine screened.ask (by rw [sent]; rfl) plan ?_ (fresh asked)
      rw [after]
      simp [asks?, Display.asks?_of_ended ended, Stage.asks?]

/-- The notice of a run shows what it was told, and the run waits for something else. -/
theorem screened_of_course (course : Course step (opening plan began cancelled) events r)
    (countable : plan.targets.length < 2 ^ 64) : Screened (screen events) (edits events) r := by
  induction course with
  | start => exact ⟨by rintro ⟨⟩, rfl, by rintro _ ⟨⟩, by rintro _ ⟨⟩, by rintro _ ⟨⟩⟩
  | next past made ih =>
      have distinct := (tried_of_course (past.next made) countable).distinct
      rw [edits_concat, (plan_of_step made).1] at distinct
      rw [screen_concat, edits_concat]
      exact ih.next made rfl (watched_of_course past) distinct

/-- When a run asks for an edit, its notice shows another text and waits for nothing. -/
theorem changes_of_asked {past rest : List (Event Run Move)} {e : Event Run Move}
    (course : Course step (opening plan began cancelled) (past ++ e :: rest) r)
    (countable : plan.targets.length < 2 ^ 64) {notice : Handle} {text : String}
    (asked : .edit notice text ∈ e.posts) :
    e.before.notice = some notice ∧ ∃ shown, screen past = ⟨some shown, none⟩ ∧ shown ≠ text := by
  obtain ⟨early, made, -⟩ := course.around
  have screened := screened_of_course early countable
  have distinct := (tried_of_course (early.next made) countable).distinct
  have here : text ∈ e.edits := List.mem_filterMap.mpr ⟨_, asked, rfl⟩
  have other {shown : String} (shows : (screen past).text = some shown) : shown ≠ text := by
    rw [edits_concat, ← List.cons_append, (plan_of_step made).1, List.nodup_append] at distinct
    exact distinct.2.2 shown (screened.shown shown shows) text here
  have shows (sent : e.before.notice = some notice) (waits : e.before.asks? = none) :
      ∃ shown, screen past = ⟨some shown, none⟩ ∧ shown ≠ text := by
    obtain ⟨shown, shows⟩ := Option.isSome_iff_exists.mp (screened.text (by rw [sent]; rfl))
    refine ⟨shown, ?_, other shows⟩
    rw [← shows, ← waits, ← screened.asked]
  cases editing_of_step made (watched_of_course early) with
  | none silent | sent silent | answered silent =>
      have silent : e.edits = [] := silent
      rw [silent] at here
      cases here
  | progress _ sent _ _ waits _ posts | report _ sent _ _ waits _ posts =>
      have posts : e.posts = _ := posts
      rw [posts] at asked
      cases List.mem_singleton.mp asked
      exact ⟨sent, shows sent waits⟩

theorem changes_of_answered {past rest : List (Event Run Move)} {e : Event Run Move}
    (course : Course step (opening plan began cancelled) (past ++ e :: rest) r)
    (countable : plan.targets.length < 2 ^ 64) {answer : Answer Bool}
    (answered : e.move.editAnswer? = some answer) :
    ∃ shown text, screen past = ⟨some shown, some text⟩ ∧ shown ≠ text := by
  obtain ⟨early, made, -⟩ := course.around
  have screened := screened_of_course early countable
  cases editing_of_step made (watched_of_course early) with
  | none _ _ unanswered | sent _ _ unanswered => cases unanswered.symm.trans answered
  | answered _ _ _ waits =>
      obtain ⟨text, waits⟩ := Option.isSome_iff_exists.mp waits
      have asked := screened.asked.trans waits
      obtain ⟨shown, shows, other⟩ := screened.differs text asked
      exact ⟨shown, text, by rw [← shows, ← asked], other⟩
  | progress ticks =>
      rw [ticks] at answered
      cases answered
  | report concludes =>
      rw [concludes] at answered
      cases answered

end Courses

end Run

end Broadcast
