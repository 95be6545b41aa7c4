import Broadcast.Proofs.Run.Attempts
import Mathlib.Algebra.Order.Sub.Basic
import Mathlib.Data.Multiset.OrderedMonoid

/-!
# What becomes of the targets of a run

A target whose job is neither in the queue nor in the hand of a worker has been counted, or a
worker broke down with its job in hand. As long as the crew is at work these are all targets, each
in one place:

`queue + hands + counted + lost = targets`

The end of the crew counts whatever is left, and then each target has been counted.
-/

namespace Broadcast.Run

/-! ## Hands -/

/-- The job that a worker has in hand. -/
def Worker.job? : Worker → Option Job
  | waiting job | delivering job => some job
  | idle | resting _ | finished | broken => none

/-- The jobs in the hands of the workers. -/
def hands (r : Run) : List Job :=
  r.workers.filterMap Worker.job?

/-- The jobs that have been counted. -/
abbrev processed (r : Run) : Nat := r.tally.progress.processed

theorem processed_eq (r : Run) : r.processed = r.success.toNat + r.failed.toNat := rfl

theorem recipients_eq (r : Run) :
    r.recipients = ((r.queue ++ r.hands).map Job.recipient : List Recipient) := by
  have hands (workers : List Worker) :
      (workers.map Worker.inHand).sum.map (fun entry => entry.1.recipient) =
        ((workers.filterMap Worker.job?).map Job.recipient : List Recipient) := by
    induction workers with
    | nil => rfl
    | cons w workers ih =>
        rw [List.map_cons, List.sum_cons, Multiset.map_add, ih]
        cases w <;> simp [Worker.inHand, Worker.job?, List.filterMap_cons]
  rw [recipients, pending, queued, Multiset.map_add, crewSum, hands, List.map_append,
    Multiset.map_coe, List.map_map, Multiset.coe_add]
  rfl

theorem recipients_congr {r r' : Run} (same : r'.pending = r.pending) :
    r'.recipients = r.recipients := by
  rw [recipients, recipients, same]

theorem recipients_of_pending {r r' : Run} {job : Job} {begun : Bool}
    (gone : r.pending = (job, begun) ::ₘ r'.pending) :
    r.recipients = {job.recipient} + r'.recipients := by
  rw [recipients, gone, Multiset.map_cons, recipients, Multiset.singleton_add]

/-! ## Fates -/

/-- What has become of the recipients whose jobs have ended. -/
structure Fates where
  /-- Those who were counted as delivered or as failed. -/
  counted : Multiset Recipient
  /-- Those whose jobs were not counted when they ended. -/
  lost : Multiset Recipient

namespace Fates

/-- Nobody's job has ended. -/
def empty : Fates := ⟨0, 0⟩

/-- The recipients whose jobs end with an event are counted if the counters say so; the end of the
crew counts all that are left, and also those who were lost. -/
def after (fates : Fates) (e : Event Run Move) : Fates :=
  let ended := e.before.recipients - e.after.recipients
  match e.move with
  | .joined => { fates with counted := fates.counted + ended + fates.lost }
  | _ =>
    if e.after.processed = e.before.processed then { fates with lost := fates.lost + ended }
    else { fates with counted := fates.counted + ended }

end Fates

/-- What has become of the recipients after some events of a run. -/
def fates (events : List (Event Run Move)) : Fates :=
  events.foldl Fates.after .empty

theorem fates_concat (events : List (Event Run Move)) (e : Event Run Move) :
    fates (events ++ [e]) = (fates events).after e := by
  rw [fates, List.foldl_append]
  rfl

/-- A worker breaks down with the job of a recipient in hand. -/
def Loses (x : Recipient) (e : Event Run Move) : Prop :=
  ∃ (i : Nat) (w : Worker) (job : Job), e.before.workers[i]? = some w ∧ w.job? = some job ∧
    job.recipient = x ∧ e.after.workers[i]? = some .broken

/-- Each target of a run is accounted for. -/
structure Accounted (targets : List Recipient) (events : List (Event Run Move)) (r : Run) :
    Prop where
  /-- The counters say how many have been counted. -/
  counters : (fates events).counted.card = r.processed
  /-- As long as the crew is at work, each target is in one place; then all have been counted. -/
  places :
    r.recipients + (fates events).counted + (fates events).lost = targets ∧
        (fates events).lost.card = r.lost ∨
      (r.stage ≠ .announcing ∧ r.stage ≠ .delivering) ∧ r.recipients = 0 ∧
        (fates events).counted = targets
  /-- Jobs are lost only by workers that break down. -/
  lost : ∀ x ∈ (fates events).lost, ∃ e ∈ events, Loses x e

namespace Accounted

variable {targets : List Recipient} {events : List (Event Run Move)} {r : Run}

/-- Whoever has a job has not been counted, and nobody is counted twice. -/
theorem le_targets (accounted : Accounted targets events r) :
    r.recipients + (fates events).counted ≤ targets := by
  rcases accounted.places with ⟨whole, -⟩ | ⟨-, none, whole⟩
  · exact whole ▸ Multiset.le_add_right _ _
  · rw [none, zero_add, whole]

theorem ended (accounted : Accounted targets events r) {x : Recipient} (target : x ∈ targets)
    (absent : x ∉ r.recipients) :
    x ∈ (fates events).counted ∨ ∃ e ∈ events, Loses x e := by
  rcases accounted.places with ⟨whole, -⟩ | ⟨-, -, whole⟩
  · rw [← Multiset.mem_coe, ← whole, Multiset.mem_add, Multiset.mem_add] at target
    exact (target.imp_left fun jobless => jobless.resolve_left absent).imp_right
      (accounted.lost x)
  · rw [whole]
    exact .inl target

theorem settled (accounted : Accounted targets events r) (all : r.processed = targets.length) :
    (fates events).counted = targets := by
  apply Multiset.eq_of_le_of_card_le
  · exact (Multiset.le_add_left _ _).trans accounted.le_targets
  · rw [Multiset.coe_card, accounted.counters, all]

end Accounted

/-! ## One move -/

section Moves

variable {now : Moment} {r r' : Run} {effects : List Effect}

/-- What a deed before the end of the crew does to the places of the targets and to the accounts:
nothing, or one job ends and is counted, or one job ends and is lost. -/
private theorem Deed.fate {answer : Option (Recipient × Except DeliveryError Unit)}
    {attempts : List Attempt} (deed : Deed r r' answer attempts)
    (going : ¬(r.stage = .delivering ∧ r.workers.all Worker.hasEnded = true))
    (sum : r.success.toNat + r.failed.toNat + r.pending.card + r.lost = r.total.toNat) :
    r'.lost = r.lost ∧ (r'.recipients = r.recipients ∧ r'.processed = r.processed ∨
        ∃ x, r.recipients = {x} + r'.recipients ∧ r'.processed = r.processed + 1) ∨
      r'.lost = r.lost + 1 ∧ r'.processed = r.processed := by
  have counts := deed.jobs going sum
  have ends {job : Job} {begun : Bool} (gone : r.pending = (job, begun) ::ₘ r'.pending)
      (whole : r'.lost = r.lost) :
      ∃ x, r.recipients = {x} + r'.recipients ∧ r'.processed = r.processed + 1 := by
    refine ⟨job.recipient, recipients_of_pending gone, ?_⟩
    rw [gone, Multiset.card_cons] at sum
    rw [processed_eq, processed_eq]
    omega
  have stays {lost : Nat} (books : r'.books = (r.success, r.failed, lost)) :
      r'.lost = lost ∧ r'.processed = r.processed := by
    obtain ⟨success, failed, lost⟩ := books_eq_iff.mp books
    exact ⟨lost, by rw [processed_eq, processed_eq, success, failed]⟩
  cases deed with
  | keep same books =>
      obtain ⟨lost, counted⟩ := stays books
      exact .inl ⟨lost, .inl ⟨recipients_congr same, counted⟩⟩
  | call _ before after books | postpone before after _ _ books =>
      obtain ⟨lost, counted⟩ := stays books
      exact .inl ⟨lost, .inl ⟨by simp [recipients, before, after, Job.again], counted⟩⟩
  | skip _ before books | succeed before books | fail before _ books =>
      have whole := (books_eq_iff.mp books).2.2
      exact .inl ⟨whole, .inr (ends before whole)⟩
  | lose _ books => exact .inr (stays books)
  | settle delivering ended => exact absurd ⟨delivering, ended⟩ going

/-- What a turn takes from a run without counting it: nothing, or the job in the hand of a worker
that breaks down, over a permit if its delivery has not begun. -/
inductive Toll (e : Event Run Move) : Prop
  | free : crashes e = false → jams e = false → e.after.lost = e.before.lost → Toll e
  | lose {job : Job} (begun : Bool) :
      crashes e = begun → jams e = !begun → e.after.lost = e.before.lost + 1 →
      e.before.pending = (job, begun) ::ₘ e.after.pending → Loses job.recipient e → Toll e

theorem Turn.toll {i : Nat} {move : WorkerMove} (turn : Turn now r i move r' effects) :
    Toll ⟨now, r, .worker i move, r', effects⟩ := by
  have still {w : Worker} (w' : Worker) (present : r.workers[i]? = some w)
      (set : r'.workers = r.workers.set i w') (going : w.hasEnded = false) (whole : w'.lost = 0) :
      r'.lost = r.lost := by
    rw [(books_eq_iff.mp (books_of_set w' present set going)).2.2, whole, add_zero]
  have breaks {w : Worker} {job : Job} {begun : Bool} (present : r.workers[i]? = some w)
      (held : w.job? = some job) (hand : w.inHand = {(job, begun)}) (going : w.hasEnded = false)
      (set : r'.workers = r.workers.set i .broken) (queue : r'.queue = r.queue) :
      r'.lost = r.lost + 1 ∧ r.pending = (job, begun) ::ₘ r'.pending ∧
        Loses job.recipient ⟨now, r, .worker i move, r', effects⟩ := by
    refine ⟨(books_eq_iff.mp (books_of_set .broken present set going)).2.2,
      pending_of_drop r' present set queue hand rfl, i, w, job, present, held, rfl, ?_⟩
    rw [set, List.getElem?_set_self (List.getElem?_eq_some_iff.mp present).1]
  cases turn with
  | jam present jammed =>
      obtain ⟨lost, gone, loses⟩ := breaks present rfl rfl rfl rfl rfl
      exact .lose false rfl jammed lost gone loses
  | crash present =>
      obtain ⟨lost, gone, loses⟩ := breaks present rfl rfl rfl rfl rfl
      exact .lose true rfl rfl lost gone loses
  | skip present flows | call present flows =>
      exact .free rfl flows (still _ present rfl rfl rfl)
  | finish present | drop present | take present | succeed present | postpone present
  | exhaust present | dismiss present | refuse present | wake present =>
      exact .free rfl rfl (still _ present rfl rfl rfl)

variable {targets : List Recipient} {events : List (Event Run Move)} {move : Move}

private theorem fates_of_inner {ended : Multiset Recipient} (inner : move ≠ .joined)
    (gone : r.recipients = ended + r'.recipients) :
    fates (events ++ [⟨now, r, move, r', effects⟩]) =
      if r'.processed = r.processed then
        ⟨(fates events).counted, (fates events).lost + ended⟩
      else
        ⟨(fates events).counted + ended, (fates events).lost⟩ := by
  rw [fates_concat, Fates.after, gone, add_tsub_cancel_right]
  cases move with
  | joined => exact absurd rfl inner
  | announced | worker | removal | display | drained | timedOut | concluded | edited | replied
  | cancel => rfl

private theorem Accounted.loses (accounted : Accounted targets events r) {x : Recipient}
    (member : x ∈ (fates events).lost) (e : Event Run Move) :
    ∃ e' ∈ events ++ [e], Loses x e' := by
  obtain ⟨e', before, loses⟩ := accounted.lost x member
  exact ⟨e', List.mem_append_left _ before, loses⟩

private theorem Accounted.keep (accounted : Accounted targets events r) (inner : move ≠ .joined)
    (same : r'.recipients = r.recipients) (lost : r'.lost = r.lost)
    (processed : r'.processed = r.processed)
    (late : r.stage ≠ .announcing ∧ r.stage ≠ .delivering →
      r'.stage ≠ .announcing ∧ r'.stage ≠ .delivering) :
    Accounted targets (events ++ [⟨now, r, move, r', effects⟩]) r' := by
  have fates : fates (events ++ [⟨now, r, move, r', effects⟩]) =
      ⟨(fates events).counted, (fates events).lost⟩ := by
    rw [fates_of_inner inner (by rw [same, zero_add]), if_pos processed, add_zero]
  constructor
  · rw [fates, accounted.counters, processed]
  · rw [fates, same, lost]
    exact accounted.places.imp_right (And.imp_left late)
  · intro x member
    exact accounted.loses (by rwa [fates] at member) _

private theorem Accounted.count {x : Recipient} (accounted : Accounted targets events r)
    (inner : move ≠ .joined) (gone : r.recipients = {x} + r'.recipients) (lost : r'.lost = r.lost)
    (processed : r'.processed = r.processed + 1) :
    Accounted targets (events ++ [⟨now, r, move, r', effects⟩]) r' := by
  have fates : fates (events ++ [⟨now, r, move, r', effects⟩]) =
      ⟨(fates events).counted + {x}, (fates events).lost⟩ := by
    rw [fates_of_inner inner gone, if_neg (by omega)]
  constructor
  · rw [fates, Multiset.card_add, Multiset.card_singleton, accounted.counters, processed]
  · rcases accounted.places with ⟨whole, card⟩ | ⟨-, none, -⟩
    · refine .inl ⟨?_, by rw [fates, lost, card]⟩
      rw [fates, ← whole, gone]
      dsimp only
      abel
    · simp [none] at gone
  · intro y member
    exact accounted.loses (by rwa [fates] at member) _

private theorem Accounted.lose {x : Recipient} (accounted : Accounted targets events r)
    (inner : move ≠ .joined) (gone : r.recipients = {x} + r'.recipients)
    (lost : r'.lost = r.lost + 1) (processed : r'.processed = r.processed)
    (loses : Loses x ⟨now, r, move, r', effects⟩) :
    Accounted targets (events ++ [⟨now, r, move, r', effects⟩]) r' := by
  have fates : fates (events ++ [⟨now, r, move, r', effects⟩]) =
      ⟨(fates events).counted, (fates events).lost + {x}⟩ := by
    rw [fates_of_inner inner gone, if_pos processed]
  constructor
  · rw [fates, accounted.counters, processed]
  · rcases accounted.places with ⟨whole, card⟩ | ⟨-, none, -⟩
    · refine .inl ⟨?_, by rw [fates, Multiset.card_add, Multiset.card_singleton, card, lost]⟩
      rw [fates, ← whole, gone]
      dsimp only
      abel
    · simp [none] at gone
  · intro y member
    rw [fates, Multiset.mem_add, Multiset.mem_singleton] at member
    rcases member with member | rfl
    · exact accounted.loses member _
    · exact ⟨_, List.mem_append_right _ (List.mem_singleton_self _), loses⟩

private theorem Accounted.join (accounted : Accounted targets events r)
    (delivering : r.stage = .delivering) (none : r'.recipients = 0)
    (processed : r'.processed = targets.length) (closing : r'.stage.isClosing = true) :
    Accounted targets (events ++ [⟨now, r, .joined, r', effects⟩]) r' := by
  obtain ⟨whole, -⟩ := accounted.places.resolve_right fun late => late.1.2 delivering
  have fates : fates (events ++ [⟨now, r, .joined, r', effects⟩]) =
      ⟨targets, (fates events).lost⟩ := by
    rw [fates_concat, Fates.after, none, tsub_zero, ← whole, add_comm r.recipients]
  constructor
  · rw [fates, processed, Multiset.coe_card]
  · refine .inr ⟨⟨?_, ?_⟩, none, by rw [fates]⟩
    · intro announcing
      simp [announcing, Stage.isClosing] at closing
    · intro delivering
      simp [delivering, Stage.isClosing] at closing
  · intro x member
    exact accounted.loses (by rwa [fates] at member) _

theorem closing_of_joined (made : r.step now .joined = some (r', effects)) :
    r.stage = .delivering ∧ r'.stage.isClosing = true := by
  cases way_of_step made with
  | leg leg =>
      cases leg with
      | join delivering => exact ⟨delivering, stage_joined now r⟩

/-- Every target stays accounted for. -/
private theorem accounted_of_step (made : r.step now move = some (r', effects))
    (accounted : Accounted targets events r) (staffed : r.Staffed) (balanced : r.Balanced)
    (total : r.total.toNat = targets.length) :
    Accounted targets (events ++ [⟨now, r, move, r', effects⟩]) r' := by
  have deed := deed_of_step made staffed
  cases change_of_step made with
  | turn turn =>
      have delivering := turn.delivering staffed
      have fate := turn.deed.fate (fun ended => turn.going ended.2)
        (balanced.jobs (.inr delivering))
      rcases fate with ⟨lost, ⟨same, processed⟩ | ⟨x, gone, processed⟩⟩ | ⟨lost, processed⟩
      · exact accounted.keep (by simp) same lost processed (fun late => absurd delivering late.2)
      · exact accounted.count (by simp) gone lost processed
      · cases turn.toll with
        | free _ _ whole => exact absurd (lost.symm.trans whole) (Nat.succ_ne_self _)
        | lose _ _ _ _ gone loses =>
            exact accounted.lose (by simp) (recipients_of_pending gone) lost processed loses
  | crew announcing =>
      exact accounted.keep (by simp) (recipients_congr (pending_of_crew staffed announcing rfl rfl))
        (lost_of_crew staffed announcing rfl) rfl (fun late => absurd announcing late.1)
  | join delivering ended =>
      refine accounted.join delivering ?_ ?_ (stage_joined now r)
      · rw [recipients, pending_joined now ended, Multiset.map_zero]
      · rw [processed_eq, settled now balanced.le_total, total]
  | aside aside other =>
      obtain ⟨pending, lost⟩ := pending_congr aside.queue aside.workers
      have processed : r'.processed = r.processed := by
        rw [processed_eq, processed_eq, aside.success, aside.failed]
      refine accounted.keep ?_ (recipients_congr pending) lost processed ?_
      · rintro rfl
        -- A join closes a run that delivers, which no move of this kind does.
        obtain ⟨delivering, closing⟩ := closing_of_joined made
        rcases aside.stage with same | ⟨before, -⟩ | ⟨before, -⟩
        · simp [same, delivering, Stage.isClosing] at closing
        · cases delivering.symm.trans before
        · simp [delivering, Stage.isClosing] at before
      · rintro ⟨started, ended⟩
        rcases aside.stage with same | ⟨before, -⟩ | ⟨-, after⟩
        · rw [same]
          exact ⟨started, ended⟩
        · exact absurd before started
        · constructor <;> intro stage <;> simp [stage, Stage.isClosing] at after

end Moves

/-- In a run for distinct targets every target is accounted for at every moment. -/
theorem accounted_of_course {plan : Plan} {began : Moment} {cancelled : Bool}
    {events : List (Event Run Move)} {r : Run}
    (course : Course step (opening plan began cancelled) events r)
    (countable : plan.targets.length < 2 ^ 64) : Accounted plan.targets events r := by
  induction course with
  | start =>
      refine ⟨rfl, .inl ⟨?_, rfl⟩, by simp [fates, Fates.empty]⟩
      rw [recipients, pending_opening]
      simp [fates, Fates.empty, Function.comp_def, Job.fresh]
  | next past made ih =>
      have total := (plan_of_course past).2.2
      have balanced := balanced_of_course past countable
      refine accounted_of_step made ih (staffed_of_course past) balanced ?_
      rw [total, opening_total, UInt64.toNat_ofNat_of_lt' countable]

end Broadcast.Run
