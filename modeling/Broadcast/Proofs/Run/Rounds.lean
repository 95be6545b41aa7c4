import Broadcast.Proofs.Run.Fates
import Broadcast.Proofs.Run.Queue
import Broadcast.Proofs.Run.Rest

/-!
# The order of deliveries with one worker

A single worker empties the queue in rounds. In the first one it tries every target; in each later
one it tries those again whose attempts so far have all met rate limits, in the order of targets.
With jobs known by their recipient and their round, all that is ever to be done is the first round
followed by all that is put back of it and of the rounds after it:

`schedule = first round ++ schedule.filterMap nextRound?`

No other list of that form begins with what has been done.
-/

namespace Broadcast.Run

/-- The recipients whose deliveries begin during some events, in order. -/
def calls (events : List (Event Run Move)) : List Recipient :=
  (events.flatMap Event.attempts).map Attempt.recipient

/-- The targets of one round: those whose attempts before it all meet rate limits. -/
def round (targets : List Recipient) (outcome : Recipient → Nat → Except DeliveryError Unit)
    (k : Nat) : List Recipient :=
  targets.filter fun x => (List.range k).all fun i => isLimited (outcome x i)

/-- The rounds one after the other, up to the last retry. -/
def rounds (targets : List Recipient) (cap : Nat)
    (outcome : Recipient → Nat → Except DeliveryError Unit) : List Recipient :=
  (List.range (cap + 1)).flatMap (round targets outcome)

/-- The recipient of a job and the round in which it is tried. -/
def place (job : Job) : Recipient × Nat :=
  (job.recipient, job.retries.toNat)

/-- The recipients of the rounds one after the other, each with its round. -/
def schedule (targets : List Recipient) (cap : Nat)
    (outcome : Recipient → Nat → Except DeliveryError Unit) : List (Recipient × Nat) :=
  (List.range (cap + 1)).flatMap fun k => (round targets outcome k).map (·, k)

/-- The round after the present one, for a recipient that meets a rate limit. -/
def nextRound? (cap : Nat) (outcome : Recipient → Nat → Except DeliveryError Unit) :
    Recipient × Nat → Option (Recipient × Nat)
  | (x, k) => if isLimited (outcome x k) ∧ k < cap then some (x, k + 1) else none

/-- The recipient that a worker delivers to. -/
def Worker.target? : Worker → Option Recipient
  | delivering job => some job.recipient
  | idle | waiting _ | resting _ | finished | broken => none

/-- A delivery meets a rate limit with an event, and its job is put back. -/
def Postpones (e : Event Run Move) (wait : Duration) : Prop :=
  ∃ job error, putBack? e = some job ∧ answer? e = some (job.recipient, .error error) ∧
    error.wait? = some wait

/-- A single worker has dealt with some jobs, and has taken no others but the one in its hand. -/
structure Serial (outcome : Recipient → Nat → Except DeliveryError Unit)
    (events : List (Event Run Move)) (r : Run) (past : List Job) : Prop where
  /-- Whatever was taken has been dealt with, or is in hand. -/
  taken : taken events = past ++ r.hands
  /-- Whatever was taken has been tried, or waits for its permit. -/
  calls : calls events = past.map Job.recipient ++ r.workers.filterMap Worker.target?
  /-- Whatever met a rate limit was put back, if it could be. -/
  putBack : (putBack events).map place =
    (past.map place).filterMap (nextRound? r.plan.maxRetries.toNat outcome)

/-! ## Rounds -/

section Rounds

variable {targets : List Recipient} {cap : Nat}
  {outcome : Recipient → Nat → Except DeliveryError Unit}

theorem map_schedule :
    (schedule targets cap outcome).map Prod.fst = rounds targets cap outcome := by
  rw [schedule, rounds, List.map_flatMap]
  simp [Function.comp_def]

theorem filterMap_round {k : Nat} (spare : k < cap) :
    ((round targets outcome k).map (·, k)).filterMap (nextRound? cap outcome) =
      (round targets outcome (k + 1)).map (·, k + 1) := by
  have again : nextRound? cap outcome ∘ (·, k) =
      fun x => if isLimited (outcome x k) then some (x, k + 1) else none := by
    funext x
    simp [nextRound?, spare]
  have later : round targets outcome (k + 1) =
      (round targets outcome k).filter fun x => isLimited (outcome x k) := by
    rw [round, round, List.filter_filter]
    refine List.filter_congr fun x _ => ?_
    simp [List.range_succ, Bool.and_comm]
  rw [List.filterMap_map, again, later, ← List.filterMap_eq_map, List.filterMap_filter]
  rfl

theorem filterMap_round_last :
    ((round targets outcome cap).map (·, cap)).filterMap (nextRound? cap outcome) = [] := by
  simp [nextRound?]

/-- The schedule is the first round and whatever is put back of the schedule. -/
theorem schedule_eq : schedule targets cap outcome =
    targets.map (·, 0) ++ (schedule targets cap outcome).filterMap (nextRound? cap outcome) := by
  have first : round targets outcome 0 = targets := by simp [round]
  have later : (schedule targets cap outcome).filterMap (nextRound? cap outcome) =
      (List.range cap).flatMap fun k => (round targets outcome (k + 1)).map (·, k + 1) := by
    rw [schedule, List.range_succ, List.flatMap_append, List.filterMap_append,
      List.flatMap_singleton, filterMap_round_last, List.append_nil, List.filterMap_flatMap]
    exact List.flatMap_congr fun k member => filterMap_round (List.mem_range.mp member)
  rw [later, schedule, List.range_succ_eq_map, List.flatMap_cons, first, List.flatMap_map]

theorem eq_nil_of_filterMap_nextRound {left : List (Recipient × Nat)}
    (same : left = left.filterMap (nextRound? cap outcome)) : left = [] := by
  -- Whatever is put back comes from an earlier round, so the induction is on the round.
  have none (k : Nat) : ∀ x, (x, k) ∉ left := by
    induction k with
    | zero =>
        intro x member
        rw [same] at member
        obtain ⟨⟨y, j⟩, -, next⟩ := List.mem_filterMap.mp member
        simp [nextRound?] at next
    | succ k ih =>
        intro x member
        rw [same] at member
        obtain ⟨⟨y, j⟩, there, next⟩ := List.mem_filterMap.mp member
        obtain ⟨-, rfl, rfl⟩ : _ ∧ y = x ∧ j = k := by simpa [nextRound?] using next
        exact ih y there
  exact List.eq_nil_iff_forall_not_mem.mpr fun (x, k) => none k x

/-- What begins like the schedule, and has the form of the schedule, is the schedule. -/
theorem eq_schedule {done : List (Recipient × Nat)} (begun : done <+: schedule targets cap outcome)
    (all : done = targets.map (·, 0) ++ done.filterMap (nextRound? cap outcome)) :
    done = schedule targets cap outcome := by
  obtain ⟨left, whole⟩ := begun
  have split := @schedule_eq targets cap outcome
  rw [← whole, List.filterMap_append, ← List.append_assoc, ← all] at split
  -- What is still to come would be put back by itself alone, so there is nothing of it.
  rw [← whole, eq_nil_of_filterMap_nextRound (List.append_cancel_left split), List.append_nil]

end Rounds

/-! ## One turn -/

section Turns

variable {outcome : Recipient → Nat → Except DeliveryError Unit} {now : Moment} {r r' : Run}
  {i : Nat} {move : WorkerMove} {effects : List Effect} {events : List (Event Run Move)}
  {past : List Job}

theorem calls_concat (events : List (Event Run Move)) (e : Event Run Move) :
    calls (events ++ [e]) = calls events ++ e.attempts.map Attempt.recipient := by
  simp [calls]

private theorem filterMap_singleton {α β : Type} (f : α → Option β) (a : α) :
    [a].filterMap f = (f a).toList := by
  cases found : f a <;> simp [found]

private theorem Serial.keep {e : Event Run Move} {w w' : Worker}
    (serial : Serial outcome events e.before past) (plan : e.after.plan = e.before.plan)
    (before : e.before.workers = [w]) (after : e.after.workers = [w'])
    (hand : w.job?.toList ++ (taken? e).toList = w'.job?.toList)
    (target : w.target?.toList ++ e.attempts.map Attempt.recipient = w'.target?.toList)
    (still : putBack? e = none) : Serial outcome (events ++ [e]) e.after past where
  taken := by
    rw [taken_concat, serial.taken, List.append_assoc, hands, hands, before, after,
      filterMap_singleton, filterMap_singleton, hand]
  calls := by
    rw [calls_concat, serial.calls, List.append_assoc, before, after, filterMap_singleton,
      filterMap_singleton, target]
  putBack := by
    rw [putBack_concat, still, plan, ← serial.putBack]
    simp

private theorem Serial.settle {e : Event Run Move} {job : Job} {w : Worker}
    (serial : Serial outcome events e.before past) (plan : e.after.plan = e.before.plan)
    (before : e.before.workers = [.delivering job]) (after : e.after.workers = [w])
    (free : w.job? = none ∧ w.target? = none) (quiet : taken? e = none ∧ e.attempts = [])
    (back : (putBack? e).map place =
      nextRound? e.before.plan.maxRetries.toNat outcome (place job)) :
    Serial outcome (events ++ [e]) e.after (past ++ [job]) where
  taken := by
    rw [taken_concat, serial.taken, quiet.1, hands, hands, before, after, filterMap_singleton,
      filterMap_singleton, free.1]
    simp [Worker.job?]
  calls := by
    rw [calls_concat, serial.calls, quiet.2, before, after, filterMap_singleton,
      filterMap_singleton, free.2]
    simp [Worker.target?]
  putBack := by
    rw [putBack_concat, List.map_append, serial.putBack, List.map_append, List.filterMap_append,
      plan, List.map_singleton, filterMap_singleton, ← back]
    cases putBack? e <;> rfl

/-- A turn of the only worker leaves the jobs one after the other. -/
private theorem Turn.serial (turn : Turn now r i move r' effects) (lone : r.workers.length ≤ 1)
    (serial : Serial outcome events r past) (going : r.tally.cancelled = false)
    (calm : crashes ⟨now, r, .worker i move, r', effects⟩ = false)
    (flows : jams ⟨now, r, .worker i move, r', effects⟩ = false)
    (follows : ∀ job o, r.workers[i]? = some (.delivering job) → move = .answered (.gave o) →
      o = outcome job.recipient job.retries.toNat) :
    ∃ past', Serial outcome (events ++ [⟨now, r, .worker i move, r', effects⟩]) r' past' := by
  have alone {w : Worker} (present : r.workers[i]? = some w) :
      r.workers = [w] ∧ ∀ w', r.workers.set i w' = [w'] := by
    obtain ⟨inside, rfl⟩ := List.getElem?_eq_some_iff.mp present
    obtain rfl : i = 0 := by omega
    obtain ⟨w, workers⟩ := List.length_eq_one_iff.mp (Nat.le_antisymm lone inside)
    simp [workers]
  cases turn with
  | finish present empty =>
      obtain ⟨before, after⟩ := alone present
      exact ⟨past, serial.keep rfl before (after _) (by simp [taken?, empty, Worker.job?]) rfl rfl⟩
  | drop _ _ cancelled | skip _ _ cancelled => cases going.symm.trans cancelled
  | take present front =>
      obtain ⟨before, after⟩ := alone present
      exact ⟨past, serial.keep rfl before (after _) (by simp [taken?, front, Worker.job?]) rfl rfl⟩
  | jam _ jammed => cases jammed.symm.trans flows
  | call present | wake present =>
      obtain ⟨before, after⟩ := alone present
      exact ⟨past, serial.keep rfl before (after _) rfl rfl rfl⟩
  | crash => cases calm
  | @succeed job present =>
      obtain ⟨before, after⟩ := alone present
      refine ⟨past ++ [job], serial.settle rfl before (after _) ⟨rfl, rfl⟩ ⟨rfl, rfl⟩ ?_⟩
      simp [putBack?, setWorker, nextRound?, place, ← follows job _ present rfl, isLimited]
  | @postpone job _ _ present limited spare =>
      obtain ⟨before, after⟩ := alone present
      refine ⟨past ++ [job], serial.settle rfl before (after _) ⟨rfl, rfl⟩ ⟨rfl, rfl⟩ ?_⟩
      have spare := UInt32.lt_iff_toNat_lt.mp spare
      have same : job.again.recipient = job.recipient := rfl
      simp [putBack?, nextRound?, place, ← follows job _ present rfl, isLimited, limited, spare,
        retries_again spare, same]
  | @exhaust job _ _ present limited spent =>
      obtain ⟨before, after⟩ := alone present
      refine ⟨past ++ [job], serial.settle rfl before (after _) ⟨rfl, rfl⟩ ⟨rfl, rfl⟩ ?_⟩
      rw [UInt32.lt_iff_toNat_lt] at spent
      simp [putBack?, fail, setWorker, nextRound?, place, spent]
  | @dismiss job _ present final | @refuse job _ present final =>
      obtain ⟨before, after⟩ := alone present
      refine ⟨past ++ [job], serial.settle rfl before (after _) ⟨rfl, rfl⟩ ⟨rfl, rfl⟩ ?_⟩
      simp [putBack?, fail, setWorker, nextRound?, place, ← follows job _ present rfl, isLimited,
        final]

end Turns

/-! ## A whole run -/

/-- How far a run with one worker has come. -/
structure InRounds (outcome : Recipient → Nat → Except DeliveryError Unit)
    (events : List (Event Run Move)) (r : Run) : Prop where
  /-- The worker deals with one job after the other, as scheduled. -/
  serial : r.stage = .announcing ∨ r.stage = .delivering → ∃ past,
    Serial outcome events r past ∧
    (taken events).map place <+: schedule r.plan.targets r.plan.maxRetries.toNat outcome
  /-- The deliveries so far are the first ones of the rounds. -/
  begun : calls events <+: rounds r.plan.targets r.plan.maxRetries.toNat outcome
  /-- Once the worker has ended, all rounds are over. -/
  ended : r.stage.isClosing = true →
    calls events = rounds r.plan.targets r.plan.maxRetries.toNat outcome

section Courses

variable {plan : Plan} {began : Moment} {cancelled : Bool} {r : Run}
  {events : List (Event Run Move)} {outcome : Recipient → Nat → Except DeliveryError Unit}

private theorem queue_of_serial (course : Course step (opening plan began cancelled) events r)
    (goesOn : r.stage = .announcing ∨ r.stage = .delivering) {past : List Job}
    (serial : Serial outcome events r past) :
    (taken events ++ r.queue).map place = plan.targets.map (·, 0) ++
      (past.map place).filterMap (nextRound? plan.maxRetries.toNat outcome) := by
  obtain ⟨left, whole, same⟩ := queue_of_course course
  have back := serial.putBack
  rw [(plan_of_course course).1] at back
  rw [← same goesOn, whole, List.map_append, back, List.map_map]
  rfl

private theorem scheduled_of_serial (course : Course step (opening plan began cancelled) events r)
    (goesOn : r.stage = .announcing ∨ r.stage = .delivering) {past : List Job}
    (serial : Serial outcome events r past)
    (begun : (taken events).map place <+: schedule plan.targets plan.maxRetries.toNat outcome) :
    (taken events ++ r.queue).map place <+:
      schedule plan.targets plan.maxRetries.toNat outcome := by
  have before : past.map place <+: schedule plan.targets plan.maxRetries.toNat outcome := by
    refine List.IsPrefix.trans ?_ begun
    rw [serial.taken, List.map_append]
    exact List.prefix_append _ _
  rw [queue_of_serial course goesOn serial, schedule_eq]
  exact (List.prefix_append_right_inj _).mpr (before.filterMap _)

private theorem calls_begin {past : List Job} (serial : Serial outcome events r past)
    (lone : r.workers.length ≤ 1) : calls events <+: (taken events).map Job.recipient := by
  have inHand : r.workers.filterMap Worker.target? <+: r.hands.map Job.recipient := by
    rw [hands]
    generalize r.workers = workers at lone ⊢
    match workers, lone with
    | [], _ => exact List.prefix_refl _
    | [w], _ =>
        rw [filterMap_singleton, filterMap_singleton]
        cases w <;> simp [Worker.target?, Worker.job?]
  rw [serial.calls, serial.taken, List.map_append]
  exact (List.prefix_append_right_inj _).mpr inHand

theorem Follows.of_append {left right : List (Event Run Move)}
    (follows : Follows outcome (left ++ right)) : Follows outcome left := by
  intro x i o there
  refine follows x i o ?_
  rw [outcomesOf_append, List.getElem?_append_left (List.getElem?_eq_some_iff.mp there).1, there]

/-- Where outcomes depend on recipient and attempt only, a job knows its next outcome. -/
private theorem outcome_of_answer {e : Event Run Move}
    (course : Course step (opening plan began cancelled) (events ++ [e]) r)
    (distinct : plan.targets.Nodup) (follows : Follows outcome (events ++ [e])) {i : Nat}
    {job : Job} {o : Except DeliveryError Unit}
    (delivering : e.before.workers[i]? = some (.delivering job))
    (answered : e.move = .worker i (.answered (.gave o))) :
    o = outcome job.recipient job.retries.toNat := by
  obtain ⟨past, -, -⟩ := course.of_concat
  have inHand : (job, true) ∈ e.before.pending := by
    rw [pending_of_drop (e.before.setWorker i .idle) delivering rfl rfl rfl rfl]
    exact Multiset.mem_cons_self _ _
  have count := ((tracked_of_course past distinct).pending _ inHand).2
  have answer : answer? e = some (job.recipient, o) := by
    rw [answer?, answered]
    exact answerTo_of_delivering delivering o
  refine follows _ _ _ ?_
  rw [outcomesOf_concat, answer, ← count]
  simp

private theorem taken_begin (events : List (Event Run Move)) (e : Event Run Move) :
    taken (events ++ [e]) <+: taken events ++ e.before.queue := by
  rw [taken_concat]
  refine (List.prefix_append_right_inj _).mpr ?_
  unfold taken?
  split
  · cases e.before.queue <;> simp
  · exact List.nil_prefix

private theorem inRounds_of_turn {now : Moment} {s t : Run} {i : Nat} {move : WorkerMove}
    {effects : List Effect} (course : Course step (opening plan began cancelled) events s)
    (turn : Turn now s i move t effects) (distinct : plan.targets.Nodup) (lone : plan.crew = 1)
    (follows : Follows outcome (events ++ [⟨now, s, .worker i move, t, effects⟩]))
    (going : s.tally.cancelled = false)
    (calm : crashes ⟨now, s, .worker i move, t, effects⟩ = false)
    (flows : jams ⟨now, s, .worker i move, t, effects⟩ = false)
    (inRounds : InRounds outcome events s) :
    InRounds outcome (events ++ [⟨now, s, .worker i move, t, effects⟩]) t := by
  have made : s.step now (.worker i move) = some (t, effects) := turn.stepWorker
  have later := course.next made
  have plan' : s.plan = plan := (plan_of_course course).1
  have staffed := staffed_of_course course
  have delivering := turn.delivering staffed
  have small {events : List (Event Run Move)} {r : Run}
      (course : Course step (opening plan began cancelled) events r) : r.workers.length ≤ 1 := by
    rcases (staffed_of_course course).size with none | size
    · simp [none]
    · rw [size, (plan_of_course course).1, opening_plan, lone]
  obtain ⟨past, serial, begun⟩ := inRounds.serial (.inr delivering)
  rw [plan'] at begun
  obtain ⟨past', serial'⟩ := turn.serial (small course) serial going calm flows
    fun job o there same => outcome_of_answer later distinct follows there (same ▸ rfl)
  have scheduled := scheduled_of_serial course (.inr delivering) serial begun
  have taken' := ((taken_begin events ⟨now, s, .worker i move, t, effects⟩).map place).trans
    scheduled
  have called : calls (events ++ [⟨now, s, .worker i move, t, effects⟩]) <+:
      rounds plan.targets plan.maxRetries.toNat outcome := by
    have tried := taken'.map Prod.fst
    rw [map_schedule, List.map_map] at tried
    exact (calls_begin serial' (small later)).trans tried
  have plan'' : t.plan = plan := (plan_of_course later).1
  refine ⟨fun _ => ⟨past', serial', plan'' ▸ taken'⟩, plan'' ▸ called, fun closing => ?_⟩
  rw [turn.keeps.2.2.1, delivering] at closing
  cases closing

private theorem InRounds.quiet {e : Event Run Move} (inRounds : InRounds outcome events e.before)
    (plan : e.after.plan = e.before.plan) (hands : e.after.hands = e.before.hands)
    (targets : e.after.workers.filterMap Worker.target? =
      e.before.workers.filterMap Worker.target?)
    (untouched : taken? e = none ∧ putBack? e = none) (quiet : e.attempts = [])
    (goesOn : e.after.stage = .announcing ∨ e.after.stage = .delivering →
      e.before.stage = .announcing ∨ e.before.stage = .delivering)
    (closing : e.after.stage.isClosing = true → e.before.stage.isClosing = true) :
    InRounds outcome (events ++ [e]) e.after := by
  have called : calls (events ++ [e]) = calls events := by
    rw [calls_concat, quiet]
    simp
  have took : taken (events ++ [e]) = taken events := by
    rw [taken_concat, untouched.1]
    simp
  refine ⟨fun working => ?_, ?_, fun closes => ?_⟩
  · obtain ⟨past, serial, begun⟩ := inRounds.serial (goesOn working)
    refine ⟨past, ⟨?_, ?_, ?_⟩, ?_⟩
    · rw [took, serial.taken, hands]
    · rw [called, serial.calls, targets]
    · rw [putBack_concat, untouched.2, plan, ← serial.putBack]
      simp
    · rw [took, plan]
      exact begun
  · rw [called, plan]
    exact inRounds.begun
  · rw [called, plan]
    exact inRounds.ended (closing closes)

private theorem calls_of_joined (course : Course step (opening plan began cancelled) events r)
    (delivering : r.stage = .delivering) (ended : r.workers.all Worker.hasEnded = true)
    (whole : .broken ∉ r.workers) (inRounds : InRounds outcome events r) :
    calls events = rounds plan.targets plan.maxRetries.toNat outcome := by
  have plan' : r.plan = plan := (plan_of_course course).1
  obtain ⟨past, serial, begun⟩ := inRounds.serial (.inr delivering)
  have nothing : r.queue ++ r.hands = [] := by
    have pending := pending_of_finished (staffed_of_course course) (slack_of_course course)
      delivering ended (lost_eq_zero_iff.mpr whole)
    have nobody := recipients_eq r
    rw [recipients, pending, Multiset.map_zero] at nobody
    exact List.map_eq_nil_iff.mp (Multiset.coe_eq_zero _ |>.mp nobody.symm)
  obtain ⟨queue, hands⟩ := List.append_eq_nil_iff.mp nothing
  have free : r.workers.filterMap Worker.target? = [] := by
    refine List.filterMap_eq_nil_iff.mpr fun w member => ?_
    have := List.all_eq_true.mp ended w member
    cases w <;> first | rfl | cases this
  have taken : taken events = past := by rw [serial.taken, hands, List.append_nil]
  have all := queue_of_serial course (.inr delivering) serial
  rw [queue, List.append_nil, taken] at all
  rw [taken, plan'] at begun
  rw [serial.calls, free, List.append_nil, ← map_schedule, ← eq_schedule begun all, List.map_map]
  rfl

private theorem inRounds_of_joined {now : Moment}
    (course : Course step (opening plan began cancelled) events r)
    (made : r.step now .joined = some (r.joined now)) (delivering : r.stage = .delivering)
    (ended : r.workers.all Worker.hasEnded = true) (whole : .broken ∉ r.workers)
    (inRounds : InRounds outcome events r) :
    InRounds outcome (events ++ [⟨now, r, .joined, (r.joined now).1, (r.joined now).2⟩])
      (r.joined now).1 := by
  have plan' : (r.joined now).1.plan = plan := (plan_of_course (course.next made)).1
  have closing := stage_joined now r
  have called : calls (events ++ [⟨now, r, .joined, (r.joined now).1, (r.joined now).2⟩]) =
      rounds (r.joined now).1.plan.targets (r.joined now).1.plan.maxRetries.toNat outcome := by
    rw [plan', calls_concat, calls_of_joined course delivering ended whole inRounds]
    exact List.append_nil _
  refine ⟨fun working => ?_, called ▸ List.prefix_refl _, fun _ => called⟩
  rcases working with working | working <;> simp [working, Stage.isClosing] at closing

/-- A run with one worker makes its deliveries in rounds. -/
theorem inRounds_of_course (course : Course step (opening plan began cancelled) events r)
    (distinct : plan.targets.Nodup) (lone : plan.crew = 1) (follows : Follows outcome events)
    (going : r.tally.cancelled = false) (calm : ∀ e ∈ events, crashes e = false)
    (flows : ∀ e ∈ events, jams e = false) : InRounds outcome events r := by
  induction course with
  | start =>
      refine ⟨fun _ => ⟨[], ⟨rfl, rfl, rfl⟩, List.nil_prefix⟩, List.nil_prefix, ?_⟩
      simp [Stage.isClosing]
  | @next events now s t move effects past made ih =>
      have going' : s.tally.cancelled = false := by
        by_contra cancelled
        rw [Bool.not_eq_false] at cancelled
        cases going.symm.trans (cancelled_of_step made cancelled)
      have calm' : ∀ e ∈ events, crashes e = false :=
        fun e member => calm e (List.mem_append_left _ member)
      have flows' : ∀ e ∈ events, jams e = false :=
        fun e member => flows e (List.mem_append_left _ member)
      have inRounds := ih (follows.of_append) going' calm' flows'
      have last : (⟨now, s, move, t, effects⟩ : Event Run Move) ∈
          events ++ [⟨now, s, move, t, effects⟩] :=
        List.mem_append_right _ (List.mem_singleton_self _)
      cases change_of_step made with
      | turn turn =>
          exact inRounds_of_turn past turn distinct lone follows going' (calm _ last)
            (flows _ last) inRounds
      | crew announcing =>
          have nobody := (staffed_of_course past).unstarted announcing
          refine inRounds.quiet rfl ?_ ?_ ⟨rfl, rfl⟩ (quiet_crew s _) (fun _ => .inl announcing) ?_
          · simp [hands, nobody, Worker.job?]
          · simp [nobody, Worker.target?]
          · simp [Stage.isClosing]
      | join delivering ended =>
          have whole := whole_of_course past calm' flows' (by simp)
          exact inRounds_of_joined past made delivering ended whole inRounds
      | aside aside other _ quiet =>
          have hands : t.hands = s.hands := by rw [Run.hands, aside.workers, Run.hands]
          refine inRounds.quiet aside.plan hands (by rw [aside.workers])
            (untouched_of_not_worker other) quiet (underWay_of_step made) fun closing => ?_
          rcases aside.stage with same | ⟨-, broken⟩ | ⟨before, -⟩
          · rwa [same] at closing
          · simp [broken, Stage.isClosing] at closing
          · exact before

private theorem rest_of_postpones {e : Event Run Move}
    (made : e.before.step e.moment e.move = some (e.after, e.effects)) {wait : Duration}
    (postpones : Postpones e wait) :
    ∃ i : Nat,
      e.after.workers[i]? = some (.resting (e.before.plan.clocks.after e.moment wait)) := by
  obtain ⟨job, error, back, answered, limited⟩ := postpones
  obtain ⟨now, s, move, t, effects⟩ := e
  dsimp only at made ⊢
  cases change_of_step made with
  | @turn i _ _ _ turn =>
      cases turn with
      | @postpone _ error' _ present limited' =>
          obtain ⟨inside, -⟩ := List.getElem?_eq_some_iff.mp present
          have answer := answerTo_of_delivering present (.error error')
          obtain ⟨-, same⟩ := Prod.mk.inj (Option.some.inj (answer.symm.trans answered))
          cases same
          cases limited'.symm.trans limited
          exact ⟨i, List.getElem?_set_self inside⟩
      | finish | drop | take | jam | skip | call | wake => cases back
      | crash | succeed | exhaust | dismiss | refuse => simp [putBack?, fail, setWorker] at back
  | crew | join => cases back
  | aside _ other => cases (untouched_of_not_worker other).2.symm.trans back

/-- A run with one worker makes no delivery while that rests. -/
theorem rests_of_lone (course : Course step (opening plan began cancelled) events r)
    (lone : plan.crew = 1) (inOrder : InOrder events) :
    events.Pairwise fun e f => ∀ wait, Postpones e wait → f.attempts ≠ [] →
      plan.clocks.after e.moment wait ≤ f.moment := by
  induction course with
  | start => exact .nil
  | @next events now s t move effects past made ih =>
      obtain ⟨before, -, last⟩ := List.pairwise_append.mp inOrder
      refine List.pairwise_append.mpr ⟨ih before, List.pairwise_singleton _ _, ?_⟩
      intro e member f here wait postpones tried
      obtain rfl := List.mem_singleton.mp here
      obtain ⟨a, called⟩ := List.exists_mem_of_ne_nil _ tried
      obtain ⟨j, job, -, waiting⟩ := permit_of_attempt made called
      obtain ⟨early, mid, rfl⟩ := List.append_of_mem member
      obtain ⟨before, made', between⟩ := past.around
      obtain ⟨i, resting⟩ := rest_of_postpones made' postpones
      have staffed := staffed_of_step made' (staffed_of_course before)
      rcases rests_of_course between staffed resting with rests | ⟨g, there, ended⟩
      · -- There is one worker only, so the one that waits for a permit is the one that rests.
        have first {k : Nat} {w : Worker} (present : s.workers[k]? = some w) : k = 0 := by
          have inside := lt_crew past present
          omega
        obtain rfl := first rests
        obtain rfl := first waiting
        cases rests.symm.trans waiting
      · rw [show e.before.plan = plan from (plan_of_course before).1] at ended
        exact Nat.le_trans ended (last g (by simp [there]) _ here)

end Courses

end Broadcast.Run
