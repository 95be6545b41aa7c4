import Broadcast.Proofs.Desk.History

/-!
# The slot in three fields

A program keeps the slot in three fields: whether somebody holds it, whether a cancel is parked, and
the run that is attached. A `Flight` stands for those contents that can come up, and each operation
takes both the same way; so a desk with such a slot answers as one with a `Flight` does, whatever
the actions and their order.
-/

namespace Broadcast

/-- The slot for the broadcast that is under way, field by field. -/
structure Slot where
  busy : Bool
  cancelPending : Bool
  current : Option Nat
deriving DecidableEq, Repr

namespace Slot

/-- The slot claimed, if nobody holds it. -/
def claim? (s : Slot) : Option Slot :=
  if s.busy then none else some { s with busy := true }

/-- The slot with a run attached, and whether a parked cancel meets it. -/
def attach (run : Nat) (s : Slot) : Slot × Bool :=
  ({ s with cancelPending := false, current := some run }, s.cancelPending)

/-- The slot after a wish to cancel, and what became of the wish. -/
def cancel (s : Slot) : Slot × Flight.Cancellation :=
  match s.current with
  | some run => (s, .applied run)
  | none => if s.busy then ({ s with cancelPending := true }, .parked) else (s, .refused)

/-- The slot when its holder gives it back. -/
def release (s : Slot) : Slot :=
  { s with current := none, cancelPending := false, busy := false }

end Slot

namespace Flight

/-- The fields of a slot. -/
def slot : Flight → Slot
  | idle => ⟨false, false, none⟩
  | claimed parked => ⟨true, parked, none⟩
  | attached run => ⟨true, false, some run⟩

theorem slot_injective : Function.Injective slot := by
  intro f g same
  cases f <;> cases g <;> simp_all [slot]

theorem busy_slot (f : Flight) : f.slot.busy = f.isBusy := by
  cases f <;> rfl

theorem current_slot (f : Flight) : f.slot.current = f.current? := by
  cases f <;> rfl

theorem claim?_slot (f : Flight) : f.slot.claim? = f.claim?.map slot := by
  cases f <;> rfl

/-- Only a slot that somebody holds may have a run attached: an idle one would not become busy. -/
theorem attach_slot {f : Flight} (busy : f.isBusy = true) (run : Nat) :
    f.slot.attach run = ((f.attach run).1.slot, (f.attach run).2) := by
  cases f with
  | idle => cases busy
  | claimed | attached => rfl

theorem cancel_slot (f : Flight) : f.slot.cancel = (f.cancel.1.slot, f.cancel.2) := by
  cases f <;> rfl

theorem release_slot (f : Flight) : f.slot.release = idle.slot := by
  cases f <;> rfl

end Flight

/-- A desk that keeps its slot in three fields. -/
structure SlotDesk where
  slot : Slot
  tallies : List Tally
  claims : List Bool

namespace SlotDesk

open Desk (Action Answer)

/-- The claim of a number holds. -/
def holdsClaim (d : SlotDesk) (claim : Nat) : Bool :=
  (d.claims[claim]?).getD false

/-- The desk with a run cancelled. -/
def cancelRun (d : SlotDesk) (run : Nat) : SlotDesk :=
  { d with tallies := d.tallies.modify run Tally.cancel }

/-- The desk after an action, and the answer. Actions that are no business of the slot do to the
tallies what they do at any desk. -/
def step (d : SlotDesk) : Action → SlotDesk × Answer
  | .claim =>
    match d.slot.claim? with
    | some slot => ({ d with slot, claims := d.claims ++ [true] }, .yesNo true)
    | none => ({ d with claims := d.claims ++ [false] }, .yesNo false)
  | .attach claim run =>
    if d.holdsClaim claim then
      let (slot, meetsCancel) := d.slot.attach run
      let d := { d with slot }
      (if meetsCancel then d.cancelRun run else d, .nothing)
    else
      (d, .noClaim)
  | .release claim =>
    if d.holdsClaim claim then
      ({ d with slot := d.slot.release, claims := d.claims.set claim false }, .yesNo true)
    else
      (d, .yesNo false)
  | .cancelFlight =>
    match d.slot.cancel with
    | (slot, .applied run) => ({ d with slot }.cancelRun run, .yesNo true)
    | (slot, cancellation) => ({ d with slot }, .yesNo cancellation.isAccepted)
  | action =>
    let (desk, answer) := Desk.step ⟨.idle, d.tallies, d.claims⟩ action
    ({ d with tallies := desk.tallies }, answer)

/-- The desk after actions in order, and their answers. -/
def run (d : SlotDesk) : List Action → SlotDesk × List Answer
  | [] => (d, [])
  | action :: rest =>
    let (d, answer) := d.step action
    let (d, answers) := d.run rest
    (d, answer :: answers)

end SlotDesk

namespace Desk

/-- The desk with its slot in three fields. -/
def split (d : Desk) : SlotDesk :=
  ⟨d.flight.slot, d.tallies, d.claims⟩

/-- The answers to actions in order. -/
def answers (d : Desk) : List Action → List Answer
  | [] => []
  | action :: rest => (d.step action).2 :: answers (d.step action).1 rest

/-- An action does the same to the slot in three fields. -/
theorem step_split {d : Desk} (held : ∀ k, d.holdsClaim k = true → d.flight.isBusy = true)
    (action : Action) : d.split.step action = ((d.step action).1.split, (d.step action).2) := by
  cases action with
  | newRun | success | failure | removed | settle | report | cancelRun => rfl
  | claim =>
      rw [SlotDesk.step, step, split, Flight.claim?_slot]
      cases d.flight.claim? <;> rfl
  | attach claim run =>
      have claims : d.split.holdsClaim claim = d.holdsClaim claim := rfl
      rw [SlotDesk.step, step, claims]
      cases holds : d.holdsClaim claim with
      | false => rfl
      | true =>
          simp only [split, Flight.attach_slot (held claim holds), if_true]
          cases (d.flight.attach run).2 <;> rfl
  | release claim =>
      have claims : d.split.holdsClaim claim = d.holdsClaim claim := rfl
      rw [SlotDesk.step, step, claims]
      cases d.holdsClaim claim with
      | false => rfl
      | true => simp [split, Flight.release_slot]
  | cancelFlight =>
      rw [SlotDesk.step, step, split, Flight.cancel_slot]
      obtain ⟨flight, cancellation⟩ := d.flight.cancel
      cases cancellation <;> rfl

/-- The slot in three fields comes to the same desk with the same answers, from a desk at which only
a busy slot is claimed. -/
private theorem run_split_of_held (past actions : List Action) :
    (empty.run past).split.run actions =
      ((empty.run (past ++ actions)).split, (empty.run past).answers actions) := by
  induction actions generalizing past with
  | nil => simp [SlotDesk.run, answers]
  | cons action rest ih =>
      have held (k : Nat) (holds : (empty.run past).holdsClaim k = true) :
          (empty.run past).flight.isBusy = true :=
        (held_of_run past).busy.mpr ⟨k, holds⟩
      rw [SlotDesk.run, step_split held, List.append_cons, answers]
      simp only [← run_concat, ih]

/-- Whatever the actions, the slot in three fields comes to what the `Flight` stands for, and all
answers are the same. -/
theorem run_split (actions : List Action) :
    empty.split.run actions = ((empty.run actions).split, empty.answers actions) :=
  run_split_of_held [] actions

end Desk

end Broadcast
