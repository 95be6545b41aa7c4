import Broadcast.Proofs.Course

/-!
# The ways of a removal

A removal waits for its permit, asks the directory, and ends with the answer. What has not ended
is never counted as having left.
-/

namespace Broadcast.Run

/-- The ways in which a move of a removal can go. -/
inductive Leaving (r : Run) (k : Nat) : RemovalMove → Run → List Effect → Prop
  /-- There is a permit for it, and the directory is asked. -/
  | begin {recipient : Recipient} :
      r.removals[k]? = some ⟨recipient, .queued⟩ → r.asking < r.plan.removalPermits →
      Leaving r k .begin (r.setRemoval k .asking)
        [.ask (.remove (Removal.listing ⟨recipient, .queued⟩) recipient)]
  /-- The removal breaks down. -/
  | crash {recipient : Recipient} :
      r.removals[k]? = some ⟨recipient, .asking⟩ →
      Leaving r k (.answered .broke) (r.setRemoval k .broken) []
  /-- The directory was changed, and it has said whether the recipient was listed. -/
  | answer {recipient : Recipient} (left : Bool) :
      r.removals[k]? = some ⟨recipient, .asking⟩ →
      Leaving r k (.answered (.gave left))
        { r.setRemoval k .done with tally := if left then r.tally.addRemoved else r.tally }
        [.publish (.count (.removals (Removal.listing ⟨recipient, .asking⟩) left))]

/-- A move of a removal goes in one of the ways of `Leaving`. -/
theorem leaving_of_stepRemoval {r r' : Run} {k : Nat} {move : RemovalMove}
    {effects : List Effect} (made : r.stepRemoval k move = some (r', effects)) :
    Leaving r k move r' effects := by
  unfold stepRemoval at made
  split at made
  next queued =>
    split at made
    next free =>
      cases made
      exact .begin queued free
    next => cases made
  next asking =>
    cases made
    exact .crash asking
  next left asking =>
    cases made
    cases left <;> exact .answer _ asking
  next => cases made

theorem Leaving.stepRemoval {r r' : Run} {k : Nat} {move : RemovalMove} {effects : List Effect}
    (leaving : Leaving r k move r' effects) : r.stepRemoval k move = some (r', effects) := by
  cases leaving with
  | begin queued free => simp only [Run.stepRemoval, queued, free, if_true]
  | crash asking => simp only [Run.stepRemoval, asking]
  | answer left asking =>
      simp only [Run.stepRemoval, asking]
      cases left <;> rfl

/-- The removals that have been carried out. -/
def gone (r : Run) : Nat :=
  r.removals.countP (·.stage = .done)

@[simp] theorem setRemoval_length (r : Run) (k : Nat) (stage : RemovalStage) :
    (r.setRemoval k stage).removals.length = r.removals.length := by
  simp [setRemoval]

theorem setRemoval_removals {r : Run} {k : Nat} {removal : Removal} (stage : RemovalStage)
    (present : r.removals[k]? = some removal) :
    (r.setRemoval k stage).removals = r.removals.set k { removal with stage } := by
  have : Inhabited Removal := ⟨removal⟩
  rw [setRemoval, List.modify_eq_set, present, Option.getD_some]

theorem countP_setRemoval {r : Run} {k : Nat} {removal : Removal} (counted : Removal → Bool)
    (present : r.removals[k]? = some removal) (stage : RemovalStage) :
    (r.setRemoval k stage).removals.countP counted + (if counted removal then 1 else 0) =
      r.removals.countP counted + if counted { removal with stage } then 1 else 0 := by
  obtain ⟨inside, rfl⟩ := List.getElem?_eq_some_iff.mp present
  have one := List.boole_getElem_le_countP (p := counted) inside
  rw [setRemoval_removals stage present, List.countP_set inside]
  omega

theorem gone_setRemoval {r : Run} {k : Nat} {removal : Removal} {stage : RemovalStage}
    (present : r.removals[k]? = some removal) (before : removal.stage ≠ .done) :
    (r.setRemoval k stage).gone = r.gone + if stage = .done then 1 else 0 := by
  simpa [gone, before] using countP_setRemoval (·.stage = .done) present stage

end Broadcast.Run
