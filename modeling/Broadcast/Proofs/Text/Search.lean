import Broadcast.Text.Search
import Mathlib.Data.List.Infix

/-!
# First occurrences

A search stops at the first occurrence of its pattern: what it returns is what stands behind that
one, whatever stands behind later ones.
-/

namespace Broadcast.Text

/-- The first occurrence of a pattern in a text, with what stands before and behind it. -/
structure FirstAt (pattern s before rest : List Char) : Prop where
  /-- The pattern occurs there. -/
  occurs : s = before ++ pattern ++ rest
  /-- It does not occur earlier. -/
  first : ∀ before' rest', s = before' ++ pattern ++ rest' → before.length ≤ before'.length

theorem FirstAt.unique {pattern s before rest before' rest' : List Char}
    (found : FirstAt pattern s before rest) (found' : FirstAt pattern s before' rest') :
    rest = rest' := by
  have same : before.length = before'.length :=
    Nat.le_antisymm (found.first _ _ found'.occurs) (found'.first _ _ found.occurs)
  have split : before ++ (pattern ++ rest) = before' ++ (pattern ++ rest') := by
    rw [← List.append_assoc, ← List.append_assoc, ← found.occurs, ← found'.occurs]
  exact List.append_cancel_left (List.append_inj split same).2

private theorem firstAt_of_afterFirst? {pattern s rest : List Char}
    (found : afterFirst? pattern s = some rest) : ∃ before, FirstAt pattern s before rest := by
  induction s with
  | nil => exact ⟨[], afterStart?_eq_some_iff.mp found, fun _ _ _ => Nat.zero_le _⟩
  | cons c s ih =>
      rw [afterFirst?] at found
      split at found
      next rest' here =>
        obtain rfl := Option.some.inj found
        exact ⟨[], afterStart?_eq_some_iff.mp here, fun _ _ _ => Nat.zero_le _⟩
      next notHere =>
        obtain ⟨before, later⟩ := ih found
        refine ⟨c :: before, by rw [later.occurs]; rfl, fun before' rest' split => ?_⟩
        cases before' with
        | nil =>
            have here : afterStart? pattern (c :: s) = some rest' :=
              afterStart?_eq_some_iff.mpr split
            cases notHere.symm.trans here
        | cons b before' =>
            obtain ⟨-, split⟩ := List.cons.inj split
            exact Nat.succ_le_succ (later.first before' rest' split)

/-- A pattern is held exactly where it is a block of the text. -/
theorem holds_iff_isInfix {s pattern : List Char} : holds s pattern = true ↔ pattern <:+: s := by
  rw [holds_iff]
  exact exists_congr fun before => exists_congr fun rest => eq_comm

/-- A search returns what stands behind the first occurrence, and nothing else. -/
theorem afterFirst?_eq_some_iff {pattern s rest : List Char} :
    afterFirst? pattern s = some rest ↔ ∃ before, FirstAt pattern s before rest := by
  refine ⟨firstAt_of_afterFirst?, fun ⟨before, found⟩ => ?_⟩
  have held : holds s pattern = true := holds_iff.mpr ⟨before, rest, found.occurs⟩
  obtain ⟨rest', returned⟩ := Option.isSome_iff_exists.mp held
  obtain ⟨before', found'⟩ := firstAt_of_afterFirst? returned
  rw [returned, found.unique found']

end Broadcast.Text
