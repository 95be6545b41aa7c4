/-!
# Searching a text

Whether a text holds another, and what follows its first occurrence.
-/

namespace Broadcast.Text

/-- The text that follows a pattern at the very start of `s`. -/
def afterStart? : (pattern s : List Char) → Option (List Char)
  | [], s => some s
  | _ :: _, [] => none
  | p :: pattern, c :: s => if p = c then afterStart? pattern s else none

/-- The text that follows the first occurrence of a pattern in `s`. -/
def afterFirst? (pattern : List Char) : (s : List Char) → Option (List Char)
  | [] => afterStart? pattern []
  | c :: s =>
    match afterStart? pattern (c :: s) with
    | some rest => some rest
    | none => afterFirst? pattern s

/-- The pattern occurs somewhere in `s`. -/
def holds (s pattern : List Char) : Bool :=
  (afterFirst? pattern s).isSome

theorem afterStart?_eq_some_iff {pattern s rest : List Char} :
    afterStart? pattern s = some rest ↔ s = pattern ++ rest := by
  induction pattern generalizing s with
  | nil => simp [afterStart?]
  | cons p pattern ih =>
    cases s with
    | nil => simp [afterStart?]
    | cons c s =>
      by_cases h : p = c
      · simp [afterStart?, h, ih]
      · simp [afterStart?, h, Ne.symm h]

/-- A pattern is held exactly where it is a block of the text. -/
theorem holds_iff {s pattern : List Char} :
    holds s pattern = true ↔ ∃ before after, s = before ++ pattern ++ after := by
  unfold holds
  induction s with
  | nil =>
    rw [afterFirst?, Option.isSome_iff_exists]
    constructor
    · rintro ⟨rest, h⟩
      exact ⟨[], rest, by simpa using afterStart?_eq_some_iff.1 h⟩
    · rintro ⟨before, after, h⟩
      obtain ⟨rfl, rfl, rfl⟩ : before = [] ∧ pattern = [] ∧ after = [] := by
        simpa using h.symm
      exact ⟨[], rfl⟩
  | cons c s ih =>
    rw [afterFirst?]
    split
    · next rest h =>
      have := afterStart?_eq_some_iff.1 h
      exact ⟨fun _ => ⟨[], rest, by simpa using this⟩, fun _ => rfl⟩
    · next h =>
      rw [ih]
      constructor
      · rintro ⟨before, after, rfl⟩
        exact ⟨c :: before, after, rfl⟩
      · rintro ⟨before, after, hs⟩
        cases before with
        | nil =>
          rw [afterStart?_eq_some_iff.2 (by simpa using hs)] at h
          cases h
        | cons b before =>
          exact ⟨before, after, by simpa using (List.cons.inj hs).2⟩

end Broadcast.Text
