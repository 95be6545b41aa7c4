import Broadcast.Proofs.Config.Listing
import Broadcast.Proofs.Config.Overrides

/-!
# Loading a configuration

The first candidate that exists is the source of a configuration, and no other is looked at. From
it and from the variables of the overrides follow whether loading fails, in which way, and else
which configuration is in force.
-/

namespace Broadcast

namespace Config

/-! ## The source -/

/-- A path is the first in a list that exists. -/
def FirstExisting (files : FileView) (paths : List String) (path : String) : Prop :=
  ∃ before behind, paths = before ++ path :: behind ∧ files path ≠ none ∧
    ∀ other ∈ before, files other = none

/-- What a configuration is loaded from: nothing if no candidate exists, and else the text of the
first that does, which may not be readable. -/
inductive Source (files : FileView) (env : Environment) (explicit : Option String) :
    Option (Option String) → Prop
  | missing (nowhere : ∀ path ∈ candidates explicit env, files path = none) :
      Source files env explicit none
  | found {path : String} (first : FirstExisting files (candidates explicit env) path) :
      Source files env explicit (some (files.text? path))

/-- The configuration that a source gives, without overrides. -/
inductive Base : Option (Option String) → Config → Prop
  | standard : Base none {}
  | read {text : String} {base : Config} (read : ofDocument? text = some base) :
      Base (some (some text)) base

section Sources

variable {files : FileView} {env : Environment} {explicit : Option String}

end Sources

/-! ## Rules -/

/-- The setting that a rule is about. -/
def Rule.setting : Rule → Setting
  | workers => .workers
  | rate => .ratePerSecond
  | threshold => .channelThreshold
  | removalConcurrency => .removalConcurrency

theorem Rule.holds_iff {rule : Rule} {s : Settings} :
    rule.holds s = true ↔ 1 ≤ s.value rule.setting := by
  cases rule with
  | threshold =>
      simp only [Rule.holds, Rule.setting, Settings.value, decide_eq_true_eq]
      omega
  | workers | rate | removalConcurrency =>
      simp only [Rule.holds, Rule.setting, Settings.value, decide_eq_true_eq, ne_eq,
        ← UInt64.toNat_inj, ← UInt32.toNat_inj, UInt64.toNat_zero, UInt32.toNat_zero]
      omega

theorem brokenRule?_eq_none_iff {c : Config} :
    c.brokenRule? = none ↔ ∀ rule : Rule, 1 ≤ c.broadcast.value rule.setting := by
  have complete (rule : Rule) : rule ∈ rules := by
    cases rule <;> decide
  simp only [brokenRule?, List.find?_eq_none, Bool.not_eq_true', Bool.not_eq_false,
    Rule.holds_iff, complete, true_implies]

section Loading

variable {files : FileView} {env : Environment} {explicit : Option String}
  {source : Option (Option String)}

theorem Base.unique {base base' : Config} (gives : Base source base) (gives' : Base source base') :
    base = base' := by
  cases gives with
  | standard =>
      cases gives'
      rfl
  | read read =>
      cases gives' with
      | read read' => exact Option.some.inj (read.symm.trans read')

end Loading

end Config

end Broadcast
