import Broadcast.Config.Loading
import Broadcast.Proofs.Settings
import Broadcast.Proofs.Text.Numeral

/-!
# Overrides of the environment

Each setting has a variable of its own, which overrides it if its text, without the blanks around
it, is a numeral of a number that the setting can be. Any other text is passed over. The seed file
is overridden by any text, and by an empty one there is none.
-/

namespace Broadcast

namespace Setting

/-- A text is a numeral of a number, as it is written for a setting: with at most one sign in
front, which is no minus sign unless the setting is a signed word. -/
def Numeral : Setting → List Char → Int → Prop
  | channelThreshold, s, z => Text.SignedNumeral s z
  | _, s, z => ∃ n : Nat, Text.UnsignedNumeral s n ∧ z = n

/-- The variable of a setting overrides it by a number. -/
def Overrides (k : Setting) (env : Environment) (z : Int) : Prop :=
  ∃ text, env k.overrideName = some text ∧ k.Numeral (Text.trim text.toList) z ∧ k.Fits z

theorem overrideName_mem (k : Setting) : k.overrideName ∈ Config.overrideNames := by
  cases k <;> decide

theorem overrides_congr {k : Setting} {env env' : Environment}
    (same : env k.overrideName = env' k.overrideName) (z : Int) :
    k.Overrides env z ↔ k.Overrides env' z := by
  rw [Overrides, Overrides, same]

end Setting

namespace Config

/-- The variable that overrides the seed file. -/
def seedOverrideName : String := "BROADCAST_SEED_FILE"

theorem mem_overrideNames_iff {name : String} :
    name ∈ overrideNames ↔ (∃ k : Setting, k.overrideName = name) ∨ name = seedOverrideName := by
  constructor
  · intro member
    simp only [overrideNames, List.mem_cons, List.not_mem_nil, or_false] at member
    rcases member with rfl | rfl | rfl | rfl | rfl | rfl | rfl | rfl
    · exact .inl ⟨.workers, rfl⟩
    · exact .inl ⟨.maxRetries, rfl⟩
    · exact .inl ⟨.ratePerSecond, rfl⟩
    · exact .inl ⟨.channelThreshold, rfl⟩
    · exact .inl ⟨.progressMillis, rfl⟩
    · exact .inl ⟨.removalConcurrency, rfl⟩
    · exact .inl ⟨.drainMillis, rfl⟩
    · exact .inr rfl
  · rintro (⟨k, rfl⟩ | rfl)
    · exact k.overrideName_mem
    · decide

/-! ## One setting -/

section Words

variable {α : Type} {word? : Int → Option α} {number : α → Int} {fits : Int → Prop}

end Words

/-! ## All settings -/

/-- A configuration is another one after the overrides of an environment. -/
structure AfterOverrides (env : Environment) (base c : Config) : Prop where
  overridden : ∀ (k : Setting) (z : Int), k.Overrides env z → c.broadcast.value k = z
  kept : ∀ k : Setting, (∀ z, ¬k.Overrides env z) → c.broadcast.value k = base.broadcast.value k
  fileReplaced : ∀ file, env seedOverrideName = some file → file ≠ "" → c.seedFile = some file
  fileRemoved : env seedOverrideName = some "" → c.seedFile = none
  fileKept : env seedOverrideName = none → c.seedFile = base.seedFile

namespace AfterOverrides

variable {env env' : Environment} {base c c' : Config}

/-- What a setting is after the overrides does not depend on the variables of the others. -/
theorem value_eq {k : Setting} (after : AfterOverrides env base c)
    (after' : AfterOverrides env' base c') (same : env k.overrideName = env' k.overrideName) :
    c.broadcast.value k = c'.broadcast.value k := by
  by_cases silent : ∀ z, ¬k.Overrides env z
  · have silent' (z : Int) : ¬k.Overrides env' z :=
      mt (Setting.overrides_congr same z).mpr (silent z)
    rw [after.kept k silent, after'.kept k silent']
  · push Not at silent
    obtain ⟨z, overrides⟩ := silent
    rw [after.overridden k z overrides,
      after'.overridden k z ((Setting.overrides_congr same z).mp overrides)]

theorem seedFile_eq (after : AfterOverrides env base c) (after' : AfterOverrides env' base c')
    (same : env seedOverrideName = env' seedOverrideName) : c.seedFile = c'.seedFile := by
  cases set : env seedOverrideName with
  | none => rw [after.fileKept set, after'.fileKept (same.symm.trans set)]
  | some file =>
      by_cases empty : file = ""
      · subst empty
        rw [after.fileRemoved set, after'.fileRemoved (same.symm.trans set)]
      · rw [after.fileReplaced file set empty, after'.fileReplaced file (same.symm.trans set) empty]

/-- Overrides lead to one configuration only, which the variables that they are read from decide. -/
theorem unique (after : AfterOverrides env base c) (after' : AfterOverrides env' base c')
    (same : ∀ name ∈ overrideNames, env name = env' name) : c = c' := by
  have settings : c.broadcast = c'.broadcast :=
    Settings.ext_value fun k => after.value_eq after' (same _ k.overrideName_mem)
  have file := after.seedFile_eq after' (same _ (mem_overrideNames_iff.mpr (.inr rfl)))
  cases c
  cases c'
  congr

end AfterOverrides

end Config

end Broadcast
