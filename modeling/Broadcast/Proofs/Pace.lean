import Broadcast.Pacing
import Broadcast.Request
import Broadcast.Settings

/-!
# The pace of a broadcast

A pause that is read with a request paces a broadcast. So does the pause that the settings give,
unless they ask for more deliveries a second than it has nanoseconds.
-/

namespace Broadcast

/-- A stream of permits can have the length of time as its interval. -/
def Duration.Paces (length : Duration) : Prop :=
  0 < length.nanos ∧ length.nanos < 2 ^ 64

theorem Pacer.ofInterval_of_paces {interval : Duration} (paces : interval.Paces) :
    ∃ pacer, Pacer.ofInterval interval = .ok pacer :=
  ⟨⟨interval, paces.1, paces.2⟩, by rw [Pacer.ofInterval, dif_pos paces.1, dif_pos paces.2]⟩

/-! ## Pauses of requests -/

/-- A length of time that can be read fits into a word of 64 bits. -/
theorem Duration.lt_of_parse? {text : String} {length : Duration}
    (read : Duration.parse? text = some length) : length.nanos < 2 ^ 64 := by
  unfold Duration.parse? at read
  split at read
  next => cases read
  next =>
    cases read
    exact Nat.two_pow_pos 64
  next =>
    obtain ⟨sum, -, total⟩ := Option.bind_eq_some_iff.mp read
    unfold Duration.ofSum? at total
    split at total
    next =>
      split at total
      next =>
        cases total
        exact Nat.lt_of_le_of_lt (Nat.min_le_right _ _) (by decide)
      next => cases total
    next => cases total

namespace Request

/-- The request has no pause of its own, or one that paces. -/
def Paced (request : Request) : Prop :=
  ∀ delay, request.delay = some delay → delay.Paces

private theorem paces_of_delay? {word : List Char} {delay : Duration}
    (read : delay? word = some delay) : delay.Paces := by
  obtain ⟨length, nonempty⟩ := Option.filter_eq_some_iff.mp read
  exact ⟨Nat.pos_of_ne_zero (by simpa using nonempty), Duration.lt_of_parse? length⟩

private theorem paced_of_readWords {request result : Request} {words : List (List Char)}
    (read : request.readWords words = .ok result) (paced : request.Paced) : result.Paced := by
  fun_induction readWords request words with
  | case1 =>
      cases read
      exact paced
  | case2 | case3 | case4 | case5 | case6 | case7 | case8 | case10 | case15 =>
      rename_i ih
      exact ih read paced
  | case9 | case11 | case12 | case14 => cases read
  | case13 _ _ _ _ _ delay same ih =>
      refine ih read fun _ there => ?_
      cases there
      exact paces_of_delay? same

theorem paced_of_ofArgs {source : SourceMessage} {args : String} {request : Request}
    (read : ofArgs source args = .ok request) : request.Paced :=
  paced_of_readWords read fun _ there => by cases there

end Request

/-! ## Pauses of settings -/

/-- The pause that settings give paces if they ask for one delivery a nanosecond at most. -/
theorem Settings.defaultPause_paces_iff (settings : Settings) :
    settings.defaultPause.Paces ↔ settings.ratePerSecond.toNat ≤ 1000000000 := by
  have positive : 0 < max settings.ratePerSecond.toNat 1 := by omega
  constructor
  · intro paces
    have := (Nat.div_pos_iff.mp paces.1).2
    omega
  · intro slow
    refine ⟨Nat.div_pos (by omega) positive, ?_⟩
    exact Nat.lt_of_le_of_lt (Nat.div_le_self _ _) (by decide)

theorem Request.Paced.getD {request : Request} (paced : request.Paced) {settings : Settings}
    (slow : request.delay = none → settings.ratePerSecond.toNat ≤ 1000000000) :
    (request.delay.getD settings.defaultPause).Paces := by
  cases delay : request.delay with
  | none => exact settings.defaultPause_paces_iff.mpr (slow delay)
  | some length => exact paced length delay

end Broadcast
