import Broadcast.Notice
import Broadcast.Proofs.Text.Numeral

/-!
# Telling notices apart

The text that shows how far a run has come begins with its announcement and goes on with its
counters, each of which ends where a line does; so it tells them all. The report begins in another
way than the announcement, and so does the notice about wrong usage, which says what is wrong and
ends in another way than all other notices.
-/

namespace Broadcast

namespace Text

/-- A number can be read off the front of a text that does not go on with a digit. -/
theorem toDigits_append_inj {m n : Nat} {s t : List Char} (stops : StopsDigits s)
    (stops' : StopsDigits t) (same : Nat.toDigits 10 m ++ s = Nat.toDigits 10 n ++ t) :
    m = n ∧ s = t := by
  have digits := congrArg (List.takeWhile Char.isDigit) same
  have rest := congrArg (List.dropWhile Char.isDigit) same
  rw [takeWhile_digits (digits_toDigits m) stops, takeWhile_digits (digits_toDigits n) stops']
    at digits
  rw [dropWhile_digits (digits_toDigits m) stops, dropWhile_digits (digits_toDigits n) stops']
    at rest
  refine ⟨?_, rest⟩
  rw [← ofDigits_toDigits m, digits, ofDigits_toDigits]

theorem toDigits_line_inj {m n : Nat} {s t : List Char}
    (same : Nat.toDigits 10 m ++ '\n' :: s = Nat.toDigits 10 n ++ '\n' :: t) : m = n ∧ s = t := by
  have stops (s : List Char) : StopsDigits ('\n' :: s) := by simp [StopsDigits]
  obtain ⟨number, rest⟩ := toDigits_append_inj (stops s) (stops t) same
  exact ⟨number, (List.cons.inj rest).2⟩

end Text

namespace UsageError

private theorem take_around (front value back : String) (long : 9 ≤ front.toList.length) :
    (front ++ value ++ back).toList.take 9 = front.toList.take 9 := by
  rw [String.toList_append, String.toList_append, List.append_assoc]
  exact List.take_append_of_le_length long

private theorem around_inj {front back v w : String}
    (same : front ++ v ++ back = front ++ w ++ back) : v = w := by
  have chars := congrArg String.toList same
  simp only [String.toList_append, List.append_assoc] at chars
  exact String.toList_inj.mp (List.append_cancel_right (List.append_cancel_left chars))

private theorem take_message (e : UsageError) : e.message.toList.take 9 =
    match e with
    | missingSource => "Reply to ".toList
    | missingLimit => "Flag 'lim".toList
    | missingDelay => "Flag 'del".toList
    | invalidLimit _ => "Invalid l".toList
    | invalidDelay _ => "Invalid d".toList := by
  cases e with
  | missingSource | missingLimit | missingDelay => rfl
  | invalidLimit => exact take_around "Invalid limit '" _ _ (by decide)
  | invalidDelay => exact take_around "Invalid delay '" _ _ (by decide)

theorem message_injective : Function.Injective message := by
  intro e e' same
  have start := congrArg (fun text => text.toList.take 9) same
  rw [take_message, take_message] at start
  cases e <;> cases e'
  case invalidLimit.invalidLimit | invalidDelay.invalidDelay =>
    exact congrArg _ (around_inj same)
  all_goals
    dsimp only at start
    first | rfl | exact absurd start (by decide)

end UsageError

namespace Notice

theorem toList_underWay (announcement : String) (p : Progress) :
    (underWay announcement p).toList = announcement.toList ++ ("\n\n⏳ Progress: ".toList ++
      (Nat.toDigits 10 p.processed ++ '/' :: (Nat.toDigits 10 p.total.toNat ++ '\n' ::
      ("✅ Success: ".toList ++ (Nat.toDigits 10 p.success.toNat ++ '\n' ::
      ("❌ Failed: ".toList ++ (Nat.toDigits 10 p.failed.toNat ++ '\n' ::
      ("🗑 Removed: ".toList ++ Nat.toDigits 10 p.removed.toNat)))))))) := by
  have nat (n : Nat) : (toString n).toList = Nat.toDigits 10 n := by
    rw [Nat.toString_eq_ofList_toDigits, String.toList_ofList]
  have word (w : UInt64) : (toString w).toList = Nat.toDigits 10 w.toNat := nat w.toNat
  unfold underWay
  simp only [String.toList_append, List.append_assoc, nat, word]
  rfl

/-- The text that shows how far a run has come tells all its counters. -/
theorem underWay_injective (announcement : String) :
    Function.Injective (underWay announcement) := by
  intro p q same
  have lines := congrArg String.toList same
  rw [toList_underWay, toList_underWay] at lines
  have slash (s : List Char) : Text.StopsDigits ('/' :: s) := by simp [Text.StopsDigits]
  obtain ⟨-, behind⟩ := Text.toDigits_append_inj (slash _) (slash _)
    (List.append_cancel_left (List.append_cancel_left lines))
  obtain ⟨total, rest⟩ := Text.toDigits_line_inj (List.cons.inj behind).2
  obtain ⟨success, rest⟩ := Text.toDigits_line_inj (List.append_cancel_left rest)
  obtain ⟨failed, rest⟩ := Text.toDigits_line_inj (List.append_cancel_left rest)
  have removed : p.removed.toNat = q.removed.toNat := by
    have digits := List.append_cancel_left rest
    rw [← Text.ofDigits_toDigits p.removed.toNat, digits, Text.ofDigits_toDigits]
  cases p
  cases q
  congr 1 <;> exact UInt64.toNat_inj.mp ‹_›

theorem underWay_ne (announcement : String) (p : Progress) :
    underWay announcement p ≠ announcement := by
  intro same
  have longer := congrArg (fun text => text.toList.length) same
  simp [toList_underWay] at longer

private theorem head_complete (report : Report) : (complete report).toList.head? = some '📢' := by
  have front : (toString "📢 Broadcast Complete\n\n").toList.head? = some '📢' := rfl
  unfold complete
  simp only [String.toList_append, List.head?_append, front, Option.some_or]

private theorem head_started (counts : KindCounts) (total : Nat) (mode : DeliveryMode)
    (delay : Duration) : (started counts total mode delay).toList.head? = some '🚀' := by
  have front : (toString "🚀 Broadcast Started\n\n").toList.head? = some '🚀' := rfl
  unfold started
  simp only [String.toList_append, List.head?_append, front, Option.some_or]

private theorem head_underWay (counts : KindCounts) (total : Nat) (mode : DeliveryMode)
    (delay : Duration) (p : Progress) :
    (underWay (started counts total mode delay) p).toList.head? = some '🚀' := by
  rw [toList_underWay, List.head?_append, head_started, Option.some_or]

theorem complete_ne (counts : KindCounts) (total : Nat) (mode : DeliveryMode) (delay : Duration)
    (report : Report) :
    complete report ≠ started counts total mode delay ∧
      ∀ p, complete report ≠ underWay (started counts total mode delay) p := by
  have reports := head_complete report
  refine ⟨fun same => ?_, fun p same => ?_⟩
  · rw [same, head_started] at reports
    cases reports
  · rw [same, head_underWay] at reports
    cases reports

/-! ## Wrong usage -/

private theorem usage_start :
    "❗ Reply to a message to broadcast.\n\n".toList <+: usage.toList := by
  have assoc (a b c d e f g h i : String) : ∃ rest,
      (a ++ b ++ c ++ d ++ e ++ f ++ g ++ h ++ i).toList = a.toList ++ rest := by
    simp only [String.toList_append, List.append_assoc]
    exact ⟨_, rfl⟩
  obtain ⟨rest, whole⟩ := assoc ..
  exact ⟨rest, whole.symm⟩

private theorem toList_wrongUsage {error : UsageError} (source : error ≠ .missingSource) :
    (wrongUsage error).toList =
      "❗ ".toList ++ (error.message.toList ++ ("\n\n".toList ++ usage.toList)) := by
  have shown : wrongUsage error = s!"❗ {error.message}\n\n{usage}" := by
    cases error with
    | missingSource => exact absurd rfl source
    | missingLimit | missingDelay | invalidLimit | invalidDelay => rfl
  rw [shown]
  simp only [String.toList_append, List.append_assoc]
  rfl

private theorem usage_suffix (error : UsageError) :
    usage.toList <:+ (wrongUsage error).toList := by
  by_cases source : error = .missingSource
  · rw [source]
    exact List.suffix_refl _
  · rw [toList_wrongUsage source, ← List.append_assoc, ← List.append_assoc]
    exact List.suffix_append _ _

theorem message_infix (error : UsageError) :
    error.message.toList <:+: (wrongUsage error).toList := by
  by_cases source : error = .missingSource
  · subst source
    have first : UsageError.missingSource.message.toList <:+:
        "❗ Reply to a message to broadcast.\n\n".toList := by decide +kernel
    exact first.trans usage_start.isInfix
  · rw [toList_wrongUsage source]
    exact ⟨_, _, List.append_assoc ..⟩

/-- Each error has a notice of its own. -/
theorem wrongUsage_injective : Function.Injective wrongUsage := by
  have longer {error : UsageError} (source : error ≠ .missingSource) :
      wrongUsage error ≠ wrongUsage .missingSource := by
    intro same
    have size := congrArg (fun text => text.toList.length) same
    rw [toList_wrongUsage source] at size
    simp only [wrongUsage, List.length_append] at size
    have : "❗ ".toList.length = 2 := rfl
    omega
  intro e e' same
  by_cases source : e = .missingSource
  · by_cases source' : e' = .missingSource
    · rw [source, source']
    · rw [source] at same
      exact absurd same.symm (longer source')
  · by_cases source' : e' = .missingSource
    · rw [source'] at same
      exact absurd same (longer source)
    · have chars := congrArg String.toList same
      rw [toList_wrongUsage source, toList_wrongUsage source'] at chars
      have message := List.append_cancel_right (List.append_cancel_left chars)
      exact UsageError.message_injective (String.toList_inj.mp message)

private theorem head_wrongUsage (error : UsageError) :
    (wrongUsage error).toList.head? = some '❗' := by
  by_cases source : error = .missingSource
  · obtain ⟨rest, whole⟩ := usage_start
    have front : ("❗ Reply to a message to broadcast.\n\n" : String).toList.head? = some '❗' := rfl
    rw [source, wrongUsage, ← whole, List.head?_append, front, Option.some_or]
  · rw [toList_wrongUsage source]
    rfl

private theorem getLast_append (front : String) {back : String} {c : Char}
    (last : back.toList.getLast? = some c) : (front ++ back).toList.getLast? = some c := by
  rw [String.toList_append, List.getLast?_append, last, Option.some_or]

private theorem getLast_wrongUsage (error : UsageError) :
    (wrongUsage error).toList.getLast? = some '0' := by
  obtain ⟨front, whole⟩ := usage_suffix error
  have last : usage.toList.getLast? = some '0' := getLast_append _ rfl
  rw [← whole, List.getLast?_append, last, Option.some_or]

private theorem getLast_exact (d : Duration) : d.exact.toList.getLast? = some 's' := by
  unfold Duration.exact
  split_ifs <;> exact getLast_append _ rfl

/-- The notice about wrong usage is no other notice. -/
theorem wrongUsage_ne (error : UsageError) :
    (∀ counts total mode delay, wrongUsage error ≠ started counts total mode delay ∧
      ∀ p, wrongUsage error ≠ underWay (started counts total mode delay) p) ∧
    (∀ report, wrongUsage error ≠ complete report) ∧
    (∀ interval, wrongUsage error ≠ invalidPacing interval) ∧
    wrongUsage error ≠ alreadyRunning ∧ wrongUsage error ≠ noTargets ∧
    wrongUsage error ≠ cancelled ∧ wrongUsage error ≠ nothingToCancel := by
  have begins {text : String} {c : Char} (first : text.toList.head? = some c) (other : c ≠ '❗') :
      wrongUsage error ≠ text := by
    rintro same
    rw [← same, head_wrongUsage] at first
    exact other (Option.some.inj first).symm
  have ends {text : String} {c : Char} (last : text.toList.getLast? = some c) (other : c ≠ '0') :
      wrongUsage error ≠ text := by
    rintro same
    rw [← same, getLast_wrongUsage] at last
    exact other (Option.some.inj last).symm
  refine ⟨fun counts total mode delay => ⟨?_, fun p => ?_⟩, fun report => ?_, fun interval => ?_,
    ?_, ?_, ?_, ?_⟩
  · exact begins (head_started counts total mode delay) (by decide)
  · exact begins (head_underWay counts total mode delay p) (by decide)
  · exact begins (head_complete report) (by decide)
  · exact ends (getLast_append _ (getLast_exact interval)) (by decide)
  · exact ends (c := 't') (getLast_append _ rfl) (by decide)
  · exact ends (c := '.') (by decide +kernel) (by decide)
  · exact ends (c := '.') (by decide +kernel) (by decide)
  · exact ends (c := '.') (by decide +kernel) (by decide)

end Notice

end Broadcast
