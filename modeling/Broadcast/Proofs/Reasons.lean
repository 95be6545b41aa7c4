import Broadcast.Delivery
import Broadcast.Proofs.Text.Numeral
import Broadcast.Proofs.Text.Search
import Broadcast.Proofs.Word

/-!
# Reasons given as free text

What a free text says does not depend on its case. It is a rate limit if seconds are written behind
the first occurrence of a marker, whatever stands behind later ones. Otherwise the first group of
phrases of which it holds one names the reason, and a text that holds none is kept as it is.
-/

namespace Broadcast

/-- A text begins with a whole run of digits that denotes a number. -/
def Text.StartsWith (rest : List Char) (n : Nat) : Prop :=
  ∃ digits tail, rest = digits ++ tail ∧ digits ≠ [] ∧ Digits digits ∧ StopsDigits tail ∧
    ofDigits digits = n

theorem Text.natural?_takeWhile_eq_some_iff {rest : List Char} {n : Nat} :
    natural? (rest.takeWhile Char.isDigit) = some n ↔ StartsWith rest n := by
  constructor
  · intro found
    unfold natural? at found
    split_ifs at found with run
    refine ⟨_, rest.dropWhile Char.isDigit, List.takeWhile_append_dropWhile.symm, run.1,
      List.all_eq_true.mp run.2, fun c head => ?_, Option.some.inj found⟩
    have stops := List.head?_dropWhile_not Char.isDigit rest
    rwa [Option.mem_def.mp head] at stops
  · rintro ⟨digits, tail, rfl, nonempty, run, stops, rfl⟩
    rw [takeWhile_digits run stops, natural?, if_pos ⟨nonempty, List.all_eq_true.mpr run⟩]

theorem Word.unsigned64?_natCast_eq_some_iff {n : Nat} {w : UInt64} :
    unsigned64? (n : Int) = some w ↔ n < 2 ^ 64 ∧ w.toNat = n := by
  rw [unsigned64?_eq_some_iff, Int.natCast_inj]
  exact ⟨fun same => ⟨same ▸ w.toNat_lt, same⟩, And.right⟩

namespace DeliveryError

/-- A text in lower case, as far as ASCII goes. -/
def lowered (text : String) : List Char :=
  text.toList.map Char.toLower

/-! ## Rate limits -/

/-- A text begins with a positive number of seconds that fits a word of 64 bits. -/
def Asks (rest : List Char) (n : Nat) : Prop :=
  0 < n ∧ n < 2 ^ 64 ∧ Text.StartsWith rest n

/-- Seconds are asked for behind some occurrence of a marker. -/
def Limits (s : List Char) (marker : String) (n : Nat) : Prop :=
  ∃ before rest, s = before ++ marker.toList ++ rest ∧ Asks rest n

/-- Seconds are asked for behind the first occurrence of a marker. -/
def LimitsFirst (s : List Char) (marker : String) (n : Nat) : Prop :=
  ∃ before rest, Text.FirstAt marker.toList s before rest ∧ Asks rest n

theorem LimitsFirst.limits {s : List Char} {marker : String} {n : Nat}
    (limits : LimitsFirst s marker n) : Limits s marker n := by
  obtain ⟨before, rest, found, asks⟩ := limits
  exact ⟨before, rest, found.occurs, asks⟩

/-- The positive seconds behind the first occurrence of a marker. -/
def asked? (s : List Char) (marker : String) : Option UInt64 :=
  (secondsAfter? s marker).filter (· ≠ 0)

theorem asked?_eq_some_iff {s : List Char} {marker : String} {seconds : UInt64} :
    asked? s marker = some seconds ↔ LimitsFirst s marker seconds.toNat := by
  have positive : seconds ≠ 0 ↔ 0 < seconds.toNat := by
    rw [Nat.pos_iff_ne_zero, ne_eq, ne_eq, ← UInt64.toNat_inj, UInt64.toNat_zero]
  simp only [asked?, secondsAfter?, Option.filter_eq_some_iff, Option.bind_eq_bind,
    Option.bind_eq_some_iff, Text.afterFirst?_eq_some_iff, Text.natural?_takeWhile_eq_some_iff,
    Word.unsigned64?_natCast_eq_some_iff, decide_eq_true_eq]
  constructor
  · rintro ⟨⟨rest, ⟨before, found⟩, n, starts, small, rfl⟩, nonzero⟩
    exact ⟨before, rest, found, positive.mp nonzero, small, starts⟩
  · rintro ⟨before, rest, found, more, small, starts⟩
    exact ⟨⟨rest, ⟨before, found⟩, _, starts, small, rfl⟩, positive.mpr more⟩

theorem asked?_eq_none_iff {s : List Char} {marker : String} :
    asked? s marker = none ↔ ∀ n, ¬LimitsFirst s marker n := by
  rw [Option.eq_none_iff_forall_ne_some]
  constructor
  · intro none n limits
    obtain ⟨before, rest, found, more, small, starts⟩ := limits
    refine none (UInt64.ofNat n) (asked?_eq_some_iff.mpr ?_)
    rw [UInt64.toNat_ofNat_of_lt' small]
    exact ⟨before, rest, found, more, small, starts⟩
  · exact fun none seconds asked => none _ (asked?_eq_some_iff.mp asked)

theorem rateLimitWait?_eq (s : List Char) :
    rateLimitWait? s = (rateLimitMarkers.findSome? (asked? s)).map
      fun seconds => Duration.ofSecs seconds.toNat := by
  have gathered : (rateLimitMarkers.filterMap (secondsAfter? s)).find? (· ≠ 0) =
      rateLimitMarkers.findSome? (asked? s) := by
    rw [← List.head?_filter, List.filter_filterMap, List.head?_filterMap]
    rfl
  rw [rateLimitWait?, gathered]

/-- A text is a rate limit if the first marker asks for seconds, or else the second one does. -/
theorem rateLimitWait?_eq_some_iff {s : List Char} {wait : Duration} :
    rateLimitWait? s = some wait ↔ ∃ n, wait = .ofSecs n ∧
      (LimitsFirst s "flood_wait_" n ∨
        (∀ k, ¬LimitsFirst s "flood_wait_" k) ∧ LimitsFirst s "retry after " n) := by
  have two : rateLimitMarkers.findSome? (asked? s) =
      (asked? s "flood_wait_").or (asked? s "retry after ") := by
    simp only [rateLimitMarkers, List.findSome?_cons, List.findSome?_nil]
    cases asked? s "flood_wait_" <;> cases asked? s "retry after " <;> rfl
  rw [rateLimitWait?_eq, two, Option.map_eq_some_iff]
  simp only [Option.or_eq_some_iff, asked?_eq_some_iff, asked?_eq_none_iff]
  constructor
  · rintro ⟨seconds, limits, rfl⟩
    exact ⟨seconds.toNat, rfl, limits⟩
  · rintro ⟨n, rfl, limits⟩
    have small : n < 2 ^ 64 := by
      rcases limits with ⟨_, _, -, -, small, -⟩ | ⟨-, _, _, -, -, small, -⟩ <;> exact small
    refine ⟨UInt64.ofNat n, ?_⟩
    rw [UInt64.toNat_ofNat_of_lt' small]
    exact ⟨limits, rfl⟩

theorem Limits.first {s : List Char} {marker : String} {n : Nat} (limits : Limits s marker n)
    (once : ∀ before rest before' rest', s = before ++ marker.toList ++ rest →
      s = before' ++ marker.toList ++ rest' → before.length = before'.length) :
    LimitsFirst s marker n := by
  obtain ⟨before, rest, occurs, asks⟩ := limits
  exact ⟨before, rest, ⟨occurs, fun _ _ again => (once _ _ _ _ occurs again).le⟩, asks⟩

/-! ## Phrases -/

/-- The phrases that name each reason, in order of precedence. -/
def reasons : List (DeliveryError × List String) :=
  [(peerBlocked, ["user_is_blocked"]),
   (peerDeactivated, ["user_is_deleted", "user_deactivated"]),
   (peerInvalid, ["peer_id_invalid", "no channel with id"]),
   (chatForbidden, ["chat_write_forbidden"]),
   (botKicked, ["bot_kicked"]),
   (chatNotFound, ["chat_not_found"])]

/-- A text holds one of some phrases. -/
def Tells (s : List Char) (names : List String) : Prop :=
  ∃ name ∈ names, name.toList <:+: s

theorem any_holds_iff {s : List Char} {names : List String} :
    (names.any fun name => Text.holds s name.toList) = true ↔ Tells s names := by
  simp [Tells, Text.holds_iff_isInfix]

instance (s : List Char) (names : List String) : Decidable (Tells s names) :=
  decidable_of_iff _ any_holds_iff

/-- Whoever is told of as deactivated by the longer phrase is so by the shorter one. -/
theorem tells_deactivated (s : List Char) :
    Tells s ["user_is_deleted", "user_deactivated", "input_user_deactivated"] ↔
      Tells s ["user_is_deleted", "user_deactivated"] := by
  have part : "user_deactivated".toList <:+: "input_user_deactivated".toList :=
    ⟨"input_".toList, [], rfl⟩
  simp only [Tells, List.mem_cons, List.not_mem_nil, or_false, exists_eq_or_imp, exists_eq_left]
  exact or_congr_right ⟨fun told => told.elim id part.trans, .inl⟩

private theorem map_find?_cons {α β : Type} (f : α → β) (p : α → Bool) (a : α) (l : List α) :
    ((a :: l).find? p).map f = if p a then some (f a) else (l.find? p).map f := by
  rw [List.find?_cons]
  split <;> simp [*]

/-- A text that is no rate limit gives the first reason whose phrases it holds, and none if it
holds none. -/
theorem ofText_of_unlimited {text : String} (unlimited : rateLimitWait? (lowered text) = none) :
    ofText text = ((reasons.find? fun entry => Tells (lowered text) entry.2).map Prod.fst).getD
      (.other text) := by
  have same : (phrases.find? fun entry =>
        entry.2.any fun p => Text.holds (lowered text) p.toList).map Prod.fst =
      (reasons.find? fun entry => Tells (lowered text) entry.2).map Prod.fst := by
    simp only [phrases, reasons, map_find?_cons, List.find?_nil, any_holds_iff, decide_eq_true_iff,
      tells_deactivated]
  rw [← same]
  unfold ofText
  dsimp only
  rw [← lowered, unlimited]
  dsimp only
  split
  next error names found => rw [found]; rfl
  next none => rw [none]; rfl

theorem ofText_of_first {text : String} (unlimited : rateLimitWait? (lowered text) = none)
    {earlier later : List (DeliveryError × List String)} {error : DeliveryError}
    {names : List String} (split : reasons = earlier ++ (error, names) :: later)
    (tells : Tells (lowered text) names)
    (silent : ∀ entry ∈ earlier, ¬Tells (lowered text) entry.2) : ofText text = error := by
  have found : (reasons.find? fun entry => Tells (lowered text) entry.2) = some (error, names) :=
    List.find?_eq_some_iff_append.mpr
      ⟨decide_eq_true tells, earlier, later, split, by simpa using silent⟩
  rw [ofText_of_unlimited unlimited, found]
  rfl

theorem ofText_of_silent {text : String} (unlimited : rateLimitWait? (lowered text) = none)
    (silent : ∀ entry ∈ reasons, ¬Tells (lowered text) entry.2) : ofText text = .other text := by
  have none : (reasons.find? fun entry => Tells (lowered text) entry.2) = none :=
    List.find?_eq_none.mpr (by simpa using silent)
  rw [ofText_of_unlimited unlimited, none]
  rfl

/-- Either a text holds phrases of no reason, or there is a first reason of which it does. -/
theorem exists_first_or_silent (s : List Char) :
    (∃ earlier error names later, reasons = earlier ++ (error, names) :: later ∧
      Tells s names ∧ ∀ entry ∈ earlier, ¬Tells s entry.2) ∨
    ∀ entry ∈ reasons, ¬Tells s entry.2 := by
  cases found : reasons.find? fun entry => Tells s entry.2 with
  | none =>
      right
      simpa using List.find?_eq_none.mp found
  | some entry =>
      left
      obtain ⟨tells, earlier, later, split, silent⟩ := List.find?_eq_some_iff_append.mp found
      exact ⟨earlier, entry.1, entry.2, later, split, of_decide_eq_true tells,
        by simpa using silent⟩

theorem isGone_of_reasons : ∀ entry ∈ reasons, entry.1.isGone = true := by
  decide

/-- A text that is no rate limit says that its recipient is gone exactly if it holds a phrase. -/
theorem isGone_ofText_iff {text : String} (unlimited : rateLimitWait? (lowered text) = none) :
    (ofText text).isGone = true ↔ ∃ entry ∈ reasons, Tells (lowered text) entry.2 := by
  rcases exists_first_or_silent (lowered text) with
    ⟨earlier, error, names, later, split, tells, silent⟩ | silent
  · have member : (error, names) ∈ reasons := by simp [split]
    rw [ofText_of_first unlimited split tells silent]
    exact iff_of_true (isGone_of_reasons _ member) ⟨_, member, tells⟩
  · rw [ofText_of_silent unlimited silent]
    exact iff_of_false Bool.false_ne_true fun ⟨entry, member, tells⟩ => silent entry member tells

/-- A text is a rate limit exactly if it has the wait of one. -/
theorem ofText_eq_rateLimited_iff {text : String} {wait : Duration} :
    ofText text = .rateLimited wait ↔ rateLimitWait? (lowered text) = some wait := by
  cases limited : rateLimitWait? (lowered text) with
  | some wait' =>
      have given : ofText text = .rateLimited wait' := by
        unfold ofText
        dsimp only
        rw [← lowered, limited]
      rw [given, rateLimited.injEq, Option.some.injEq]
  | none =>
      refine iff_of_false (fun given => ?_) (Option.some_ne_none wait).symm
      rcases exists_first_or_silent (lowered text) with
        ⟨earlier, error, names, later, split, tells, silent⟩ | silent
      · have gone := isGone_of_reasons (error, names) (by simp [split])
        rw [ofText_of_first limited split tells silent] at given
        rw [given] at gone
        cases gone
      · cases (ofText_of_silent limited silent).symm.trans given

/-! ## What a text says -/

/-- A text is a rate limit exactly if seconds are asked for behind the first occurrence of the first
marker, or, failing that, of the second one. So each rate limit is asked for somewhere in the text;
and where no marker occurs twice, whatever is asked for is found. -/
theorem rate_limits_are_read (text : String) :
    (∀ wait, ofText text = .rateLimited wait ↔ ∃ n, wait = .ofSecs n ∧
      (LimitsFirst (lowered text) "flood_wait_" n ∨
        (∀ k, ¬LimitsFirst (lowered text) "flood_wait_" k) ∧
          LimitsFirst (lowered text) "retry after " n)) ∧
    (∀ wait, ofText text = .rateLimited wait → ∃ marker ∈ ["flood_wait_", "retry after "], ∃ n,
      Limits (lowered text) marker n ∧ wait = .ofSecs n) ∧
    ((∀ marker ∈ ["flood_wait_", "retry after "], ∀ before rest before' rest',
        lowered text = before ++ marker.toList ++ rest →
        lowered text = before' ++ marker.toList ++ rest' → before.length = before'.length) →
      ((∃ wait, ofText text = .rateLimited wait) ↔
        ∃ marker ∈ ["flood_wait_", "retry after "], ∃ n, Limits (lowered text) marker n)) := by
  have exactly (wait : Duration) : ofText text = .rateLimited wait ↔ _ :=
    ofText_eq_rateLimited_iff.trans rateLimitWait?_eq_some_iff
  have asked (wait : Duration) (limited : ofText text = .rateLimited wait) :
      ∃ marker ∈ ["flood_wait_", "retry after "], ∃ n,
        Limits (lowered text) marker n ∧ wait = .ofSecs n := by
    obtain ⟨n, rfl, limits | ⟨-, limits⟩⟩ := (exactly wait).mp limited
    · exact ⟨_, by simp, n, limits.limits, rfl⟩
    · exact ⟨_, by simp, n, limits.limits, rfl⟩
  refine ⟨exactly, asked, fun once => ⟨?_, ?_⟩⟩
  · rintro ⟨wait, limited⟩
    obtain ⟨marker, member, n, limits, -⟩ := asked wait limited
    exact ⟨marker, member, n, limits⟩
  · rintro ⟨marker, member, n, limits⟩
    have first := limits.first (once marker member)
    by_cases flood : ∃ k, LimitsFirst (lowered text) "flood_wait_" k
    · obtain ⟨k, flood⟩ := flood
      exact ⟨_, (exactly _).mpr ⟨k, rfl, .inl flood⟩⟩
    · have none := not_exists.mp flood
      have retry : marker = "retry after " := by
        rcases List.mem_pair.mp member with rfl | rfl
        · exact absurd first (none n)
        · rfl
      exact ⟨_, (exactly _).mpr ⟨n, rfl, .inr ⟨none, retry ▸ first⟩⟩⟩

/-- Nothing is asked for behind the first marker, and three seconds behind the second one. -/
theorem rate_limits_are_read_behind_second_marker :
    LimitsFirst (lowered "FLOOD_WAIT_0, retry after 3") "retry after " 3 ∧
    ofText "FLOOD_WAIT_0, retry after 3" = .rateLimited (.ofSecs 3) := by
  have first : LimitsFirst (lowered "FLOOD_WAIT_0, retry after 3") "retry after " 3 :=
    (asked?_eq_some_iff : asked? _ _ = some 3 ↔ _).mp rfl
  have none : ∀ k, ¬LimitsFirst (lowered "FLOOD_WAIT_0, retry after 3") "flood_wait_" k :=
    asked?_eq_none_iff.mp rfl
  exact ⟨first, ((rate_limits_are_read _).1 _).mpr ⟨3, rfl, .inr ⟨none, first⟩⟩⟩

/-- Three seconds are asked for behind the second occurrence of a marker, and in the other text five
behind that of the other marker; neither is a rate limit. -/
theorem later_rate_limits_are_missed :
    (Limits (lowered "Retry after a pause: retry after 3") "retry after " 3 ∧
      ∀ wait, ofText "Retry after a pause: retry after 3" ≠ .rateLimited wait) ∧
    Limits (lowered "FLOOD_WAIT_0, FLOOD_WAIT_5") "flood_wait_" 5 ∧
      ∀ wait, ofText "FLOOD_WAIT_0, FLOOD_WAIT_5" ≠ .rateLimited wait := by
  have digit (c : Char) (digit : c.isDigit = true) :
      Text.StartsWith [c] (Text.ofDigits [c]) :=
    ⟨[c], [], rfl, by simp, by simpa [Text.Digits] using digit, by simp [Text.StopsDigits], rfl⟩
  have kept : ofText "Retry after a pause: retry after 3" =
      .other "Retry after a pause: retry after 3" := rfl
  have kept' : ofText "FLOOD_WAIT_0, FLOOD_WAIT_5" = .other "FLOOD_WAIT_0, FLOOD_WAIT_5" := rfl
  refine ⟨⟨⟨"retry after a pause: ".toList, ['3'], rfl, by decide, by decide, digit '3' rfl⟩, ?_⟩,
    ⟨"flood_wait_0, ".toList, ['5'], rfl, by decide, by decide, digit '5' rfl⟩, ?_⟩
  · simp [kept]
  · simp [kept']

/-- A text that is no rate limit says that its recipient is gone exactly if it holds a phrase of a
reason; it gives the first of these reasons, and is kept as it is if there is none. Its case matters
only where it is kept. A rate limit asks for some time and never says that a recipient is gone. -/
theorem reasons_are_recognised :
    (∀ text, (∀ wait, ofText text ≠ .rateLimited wait) →
      ((ofText text).isGone = true ↔ ∃ entry ∈ reasons, Tells (lowered text) entry.2) ∧
      (∀ earlier error names later, reasons = earlier ++ (error, names) :: later →
        Tells (lowered text) names → (∀ entry ∈ earlier, ¬Tells (lowered text) entry.2) →
        ofText text = error) ∧
      ((∀ entry ∈ reasons, ¬Tells (lowered text) entry.2) → ofText text = .other text)) ∧
    (∀ text text', lowered text = lowered text' → ofText text = ofText text' ∨
      ofText text = .other text ∧ ofText text' = .other text') ∧
    ∀ text wait, ofText text = .rateLimited wait →
      (ofText text).isGone = false ∧ 0 < wait.nanos := by
  have unlimited {text : String} (other : ∀ wait, ofText text ≠ .rateLimited wait) :
      rateLimitWait? (lowered text) = none :=
    Option.eq_none_iff_forall_ne_some.mpr fun wait limited =>
      other wait (ofText_eq_rateLimited_iff.mpr limited)
  refine ⟨fun text other => ⟨isGone_ofText_iff (unlimited other), ?_, ?_⟩, ?_, ?_⟩
  · exact fun _ _ _ _ split => ofText_of_first (unlimited other) split
  · exact ofText_of_silent (unlimited other)
  · intro text text' same
    cases limited : rateLimitWait? (lowered text) with
    | some wait =>
        left
        rw [ofText_eq_rateLimited_iff.mpr limited, ofText_eq_rateLimited_iff.mpr (same ▸ limited)]
    | none =>
        rcases exists_first_or_silent (lowered text) with
          ⟨earlier, error, names, later, split, tells, silent⟩ | silent
        · left
          rw [ofText_of_first limited split tells silent,
            ofText_of_first (same ▸ limited) split (same ▸ tells) (same ▸ silent)]
        · right
          exact ⟨ofText_of_silent limited silent,
            ofText_of_silent (same ▸ limited) (same ▸ silent)⟩
  · intro text wait limited
    refine ⟨by rw [limited]; rfl, ?_⟩
    obtain ⟨n, rfl, limits | ⟨-, limits⟩⟩ :=
      rateLimitWait?_eq_some_iff.mp (ofText_eq_rateLimited_iff.mp limited)
    all_goals
      obtain ⟨-, -, -, positive, -⟩ := limits
      exact Nat.mul_pos positive (by decide)

/-- Of two reasons whose phrases a text holds it gives the first one, in any case. -/
theorem reasons_are_recognised_in_order :
    Tells (lowered "CHAT_NOT_FOUND: INPUT_USER_DEACTIVATED")
      ["user_is_deleted", "user_deactivated"] ∧
    Tells (lowered "CHAT_NOT_FOUND: INPUT_USER_DEACTIVATED") ["chat_not_found"] ∧
    ofText "CHAT_NOT_FOUND: INPUT_USER_DEACTIVATED" = .peerDeactivated ∧
    ofText "Chat_not_found: input_user_deactivated" = .peerDeactivated := by
  have tells : Tells (lowered "CHAT_NOT_FOUND: INPUT_USER_DEACTIVATED")
      ["user_is_deleted", "user_deactivated"] := by decide
  have silent : ¬Tells (lowered "CHAT_NOT_FOUND: INPUT_USER_DEACTIVATED") ["user_is_blocked"] := by
    decide
  have other : ∀ wait, ofText "CHAT_NOT_FOUND: INPUT_USER_DEACTIVATED" ≠ .rateLimited wait := by
    have unlimited : rateLimitWait? (lowered "CHAT_NOT_FOUND: INPUT_USER_DEACTIVATED") = none := rfl
    intro wait
    rw [ne_eq, ofText_eq_rateLimited_iff, unlimited]
    exact (Option.some_ne_none wait).symm
  have alone : ∀ entry ∈ [(peerBlocked, ["user_is_blocked"])],
      ¬Tells (lowered "CHAT_NOT_FOUND: INPUT_USER_DEACTIVATED") entry.2 :=
    List.forall_mem_singleton.mpr silent
  have first : ofText "CHAT_NOT_FOUND: INPUT_USER_DEACTIVATED" = .peerDeactivated :=
    (reasons_are_recognised.1 _ other).2.1 _ _ _ _ rfl tells alone
  have same : lowered "CHAT_NOT_FOUND: INPUT_USER_DEACTIVATED" =
      lowered "Chat_not_found: input_user_deactivated" := by decide
  refine ⟨tells, by decide, first, ?_⟩
  rcases reasons_are_recognised.2.1 _ _ same with same | ⟨kept, -⟩
  · rw [← same, first]
  · cases first.symm.trans kept

end DeliveryError

end Broadcast
