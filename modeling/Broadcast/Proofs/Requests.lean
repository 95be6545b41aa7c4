import Broadcast.Proofs.Text.Numeral
import Broadcast.Proofs.Word
import Broadcast.Request
import Mathlib.Data.List.Basic

/-!
# Requests in words

The words of a request fall into clauses in one way: an option stands with the word behind it,
whatever that is, and every other word stands alone. The first clause that cannot be read decides
what is wrong. If there is none, the request has each flag that occurs and the values of the last
options, so it does not depend on how flags, limits and delays are mixed, nor on the words that say
nothing.
-/

namespace Broadcast

/-- A word writes a limit: a positive number of 64 bits, with at most one plus sign in front. -/
def Limit.Written (word : List Char) (n : Nat) : Prop :=
  Text.UnsignedNumeral word n ∧ 0 < n ∧ n < 2 ^ 64

theorem Limit.ofNat?_eq_some_iff {n : Nat} {limit : Limit} :
    ofNat? n = some limit ↔ limit.count.toNat = n := by
  simp only [ofNat?, Option.bind_eq_some_iff, Word.unsigned64?_eq_some_iff, Int.natCast_inj]
  constructor
  · rintro ⟨count, same, held⟩
    split_ifs at held with positive
    cases held
    exact same
  · intro same
    exact ⟨limit.count, same, dif_pos limit.ne_zero⟩

/-- A limit is read from the words that write it. -/
theorem Limit.parse?_eq_some_iff {word : List Char} {limit : Limit} :
    parse? word = some limit ↔ Written word limit.count.toNat := by
  have positive : 0 < limit.count.toNat := by
    rw [Nat.pos_iff_ne_zero, ne_eq, ← UInt64.toNat_zero, UInt64.toNat_inj]
    exact limit.ne_zero
  simp only [parse?, Option.bind_eq_some_iff, ofNat?_eq_some_iff, Text.unsigned?_eq_some_iff]
  constructor
  · rintro ⟨n, numeral, rfl⟩
    exact ⟨numeral, positive, limit.count.toNat_lt⟩
  · exact fun written => ⟨_, written.1, rfl⟩

theorem Limit.parse?_eq_none_iff {word : List Char} :
    parse? word = none ↔ ∀ n, ¬Written word n := by
  constructor
  · intro unread n written
    have nonzero : UInt64.ofNat n ≠ 0 := by
      rw [ne_eq, ← UInt64.toNat_inj, UInt64.toNat_ofNat_of_lt' written.2.2, UInt64.toNat_zero]
      exact written.2.1.ne'
    have read : parse? word = some ⟨UInt64.ofNat n, nonzero⟩ := by
      rwa [parse?_eq_some_iff, UInt64.toNat_ofNat_of_lt' written.2.2]
    cases unread.symm.trans read
  · exact fun none => Option.eq_none_iff_forall_ne_some.mpr fun limit read =>
      none _ (parse?_eq_some_iff.mp read)

namespace Request

/-- A word writes a delay: a length of time that is not empty. -/
def WrittenDelay (word : List Char) (delay : Duration) : Prop :=
  Duration.parse? (String.ofList word) = some delay ∧ delay.nanos ≠ 0

theorem delay?_eq_some_iff {word : List Char} {delay : Duration} :
    delay? word = some delay ↔ WrittenDelay word delay := by
  simp [delay?, WrittenDelay, Option.filter_eq_some_iff]

theorem delay?_eq_none_iff {word : List Char} :
    delay? word = none ↔ ∀ delay, ¬WrittenDelay word delay := by
  simp only [Option.eq_none_iff_forall_ne_some, ne_eq, delay?_eq_some_iff]

/-! ## Clauses of words -/

/-- The word is an option, which takes the word behind it. -/
def TakesValue (word : List Char) : Prop :=
  flag word = "limit" ∨ flag word = "delay"

instance (word : List Char) : Decidable (TakesValue word) :=
  inferInstanceAs (Decidable (_ ∨ _))

/-- Words that stand together: a word alone, an option with its value, or an option behind which no
word is left. -/
inductive Clause
  | single (word : List Char)
  | valued (option value : List Char)
  | bare (option : List Char)
deriving DecidableEq

namespace Clause

/-- The words of a clause. -/
def words : Clause → List (List Char)
  | single word => [word]
  | valued option value => [option, value]
  | bare option => [option]

/-- What stands alone is no option, and what takes a value is one. -/
def IsProper : Clause → Prop
  | single word => ¬TakesValue word
  | valued option _ => TakesValue option
  | bare option => TakesValue option

instance : DecidablePred IsProper
  | single _ => inferInstanceAs (Decidable (¬_))
  | valued _ _ => inferInstanceAs (Decidable (TakesValue _))
  | bare _ => inferInstanceAs (Decidable (TakesValue _))

/-- The clause lacks a value. -/
def IsBare : Clause → Prop
  | bare _ => True
  | _ => False

instance : DecidablePred IsBare
  | single _ => inferInstanceAs (Decidable False)
  | valued _ _ => inferInstanceAs (Decidable False)
  | bare _ => inferInstanceAs (Decidable True)

/-- The flag of a word that stands alone. -/
def flag? : Clause → Option String
  | single word => some (flag word)
  | _ => none

/-- The name of the option of a clause. -/
def option? : Clause → Option String
  | single _ => none
  | valued option _ => some (flag option)
  | bare option => some (flag option)

/-- The flags that mean something. -/
def flags : List String :=
  ["copy", "nochat", "nochats", "nouser", "nousers", "nochannel", "nochannels"]

/-- The clause is an option or a flag that means something. -/
def isKnown (c : Clause) : Bool :=
  c.flag?.all (· ∈ flags)

/-- What is wrong with a clause. -/
inductive Fails : Clause → UsageError → Prop
  | missingLimit {option : List Char} : flag option = "limit" → Fails (bare option) .missingLimit
  | missingDelay {option : List Char} : flag option = "delay" → Fails (bare option) .missingDelay
  | invalidLimit {option value : List Char} : flag option = "limit" →
      (∀ n, ¬Limit.Written value n) →
        Fails (valued option value) (.invalidLimit (String.ofList value))
  | invalidDelay {option value : List Char} : flag option = "delay" →
      (∀ delay, ¬WrittenDelay value delay) →
        Fails (valued option value) (.invalidDelay (String.ofList value))

end Clause

/-- Words are read from the left as clauses; only the last option can lack a value. -/
structure ReadAs (words : List (List Char)) (cs : List Clause) : Prop where
  spelled : cs.flatMap Clause.words = words
  proper : ∀ c ∈ cs, c.IsProper
  last : ∀ c ∈ cs.dropLast, ¬c.IsBare

/-- The clauses of words. -/
def clauses : List (List Char) → List Clause
  | [] => []
  | [word] => if TakesValue word then [.bare word] else [.single word]
  | word :: value :: words =>
    if TakesValue word then .valued word value :: clauses words
    else .single word :: clauses (value :: words)

theorem ReadAs.nil : ReadAs [] [] :=
  ⟨rfl, by simp, by simp⟩

theorem ReadAs.cons {c : Clause} {words : List (List Char)} {cs : List Clause} (proper : c.IsProper)
    (full : ¬c.IsBare) (read : ReadAs words cs) : ReadAs (c.words ++ words) (c :: cs) := by
  refine ⟨by rw [List.flatMap_cons, read.spelled],
    List.forall_mem_cons.mpr ⟨proper, read.proper⟩, fun c' member => ?_⟩
  cases cs with
  | nil => simp at member
  | cons d cs =>
      rw [List.dropLast_cons_cons] at member
      rcases List.mem_cons.mp member with rfl | member
      · exact full
      · exact read.last c' member

theorem ReadAs.behind {c : Clause} {words : List (List Char)} {cs : List Clause}
    (read : ReadAs words (c :: cs)) :
    ∃ rest, words = c.words ++ rest ∧ ReadAs rest cs ∧ (c.IsBare → cs = []) := by
  obtain ⟨rfl, proper, last⟩ := read
  refine ⟨_, List.flatMap_cons, ⟨rfl, fun c' member => proper c' (.tail c member), ?_⟩, ?_⟩
  · intro c' member
    cases cs with
    | nil => simp at member
    | cons d cs => exact last c' (List.dropLast_cons_cons ▸ .tail c member)
  · intro bare
    cases cs with
    | nil => rfl
    | cons d cs => exact absurd bare (last c (List.dropLast_cons_cons ▸ List.mem_cons_self))

theorem readAs_clauses (words : List (List Char)) : ReadAs words (clauses words) := by
  induction words using clauses.induct with
  | case1 => exact .nil
  | case2 word takes =>
      rw [clauses, if_pos takes]
      exact ⟨rfl, List.forall_mem_singleton.mpr takes, by simp⟩
  | case3 word alone =>
      rw [clauses, if_neg alone]
      exact .cons (c := .single word) alone id .nil
  | case4 word value words takes ih =>
      rw [clauses, if_pos takes]
      exact .cons (c := .valued word value) takes id ih
  | case5 word value words alone ih =>
      rw [clauses, if_neg alone]
      exact .cons (c := .single word) alone id ih

/-- Words fall into clauses in one way only. -/
theorem ReadAs.unique {words : List (List Char)} {cs cs' : List Clause}
    (read : ReadAs words cs) (read' : ReadAs words cs') : cs = cs' := by
  -- Every reading is the one from left to right, which `clauses` makes.
  suffices all : ∀ cs words, ReadAs words cs → cs = clauses words from
    (all cs words read).trans (all cs' words read').symm
  intro cs
  induction cs with
  | nil =>
      rintro words ⟨rfl, -, -⟩
      rfl
  | cons c cs ih =>
      intro words read
      have proper : c.IsProper := read.proper c List.mem_cons_self
      obtain ⟨rest, rfl, behind, alone⟩ := read.behind
      obtain rfl := ih rest behind
      cases c with
      | single word =>
          cases rest with
          | nil => exact (if_neg proper).symm
          | cons value rest => exact (if_neg proper).symm
      | valued word value => exact (if_pos proper).symm
      | bare word =>
          obtain rfl : rest = [] := by
            rw [← behind.spelled, alone trivial]
            rfl
          exact (if_pos proper).symm

/-! ## Reading clauses -/

/-- The request with what a flag says. -/
def told (request : Request) (name : String) : Request :=
  { request with
    mode := if name = "copy" then .copy else request.mode
    skipGroups := request.skipGroups || name ∈ ["nochat", "nochats"]
    skipUsers := request.skipUsers || name ∈ ["nouser", "nousers"]
    skipChannels := request.skipChannels || name ∈ ["nochannel", "nochannels"] }

theorem readWords_single {word : List Char} (alone : ¬TakesValue word) (request : Request)
    (words : List (List Char)) :
    readWords request (word :: words) = readWords (request.told (flag word)) words := by
  obtain ⟨noLimit, noDelay⟩ := not_or.mp alone
  rw [readWords.eq_def]
  simp only [told]
  generalize flag word = name at *
  split <;> simp_all

theorem readWords_limit {option : List Char} (limit : flag option = "limit") (request : Request)
    (value : List Char) (words : List (List Char)) :
    readWords request (option :: value :: words) =
      match Limit.parse? value with
      | some limit => readWords { request with limit := some limit } words
      | none => .error (.invalidLimit (String.ofList value)) := by
  cases read : Limit.parse? value <;> simp only [readWords, limit, read]

theorem readWords_delay {option : List Char} (delay : flag option = "delay") (request : Request)
    (value : List Char) (words : List (List Char)) :
    readWords request (option :: value :: words) =
      match delay? value with
      | some delay => readWords { request with delay := some delay } words
      | none => .error (.invalidDelay (String.ofList value)) := by
  cases read : delay? value <;> simp only [readWords, delay, read]

/-- A clause that does not lack a value is read before the words behind it. -/
theorem readWords_append {c : Clause} (proper : c.IsProper) (full : ¬c.IsBare) (request : Request)
    (words : List (List Char)) :
    readWords request (c.words ++ words) =
      (readWords request c.words).bind (readWords · words) := by
  cases c with
  | single word =>
      simp only [Clause.words, List.cons_append, List.nil_append, readWords_single proper]
      rfl
  | valued option value =>
      simp only [Clause.words, List.cons_append, List.nil_append]
      rcases proper with limit | delay
      · rw [readWords_limit limit, readWords_limit limit]
        cases Limit.parse? value <;> rfl
      · rw [readWords_delay delay, readWords_delay delay]
        cases delay? value <;> rfl
  | bare option => exact absurd trivial full

theorem Clause.fails_limit_iff {option value : List Char} (limit : flag option = "limit")
    {error : UsageError} :
    (valued option value).Fails error ↔
      (∀ n, ¬Limit.Written value n) ∧ error = .invalidLimit (String.ofList value) := by
  constructor
  · rintro (_ | _ | ⟨-, unwritten⟩ | ⟨delay, -⟩)
    · exact ⟨unwritten, rfl⟩
    · exact absurd (limit.symm.trans delay) (by decide)
  · rintro ⟨unwritten, rfl⟩
    exact .invalidLimit limit unwritten

theorem Clause.fails_delay_iff {option value : List Char} (delay : flag option = "delay")
    {error : UsageError} :
    (valued option value).Fails error ↔
      (∀ delay, ¬WrittenDelay value delay) ∧ error = .invalidDelay (String.ofList value) := by
  constructor
  · rintro (_ | _ | ⟨limit, -⟩ | ⟨-, unwritten⟩)
    · exact absurd (limit.symm.trans delay) (by decide)
    · exact ⟨unwritten, rfl⟩
  · rintro ⟨unwritten, rfl⟩
    exact .invalidDelay delay unwritten

theorem readWords_bare_eq_error_iff {option : List Char} (takes : TakesValue option)
    (request : Request) (error : UsageError) :
    readWords request [option] = .error error ↔ (Clause.bare option).Fails error := by
  rcases takes with limit | delay
  · simp only [readWords, limit, Except.error.injEq]
    constructor
    · rintro rfl
      exact .missingLimit limit
    · rintro (- | delay)
      · rfl
      · exact absurd (limit.symm.trans delay) (by decide)
  · simp only [readWords, delay, Except.error.injEq]
    constructor
    · rintro rfl
      exact .missingDelay delay
    · rintro (limit | -)
      · exact absurd (limit.symm.trans delay) (by decide)
      · rfl

theorem readWords_eq_error_iff {c : Clause} (proper : c.IsProper) (request : Request)
    (error : UsageError) : readWords request c.words = .error error ↔ c.Fails error := by
  cases c with
  | single word =>
      rw [Clause.words, readWords_single proper]
      exact ⟨nofun, nofun⟩
  | valued option value =>
      rw [Clause.words]
      rcases proper with limit | delay
      · rw [readWords_limit limit, Clause.fails_limit_iff limit, ← Limit.parse?_eq_none_iff]
        cases Limit.parse? value <;> simp [readWords, eq_comm]
      · rw [readWords_delay delay, Clause.fails_delay_iff delay, ← delay?_eq_none_iff]
        cases delay? value <;> simp [readWords, eq_comm]
  | bare option => exact readWords_bare_eq_error_iff proper request error

/-- A flag of some names stands among clauses. -/
def Tells (cs : List Clause) (names : List String) : Prop :=
  ∃ c ∈ cs, ∃ name ∈ names, c.flag? = some name

/-- The last clause of an option has a value. -/
def LastValue (cs : List Clause) (name : String) (value : List Char) : Prop :=
  ∃ option, (cs.filter (·.option? = some name)).getLast? = some (.valued option value)

/-- A request has the source, each flag that occurs, and the values of the last options. -/
structure Describes (source : SourceMessage) (cs : List Clause) (request : Request) : Prop where
  source : request.source = source
  mode : request.mode = .copy ↔ Tells cs ["copy"]
  skipGroups : request.skipGroups = true ↔ Tells cs ["nochat", "nochats"]
  skipUsers : request.skipUsers = true ↔ Tells cs ["nouser", "nousers"]
  skipChannels : request.skipChannels = true ↔ Tells cs ["nochannel", "nochannels"]
  limit : ∀ limit, request.limit = some limit ↔
    ∃ value, LastValue cs "limit" value ∧ Limit.Written value limit.count.toNat
  delay : ∀ delay, request.delay = some delay ↔
    ∃ value, LastValue cs "delay" value ∧ WrittenDelay value delay

theorem tells_concat {cs : List Clause} {c : Clause} {names : List String} :
    Tells (cs ++ [c]) names ↔ Tells cs names ∨ ∃ name ∈ names, c.flag? = some name := by
  simp [Tells, or_and_right, exists_or]

theorem lastValue_concat_of_other {cs : List Clause} {c : Clause} {name : String}
    (other : c.option? ≠ some name) (value : List Char) :
    LastValue (cs ++ [c]) name value ↔ LastValue cs name value := by
  simp [LastValue, List.filter_append, other]

theorem lastValue_concat {cs : List Clause} {option value : List Char} {name : String}
    (same : flag option = name) (value' : List Char) :
    LastValue (cs ++ [.valued option value]) name value' ↔ value = value' := by
  simp [LastValue, List.filter_append, Clause.option?, same]

namespace Describes

variable {source : SourceMessage} {cs : List Clause} {request : Request}

theorem nil (source : SourceMessage) : Describes source [] { source } := by
  constructor <;> simp [Tells, LastValue]

theorem tell (describes : Describes source cs request) (word : List Char) :
    Describes source (cs ++ [.single word]) (request.told (flag word)) := by
  have kept (name : String) (value : List Char) :
      LastValue (cs ++ [.single word]) name value ↔ LastValue cs name value :=
    lastValue_concat_of_other (by simp [Clause.option?]) value
  constructor
  case source => exact describes.source
  case limit => simp only [told, kept, describes.limit, implies_true]
  case delay => simp only [told, kept, describes.delay, implies_true]
  case mode =>
    rw [tells_concat, ← describes.mode]
    by_cases copy : flag word = "copy" <;> simp [told, Clause.flag?, copy]
  all_goals
    rw [tells_concat]
    simp [told, Clause.flag?, describes.skipGroups, describes.skipUsers, describes.skipChannels]

theorem tells_valued {option value : List Char} (names : List String) :
    Tells (cs ++ [.valued option value]) names ↔ Tells cs names := by
  simp [tells_concat, Clause.flag?]

theorem setLimit (describes : Describes source cs request) {option value : List Char}
    (name : flag option = "limit") {limit : Limit} (parsed : Limit.parse? value = some limit) :
    Describes source (cs ++ [.valued option value]) { request with limit := some limit } := by
  have other (value' : List Char) :
      LastValue (cs ++ [.valued option value]) "delay" value' ↔ LastValue cs "delay" value' :=
    lastValue_concat_of_other (by simp [Clause.option?, name]) value'
  constructor
  case limit =>
    intro limit'
    simp only [lastValue_concat name, exists_eq_left', ← Limit.parse?_eq_some_iff, parsed]
  all_goals simp only [tells_valued, other]
  case source => exact describes.source
  case delay => exact describes.delay
  case mode => exact describes.mode
  case skipGroups => exact describes.skipGroups
  case skipUsers => exact describes.skipUsers
  case skipChannels => exact describes.skipChannels

theorem setDelay (describes : Describes source cs request) {option value : List Char}
    (name : flag option = "delay") {delay : Duration} (parsed : delay? value = some delay) :
    Describes source (cs ++ [.valued option value]) { request with delay := some delay } := by
  have other (value' : List Char) :
      LastValue (cs ++ [.valued option value]) "limit" value' ↔ LastValue cs "limit" value' :=
    lastValue_concat_of_other (by simp [Clause.option?, name]) value'
  constructor
  case delay =>
    intro delay'
    simp only [lastValue_concat name, exists_eq_left', ← delay?_eq_some_iff, parsed]
  all_goals simp only [tells_valued, other]
  case source => exact describes.source
  case limit => exact describes.limit
  case mode => exact describes.mode
  case skipGroups => exact describes.skipGroups
  case skipUsers => exact describes.skipUsers
  case skipChannels => exact describes.skipChannels

theorem concat {c : Clause} {request' : Request} (describes : Describes source cs request)
    (proper : c.IsProper) (read : readWords request c.words = .ok request') :
    Describes source (cs ++ [c]) request' := by
  cases c with
  | single word =>
      rw [Clause.words, readWords_single proper] at read
      obtain rfl := Except.ok.inj read
      exact describes.tell word
  | valued option value =>
      rw [Clause.words] at read
      rcases proper with name | name
      · rw [readWords_limit name] at read
        split at read
        next limit parsed =>
          obtain rfl := Except.ok.inj read
          exact describes.setLimit name parsed
        next => cases read
      · rw [readWords_delay name] at read
        split at read
        next delay parsed =>
          obtain rfl := Except.ok.inj read
          exact describes.setDelay name parsed
        next => cases read
  | bare option =>
      rw [Clause.words] at read
      rcases proper with name | name <;> simp [readWords, name] at read

end Describes

theorem ReadAs.readWords_eq {words : List (List Char)} {c : Clause} {cs : List Clause}
    (read : ReadAs words (c :: cs)) :
    ∃ rest, ReadAs rest cs ∧ ∀ request,
      readWords request words = (readWords request c.words).bind (readWords · rest) := by
  obtain ⟨rest, rfl, behind, alone⟩ := read.behind
  refine ⟨rest, behind, fun request => ?_⟩
  by_cases bare : c.IsBare
  · obtain rfl : rest = [] := by
      rw [← behind.spelled, alone bare]
      rfl
    rw [List.append_nil]
    cases readWords request c.words <;> rfl
  · exact readWords_append (read.proper c List.mem_cons_self) bare request rest

/-- The clauses that are read after others describe the request together with them. -/
theorem Describes.append {source : SourceMessage} {cs cs' : List Clause}
    {words : List (List Char)} {request request' : Request}
    (describes : Describes source cs request) (read : ReadAs words cs')
    (result : readWords request words = .ok request') : Describes source (cs ++ cs') request' := by
  induction cs' generalizing cs words request with
  | nil =>
      obtain ⟨rfl, -, -⟩ := read
      obtain rfl := Except.ok.inj result
      rwa [List.append_nil]
  | cons c cs' ih =>
      obtain ⟨rest, behind, eq⟩ := read.readWords_eq
      rw [eq] at result
      cases first : readWords request c.words with
      | error error =>
          rw [first] at result
          cases result
      | ok between =>
          rw [first] at result
          have described := describes.concat (read.proper c List.mem_cons_self) first
          rw [List.append_cons]
          exact ih described behind result

/-- The first clause that fails, fails in a given way. -/
def FirstFails (cs : List Clause) (error : UsageError) : Prop :=
  ∃ before c after, cs = before ++ c :: after ∧ c.Fails error ∧
    ∀ d ∈ before, ∀ error', ¬d.Fails error'

theorem firstFails_cons {c : Clause} {cs : List Clause} {error : UsageError} :
    FirstFails (c :: cs) error ↔
      c.Fails error ∨ (∀ error', ¬c.Fails error') ∧ FirstFails cs error := by
  constructor
  · rintro ⟨before, d, after, split, fails, sound⟩
    cases before with
    | nil =>
        obtain ⟨rfl, -⟩ := List.cons.inj split
        exact .inl fails
    | cons b before =>
        obtain ⟨rfl, tails⟩ := List.cons.inj split
        obtain ⟨first, sound⟩ := List.forall_mem_cons.mp sound
        exact .inr ⟨first, before, d, after, tails, fails, sound⟩
  · rintro (fails | ⟨first, before, d, after, rfl, fails, sound⟩)
    · exact ⟨[], c, cs, rfl, fails, by simp⟩
    · exact ⟨c :: before, d, after, rfl, fails, List.forall_mem_cons.mpr ⟨first, sound⟩⟩

/-- Reading fails as the first clause does that fails. -/
theorem ReadAs.error_iff {words : List (List Char)} {cs : List Clause} (read : ReadAs words cs)
    (request : Request) (error : UsageError) :
    readWords request words = .error error ↔ FirstFails cs error := by
  induction cs generalizing words request with
  | nil =>
      obtain ⟨rfl, -, -⟩ := read
      refine ⟨nofun, ?_⟩
      rintro ⟨before, c, after, split, -⟩
      simp at split
  | cons c cs ih =>
      obtain ⟨rest, behind, eq⟩ := read.readWords_eq
      have fails := readWords_eq_error_iff (read.proper c List.mem_cons_self) request
      rw [eq, firstFails_cons, ← fails error]
      simp only [← fails]
      cases readWords request c.words with
      | error error' => simp [Except.bind]
      | ok between => simpa [Except.bind] using ih behind between

theorem exists_firstFails_iff {cs : List Clause} :
    (∃ error, FirstFails cs error) ↔ ∃ c ∈ cs, ∃ error, c.Fails error := by
  induction cs with
  | nil => simp [FirstFails]
  | cons c cs ih =>
      simp only [firstFails_cons, List.exists_mem_cons_iff, exists_or, exists_and_left, ih]
      by_cases fails : ∃ error, c.Fails error
      · exact iff_of_true (.inl fails) (.inl fails)
      · simp only [not_exists.mp fails, not_false_eq_true, implies_true, true_and]

/-- There is only one request that clauses describe. -/
theorem Describes.unique {source : SourceMessage} {cs : List Clause} {request request' : Request}
    (describes : Describes source cs request) (describes' : Describes source cs request') :
    request = request' := by
  have mode (m m' : DeliveryMode) (same : m = .copy ↔ m' = .copy) : m = m' := by
    cases m <;> cases m' <;> simp_all
  cases request
  cases request'
  congr 1
  · exact describes.source.trans describes'.source.symm
  · exact mode _ _ (describes.mode.trans describes'.mode.symm)
  · exact Bool.eq_iff_iff.mpr (describes.skipUsers.trans describes'.skipUsers.symm)
  · exact Bool.eq_iff_iff.mpr (describes.skipGroups.trans describes'.skipGroups.symm)
  · exact Bool.eq_iff_iff.mpr (describes.skipChannels.trans describes'.skipChannels.symm)
  · exact Option.ext fun limit => (describes.limit limit).trans (describes'.limit limit).symm
  · exact Option.ext fun delay => (describes.delay delay).trans (describes'.delay delay).symm

/-- Reading succeeds exactly if no clause fails, with the request that the clauses describe. -/
theorem ReadAs.ok_iff {words : List (List Char)} {cs : List Clause} (read : ReadAs words cs)
    (source : SourceMessage) (request : Request) :
    readWords { source } words = .ok request ↔
      (∀ c ∈ cs, ∀ error, ¬c.Fails error) ∧ Describes source cs request := by
  have described (result : Request) (ok : readWords { source } words = .ok result) :
      Describes source cs result := (Describes.nil source).append read ok
  have sound : (∀ c ∈ cs, ∀ error, ¬c.Fails error) ↔
      ∀ error, readWords { source } words ≠ .error error := by
    have none := not_congr (@exists_firstFails_iff cs)
    simp only [ne_eq, read.error_iff]
    push Not at none
    exact none.symm
  rw [sound]
  cases result : readWords { source } words with
  | error error => simp
  | ok result' =>
      constructor
      · rintro ⟨⟩
        exact ⟨by simp, described _ result⟩
      · rintro ⟨-, describes⟩
        rw [(described _ result).unique describes]

/-! ## Order and idle words -/

/-- Clauses describe a request in any order that keeps that of the limits and that of the delays. -/
theorem Describes.perm {source : SourceMessage} {cs cs' : List Clause} {request : Request}
    (describes : Describes source cs request) (perm : cs.Perm cs')
    (ordered : ∀ name ∈ ["limit", "delay"],
      cs.filter (·.option? = some name) = cs'.filter (·.option? = some name)) :
    Describes source cs' request := by
  have tells (names : List String) : Tells cs names ↔ Tells cs' names := by
    simp only [Tells, perm.mem_iff]
  have last (name : String) (member : name ∈ ["limit", "delay"]) (value : List Char) :
      LastValue cs name value ↔ LastValue cs' name value := by
    simp only [LastValue, ordered name member]
  obtain ⟨source, mode, groups, users, channels, limit, delay⟩ := describes
  constructor
  case source => exact source
  case limit => simpa only [last "limit" (by simp)] using limit
  case delay => simpa only [last "delay" (by simp)] using delay
  case mode => exact mode.trans (tells _)
  case skipGroups => exact groups.trans (tells _)
  case skipUsers => exact users.trans (tells _)
  case skipChannels => exact channels.trans (tells _)

theorem told_of_not_mem {name : String} (unknown : name ∉ Clause.flags) (request : Request) :
    request.told name = request := by
  simp only [Clause.flags, List.mem_cons, List.not_mem_nil, or_false, not_or] at unknown
  simp [told, unknown]

/-- Words that say nothing are passed over. -/
theorem ReadAs.readWords_filter {words : List (List Char)} {cs : List Clause}
    (read : ReadAs words cs) (request : Request) :
    readWords request words =
      readWords request ((cs.filter (·.isKnown)).flatMap Clause.words) := by
  induction cs generalizing words request with
  | nil =>
      obtain ⟨rfl, -, -⟩ := read
      rfl
  | cons c cs ih =>
      have proper := read.proper c List.mem_cons_self
      obtain ⟨rest, rfl, behind, alone⟩ := read.behind
      by_cases known : c.isKnown
      · rw [List.filter_cons_of_pos known, List.flatMap_cons]
        by_cases bare : c.IsBare
        · obtain rfl := alone bare
          rw [← behind.spelled]
          rfl
        · rw [readWords_append proper bare, readWords_append proper bare]
          cases readWords request c.words with
          | error error => rfl
          | ok between => exact ih behind between
      · rw [List.filter_cons_of_neg known, ← ih behind request]
        cases c with
        | single word =>
            have unknown : flag word ∉ Clause.flags := by
              simpa [Clause.isKnown, Clause.flag?] using known
            exact (readWords_single proper request rest).trans
              (by rw [told_of_not_mem unknown])
        | valued option value => exact absurd rfl known
        | bare option => exact absurd rfl known

/-! ## What a request says -/

/-- The words of a request fall into clauses in one way. Reading them fails exactly if a clause
fails, as the first one does; else it gives the request that the clauses describe. So clauses in
another order give the same request if the limits and the delays keep theirs, and between clauses
words that say nothing can be put in or left out. -/
theorem requests_are_described (source : SourceMessage) (args : String) :
    (∃! cs, ReadAs (Text.words args.toList) cs) ∧
    ∀ cs, ReadAs (Text.words args.toList) cs →
      ((∃ error, ofArgs source args = .error error) ↔ ∃ c ∈ cs, ∃ error, c.Fails error) ∧
      (∀ error, ofArgs source args = .error error ↔ FirstFails cs error) ∧
      (∀ request, ofArgs source args = .ok request ↔
        (∀ c ∈ cs, ∀ error, ¬c.Fails error) ∧ Describes source cs request) ∧
      ∀ args' cs', ReadAs (Text.words args'.toList) cs' →
        (cs.Perm cs' → (∀ name ∈ ["limit", "delay"],
            cs.filter (·.option? = some name) = cs'.filter (·.option? = some name)) →
          ∀ request, ofArgs source args = .ok request ↔ ofArgs source args' = .ok request) ∧
        (cs.filter (·.isKnown) = cs'.filter (·.isKnown) →
          ofArgs source args = ofArgs source args') := by
  refine ⟨⟨_, readAs_clauses _, fun cs read => read.unique (readAs_clauses _)⟩, fun cs read => ?_⟩
  refine ⟨?_, read.error_iff _, read.ok_iff source, fun args' cs' read' => ⟨?_, ?_⟩⟩
  · rw [← exists_firstFails_iff]
    exact exists_congr (read.error_iff _)
  · intro perm ordered request
    rw [ofArgs, ofArgs, read.ok_iff, read'.ok_iff]
    refine and_congr (by simp only [perm.mem_iff]) ⟨fun describes => describes.perm perm ordered,
      fun describes => describes.perm perm.symm fun name member => (ordered name member).symm⟩
  · intro same
    rw [ofArgs, ofArgs, read.readWords_filter, read'.readWords_filter, same]

/-- Clauses of which the later limit counts. -/
def twoLimits : List Clause :=
  [.valued "limit".toList "5".toList, .single "hello".toList, .single "-COPY".toList,
    .valued "--Limit".toList "+07".toList, .single "nochats".toList]

/-- The later of two limits counts, with the flags in another order and without the word that says
nothing. An option takes a flag for its value, and fails before one behind it does. -/
theorem requests_are_described_after_last_limit :
    (∃ request, request.limit = some ⟨7, by decide⟩ ∧ Describes ⟨-42, 7⟩ twoLimits request ∧
      ofArgs ⟨-42, 7⟩ "nochats limit 5 hello --Limit +07 -COPY" = .ok request ∧
      ofArgs ⟨-42, 7⟩ "limit 5 -COPY --Limit +07 nochats" = .ok request) ∧
    FirstFails [.valued "limit".toList "nochats".toList, .bare "delay".toList]
      (.invalidLimit "nochats") := by
  have read : ReadAs (Text.words "limit 5 hello -COPY --Limit +07 nochats".toList) twoLimits :=
    ⟨rfl, by decide, by decide⟩
  have moved : ReadAs (Text.words "nochats limit 5 hello --Limit +07 -COPY".toList)
      [.single "nochats".toList, .valued "limit".toList "5".toList, .single "hello".toList,
        .valued "--Limit".toList "+07".toList, .single "-COPY".toList] :=
    ⟨rfl, by decide, by decide⟩
  have shorter : ReadAs (Text.words "limit 5 -COPY --Limit +07 nochats".toList)
      [.valued "limit".toList "5".toList, .single "-COPY".toList,
        .valued "--Limit".toList "+07".toList, .single "nochats".toList] :=
    ⟨rfl, by decide, by decide⟩
  have failing : ReadAs (Text.words "limit nochats delay".toList)
      [.valued "limit".toList "nochats".toList, .bare "delay".toList] :=
    ⟨rfl, by decide, by decide⟩
  obtain ⟨-, -, described, others⟩ := (requests_are_described ⟨-42, 7⟩ _).2 _ read
  obtain ⟨-, first, -, -⟩ := (requests_are_described ⟨-42, 7⟩ _).2 _ failing
  have ok : ofArgs ⟨-42, 7⟩ "limit 5 hello -COPY --Limit +07 nochats" =
      .ok ⟨⟨-42, 7⟩, .copy, false, true, false, some ⟨7, by decide⟩, none⟩ := rfl
  refine ⟨⟨_, rfl, ((described _).mp ok).2, ?_, ?_⟩, (first _).mp rfl⟩
  · exact ((others _ _ moved).1 (by decide) (by decide) _).mp ok
  · exact ((others _ _ shorter).2 (by decide)).symm.trans ok

end Request

end Broadcast
