import Broadcast.Proofs.Config.Listing
import Broadcast.Proofs.Json.Writing
import Broadcast.Proofs.Timestamp
import Broadcast.Summary

/-!
# Shared values are read back

The values that are handed to others and the configurations have a JSON text each. Every text is
read as the value that it was written for, but for the lengths of time of a summary, of which only
the whole milliseconds are written.
-/

namespace Broadcast

/-- The value of a type that a JSON text denotes. -/
def Json.decode? {α : Type} (ofData? : Data → Option α) (text : String) : Option α :=
  (parse? text).bind ofData?

theorem Json.decode?_render {α : Type} {ofData? : Data → Option α} {d : Data} {v : α}
    (plain : d.IsPlain) (reads : ofData? d = some v) : decode? ofData? (render d) = some v := by
  rw [decode?, parse?_render plain, Option.bind_some, reads]

/-! ## Names and messages

The columns of a record are variables until they are known to be read as its parts: the words that
are written in them are not to be computed with. -/

theorem Recipient.ofData?_toData (r : Recipient) : ofData? r.toData = some r := by
  rw [ofData?, toData, Data.signed64?_ofSigned64, Option.map_some]

theorem Recipient.Kind.ofData?_toData (k : Kind) : ofData? k.toData = some k := by
  rw [ofData?, toData, Data.case?, Option.bind_some, ofName?_name]

theorem DeliveryMode.ofData?_toData (m : DeliveryMode) : ofData? m.toData = some m := by
  rw [ofData?, toData, Data.case?, Option.bind_some, ofName?_name]

theorem SourceMessage.ofData?_of_columns {d chat number : Data} {m : SourceMessage}
    (listed : d.record? .complete ["chatId", "messageId"] = some [some chat, some number])
    (chatId : chat.signed64? = some m.chatId) (messageId : number.signed64? = some m.messageId) :
    ofData? d = some m := by
  simp [ofData?, listed, chatId, messageId]

theorem SourceMessage.ofData?_toData (m : SourceMessage) : ofData? m.toData = some m :=
  ofData?_of_columns (Data.record?_zip .complete ["chatId", "messageId"] [_, _] (by decide) rfl)
    (Data.signed64?_ofSigned64 _) (Data.signed64?_ofSigned64 _)

theorem KindCounts.ofData?_of_columns {d users groups channels : Data} {c : KindCounts}
    (listed : d.record? .complete ["users", "groups", "channels"] =
      some [some users, some groups, some channels])
    (users : users.unsigned64? = some c.users) (groups : groups.unsigned64? = some c.groups)
    (channels : channels.unsigned64? = some c.channels) : ofData? d = some c := by
  simp [ofData?, listed, users, groups, channels]

theorem KindCounts.ofData?_toData (c : KindCounts) : ofData? c.toData = some c :=
  ofData?_of_columns
    (Data.record?_zip .complete ["users", "groups", "channels"] [_, _, _] (by decide) rfl)
    (Data.unsigned64?_ofUnsigned64 _) (Data.unsigned64?_ofUnsigned64 _)
    (Data.unsigned64?_ofUnsigned64 _)

/-! ## Configurations -/

theorem Settings.record?_toData (demand : Data.Demand) (s : Settings) :
    s.toData.record? demand names = some (Setting.all.map fun k => some (.int (s.value k))) :=
  Data.record?_zip demand names _ (by decide) rfl

theorem Settings.read?_toData (demand : Data.Demand) (s : Settings) :
    read? demand s.toData = some s :=
  (read?_eq_some_iff (record?_toData demand s)).mpr fun _ => rfl

theorem Config.read?_toData (demand : Data.Demand) (c : Config) :
    read? demand c.toData = some c := by
  have directory : read?.seedFileOf? demand
      (.table [("seed_file", c.seedFile.elim .null .text)]) = some c.seedFile :=
    seedFileOf?_eq_some_iff.mpr
      ⟨_, Data.record?_zip demand ["seed_file"] [_] (List.nodup_singleton _) rfl, rfl⟩
  exact read?_eq_some_iff.mpr ⟨_, _, Data.record?_zip demand sections [_, _] (by decide) rfl,
    Settings.read?_toData demand _, directory⟩

/-! ## Summaries -/

/-- A summary with its lengths of time cut down to whole milliseconds. -/
def Summary.inWholeMillis (s : Summary) : Summary :=
  { s with
    pacingDelay := .ofMillis s.pacingDelay.millis
    elapsed := .ofMillis s.elapsed.millis }

theorem Summary.durationOfData?_durationToData {d : Duration} (fits : d.millis < 2 ^ 64) :
    durationOfData? (durationToData d) = some (.ofMillis d.millis) := by
  rw [durationOfData?, durationToData, Data.unsigned64?_ofUnsigned64, Option.map_some,
    UInt64.toNat_ofNat_of_lt' fits]

theorem Duration.millis_ofMillis (n : Nat) : (ofMillis n).millis = n :=
  Nat.mul_div_cancel n (by decide)

/-- Only whole milliseconds are written. -/
theorem Summary.toData_inWholeMillis (s : Summary) : s.inWholeMillis.toData = s.toData := by
  simp only [toData, inWholeMillis, durationToData, Duration.millis_ofMillis]

theorem Summary.ofData?_toData {s : Summary} (valid : s.startedAt.isValid = true)
    (nonneg : 0 ≤ s.startedAt.year) (small : s.startedAt.year ≤ 9999)
    (delay : s.pacingDelay.millis < 2 ^ 64) (elapsed : s.elapsed.millis < 2 ^ 64) :
    ofData? s.toData = some s.inWholeMillis := by
  have listed : s.toData.record? .complete names = some ([.text s.runId, .text s.startedAt.render,
      .ofUnsigned64 s.total, .ofUnsigned64 s.success, .ofUnsigned64 s.failed,
      .ofUnsigned64 s.removed, .text s.mode.name, .bool s.cancelled,
      durationToData s.pacingDelay, durationToData s.elapsed].map some) :=
    Data.record?_zip .complete names _ (by decide) rfl
  simp [ofData?, listed, Data.text?, Data.bool?, Data.case?, DeliveryMode.ofName?_name,
    Timestamp.parse?_render valid nonneg small, durationOfData?_durationToData delay,
    durationOfData?_durationToData elapsed, inWholeMillis]

/-! ## Texts -/

theorem Data.isPlain_zip (names : List String) (values : List Data)
    (each : ∀ d ∈ values, d.IsPlain) : (table (names.zip values)).IsPlain :=
  .table fun _ member => each _ (List.of_mem_zip member).2

theorem SourceMessage.isPlain_toData (m : SourceMessage) : m.toData.IsPlain :=
  Data.isPlain_zip ["chatId", "messageId"] [_, _] (by simp [Data.ofSigned64, Data.IsPlain.int])

theorem KindCounts.isPlain_toData (c : KindCounts) : c.toData.IsPlain :=
  Data.isPlain_zip ["users", "groups", "channels"] [_, _, _]
    (by simp [Data.ofUnsigned64, Data.IsPlain.int])

theorem Settings.isPlain_toData (s : Settings) : s.toData.IsPlain :=
  Data.isPlain_zip names _
    (by simp [Data.ofUnsigned64, Data.ofUnsigned32, Data.ofSigned64, Data.IsPlain.int])

theorem Config.isPlain_toData (c : Config) : c.toData.IsPlain := by
  have file : (c.seedFile.elim Data.null Data.text).IsPlain := by
    cases c.seedFile with
    | none => exact .null
    | some path => exact .text path
  have directory := Data.isPlain_zip ["seed_file"] [_] (List.forall_mem_singleton.mpr file)
  exact Data.isPlain_zip ["broadcast", "directory"] [_, _]
    (List.forall_mem_cons.mpr
      ⟨c.broadcast.isPlain_toData, List.forall_mem_singleton.mpr directory⟩)

theorem Summary.isPlain_toData (s : Summary) : s.toData.IsPlain :=
  Data.isPlain_zip names _ (by
    simp [durationToData, Data.ofUnsigned64, Data.IsPlain.int, Data.IsPlain.text,
      Data.IsPlain.bool])

/-- The JSON text of a recipient, a kind, a message, a mode, counts, settings or a configuration
is read as this very value. The text of a summary of a year with four digits, whose lengths of time
have milliseconds that fit a word, is read as this summary in whole milliseconds, which has the
same text. -/
theorem shared_values_are_read_back :
    (∀ r : Recipient, Json.decode? Recipient.ofData? (Json.render r.toData) = some r) ∧
    (∀ k : Recipient.Kind, Json.decode? Recipient.Kind.ofData? (Json.render k.toData) = some k) ∧
    (∀ m : SourceMessage, Json.decode? SourceMessage.ofData? (Json.render m.toData) = some m) ∧
    (∀ m : DeliveryMode, Json.decode? DeliveryMode.ofData? (Json.render m.toData) = some m) ∧
    (∀ c : KindCounts, Json.decode? KindCounts.ofData? (Json.render c.toData) = some c) ∧
    (∀ s : Settings, Json.decode? Settings.ofData? (Json.render s.toData) = some s) ∧
    (∀ c : Config, Json.decode? Config.ofData? (Json.render c.toData) = some c) ∧
    ∀ s : Summary, s.startedAt.isValid = true → 0 ≤ s.startedAt.year → s.startedAt.year ≤ 9999 →
      s.pacingDelay.millis < 2 ^ 64 → s.elapsed.millis < 2 ^ 64 →
        Json.decode? Summary.ofData? (Json.render s.toData) = some s.inWholeMillis ∧
        Json.render s.inWholeMillis.toData = Json.render s.toData := by
  refine ⟨fun r => Json.decode?_render (.int _) r.ofData?_toData,
    fun k => Json.decode?_render (.text _) k.ofData?_toData,
    fun m => Json.decode?_render m.isPlain_toData m.ofData?_toData,
    fun m => Json.decode?_render (.text _) m.ofData?_toData,
    fun c => Json.decode?_render c.isPlain_toData c.ofData?_toData,
    fun s => Json.decode?_render s.isPlain_toData (s.read?_toData _),
    fun c => Json.decode?_render c.isPlain_toData (c.read?_toData _), ?_⟩
  intro s valid nonneg small delay elapsed
  exact ⟨Json.decode?_render s.isPlain_toData
      (Summary.ofData?_toData valid nonneg small delay elapsed),
    congrArg Json.render s.toData_inWholeMillis⟩

/-- A summary of a run that started in a leap second, with a pause of less than a millisecond. -/
def leapSummary : Summary where
  total := 3
  success := 2
  failed := 1
  removed := 1
  mode := .copy
  cancelled := true
  pacingDelay := ⟨999999⟩
  elapsed := ⟨1500000001⟩
  runId := "run \"1\"\n"
  startedAt := ⟨2016, 12, 31, 23, 59, 60, 123456000⟩

theorem shared_values_are_read_back_leap :
    Json.decode? Summary.ofData? (Json.render leapSummary.toData) =
        some { leapSummary with pacingDelay := ⟨0⟩, elapsed := ⟨1500000000⟩ } ∧
      Json.render leapSummary.inWholeMillis.toData = Json.render leapSummary.toData := by
  obtain ⟨-, -, -, -, -, -, -, summaries⟩ := shared_values_are_read_back
  exact summaries leapSummary (by decide) (by decide) (by decide) (by decide) (by decide)

end Broadcast
