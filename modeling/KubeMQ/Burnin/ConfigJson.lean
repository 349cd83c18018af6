import KubeMQ.Burnin.Config

/-!
# Reading a configuration

What `FromJson` makes of a text. `ConfigOf` follows `from_json` from member to member: the v2 form
is read first, then the v1 form over it. `Settings` says what that comes to for the settings: the v1
form decides, else the v2 form, else the default.
-/

namespace KubeMQ.Burnin

open Json (Fault Parsed Reader StringMap Tracks Value Verdict)

/-- A setting with a v2 form and a v1 form, which is read over it. -/
def Layered {A : Type} (r₂ r₁ : Reader A) (v2 v1 : Option Value) (default a : A) : Prop :=
  ∃ b, r₂.Optional v2 default b ∧ r₁.Optional v1 b a

/-- The configuration that `from_json` makes of a value. -/
structure ConfigOf (j : Value) (c : Config) : Prop where
  brokerAddress : Layered Reader.ofString Reader.ofString (inner j "broker" "address")
    (j.find? "broker_address") defaults.brokerAddress c.brokerAddress
  clientIdPrefix :
    Reader.ofString.Nested j "client_id_prefix" defaults.clientIdPrefix c.clientIdPrefix
  durationSeconds : Layered ofDuration Reader.ofInt (text j "duration")
    (j.find? "duration_seconds") defaults.durationSeconds c.durationSeconds
  warmupSeconds : Layered ofDuration Reader.ofInt (inner j "warmup" "warmup_duration")
    (j.find? "warmup_seconds") defaults.warmupSeconds c.warmupSeconds
  payloadSize : Layered Reader.ofInt Reader.ofInt (inner j "message" "size_bytes")
    (j.find? "payload_size") defaults.payloadSize c.payloadSize
  runId : Reader.ofString.Nested j "run_id" defaults.runId c.runId
  patterns : ofPattern.ofMap.Nested j "patterns" defaults.patterns c.patterns
  queue : (ofQueue defaults.queue).Nested j "queue" defaults.queue c.queue
  metricsPort : c.metricsPort = defaults.metricsPort
  warnings : c.warnings = []

/-- How the reads of `from_json` come out, in their order. -/
def configVerdict (j : Value) : Verdict := .all
  [Reader.ofString.optionalVerdict (inner j "broker" "address"),
    Reader.ofString.nestedVerdict j "broker_address",
    Reader.ofString.nestedVerdict j "client_id_prefix",
    ofDuration.optionalVerdict (text j "duration"),
    Reader.ofInt.nestedVerdict j "duration_seconds",
    ofDuration.optionalVerdict (inner j "warmup" "warmup_duration"),
    Reader.ofInt.nestedVerdict j "warmup_seconds",
    Reader.ofInt.optionalVerdict (inner j "message" "size_bytes"),
    Reader.ofInt.nestedVerdict j "payload_size",
    Reader.ofString.nestedVerdict j "run_id",
    ofPattern.ofMap.nestedVerdict j "patterns",
    (ofQueue defaults.queue).nestedVerdict j "queue"]

lemma tracks_readJson (j : Value) :
    Tracks (ConfigOf j) (Config.readJson j {}) (configVerdict j) := by
  apply Tracks.congr
  · unfold Config.readJson
    apply (Reader.tracks_optional Reader.ofString (inner j "broker" "address") _).bind
    intro broker
    apply (Reader.tracks_nested Reader.ofString j "broker_address" broker).bind
    intro brokerAddress
    apply (Reader.tracks_nested Reader.ofString j "client_id_prefix" _).bind
    intro clientIdPrefix
    apply (Reader.tracks_optional ofDuration (text j "duration") _).bind
    intro duration
    apply (Reader.tracks_nested Reader.ofInt j "duration_seconds" duration).bind
    intro durationSeconds
    apply (Reader.tracks_optional ofDuration (inner j "warmup" "warmup_duration") _).bind
    intro warmup
    apply (Reader.tracks_nested Reader.ofInt j "warmup_seconds" warmup).bind
    intro warmupSeconds
    apply (Reader.tracks_optional Reader.ofInt (inner j "message" "size_bytes") _).bind
    intro message
    apply (Reader.tracks_nested Reader.ofInt j "payload_size" message).bind
    intro payloadSize
    apply (Reader.tracks_nested Reader.ofString j "run_id" _).bind
    intro runId
    apply (Reader.tracks_nested ofPattern.ofMap j "patterns" _).bind
    intro patterns
    apply (Reader.tracks_nested (ofQueue defaults.queue) j "queue" _).bind
    intro queue
    exact Tracks.pure _
  · intro c
    constructor
    · rintro ⟨_, h₁, _, h₂, _, h₃, _, h₄, _, h₅, _, h₆, _, h₇, _, h₈, _, h₉, _, h₁₀, _, h₁₁, _, h₁₂,
        rfl⟩
      exact ⟨⟨_, h₁, h₂⟩, h₃, ⟨_, h₄, h₅⟩, ⟨_, h₆, h₇⟩, ⟨_, h₈, h₉⟩, h₁₀, h₁₁, h₁₂, rfl, rfl⟩
    · obtain ⟨brokerAddress, clientIdPrefix, durationSeconds, warmupSeconds, runId, payloadSize,
        patterns, queue, metricsPort, warnings⟩ := c
      rintro ⟨⟨_, h₁, h₂⟩, h₃, ⟨_, h₄, h₅⟩, ⟨_, h₆, h₇⟩, ⟨_, h₈, h₉⟩, h₁₀, h₁₁, h₁₂, rfl, rfl⟩
      exact ⟨_, h₁, _, h₂, _, h₃, _, h₄, _, h₅, _, h₆, _, h₇, _, h₈, _, h₉, _, h₁₀, _, h₁₁, _, h₁₂,
        rfl⟩

lemma plain_ofPattern : ofPattern.Plain := by
  intro j
  have ints := Reader.plain_ofInt.nested j
  have bools := Reader.plain_ofBoolean.nested j
  apply Reader.all_ne_altered
  simp only [List.mem_cons, List.not_mem_nil, or_false]
  rintro v (rfl | rfl | rfl | rfl | rfl | rfl | rfl | rfl)
  all_goals first | exact ints _ | exact bools _

lemma plain_ofQueue (d : QueueConfig) : (ofQueue d).Plain := by
  intro j
  have ints := Reader.plain_ofInt.nested j
  have bools := Reader.plain_ofBoolean.nested j
  apply Reader.all_ne_altered
  simp only [List.mem_cons, List.not_mem_nil, or_false]
  rintro v (rfl | rfl | rfl)
  all_goals first | exact ints _ | exact bools _

lemma plain_ofDuration : ofDuration.Plain := by
  intro j
  cases j with
  | string s =>
    show (if (parseDurationToSeconds s.toList).isSome then Verdict.exact else .undefined) ≠ .altered
    split <;> exact nofun
  | _ => exact nofun

lemma configVerdict_ne_altered (j : Value) : configVerdict j ≠ .altered := by
  have strings := Reader.plain_ofString.nested j
  have ints := Reader.plain_ofInt.nested j
  apply Reader.all_ne_altered
  simp only [List.mem_cons, List.not_mem_nil, or_false]
  rintro v (rfl | rfl | rfl | rfl | rfl | rfl | rfl | rfl | rfl | rfl | rfl | rfl)
  · exact Reader.plain_ofString.optional _
  · exact strings _
  · exact strings _
  · exact plain_ofDuration.optional _
  · exact ints _
  · exact plain_ofDuration.optional _
  · exact ints _
  · exact Reader.plain_ofInt.optional _
  · exact ints _
  · exact strings _
  · exact plain_ofPattern.ofMap.nested _ _
  · exact (plain_ofQueue _).nested _ _

/-- A setting: its v1 form decides, else its v2 form, else the default. -/
def Setting {A : Type} (r₂ r₁ : Reader A) (v2 v1 : Option Value) (default a : A) : Prop :=
  match v1, v2 with
  | some v, _ => r₁.Is v a
  | none, some v => r₂.Is v a
  | none, none => a = default

lemma Layered.setting {A : Type} {r₂ r₁ : Reader A} {v2 v1 : Option Value} {default a : A}
    (h : Layered r₂ r₁ v2 v1 default a) : Setting r₂ r₁ v2 v1 default a := by
  obtain ⟨b, h₂, h₁⟩ := h
  cases v1 with
  | some v => exact h₁
  | none =>
    obtain rfl : a = b := h₁
    cases v2 with
    | some v => exact h₂
    | none => exact h₂

/-- The pattern `p` that is read where the default is `d`. A rate that is left out is the one of
`PatternConfig`, which is not the default of every pattern. -/
structure PatternGiven (d : PatternConfig) (j : Value) (p : PatternConfig) : Prop where
  enabled : Reader.ofBoolean.Nested j "enabled" d.enabled p.enabled
  channels : Reader.ofInt.Nested j "channels" d.channels p.channels
  producersPerChannel :
    Reader.ofInt.Nested j "producers_per_channel" d.producersPerChannel p.producersPerChannel
  consumersPerChannel :
    Reader.ofInt.Nested j "consumers_per_channel" d.consumersPerChannel p.consumersPerChannel
  consumerGroup : Reader.ofBoolean.Nested j "consumer_group" d.consumerGroup p.consumerGroup
  sendersPerChannel :
    Reader.ofInt.Nested j "senders_per_channel" d.sendersPerChannel p.sendersPerChannel
  respondersPerChannel :
    Reader.ofInt.Nested j "responders_per_channel" d.respondersPerChannel p.respondersPerChannel
  rate : ∀ v, j.find? "rate" = some v → Reader.ofInt.Is v p.rate
  rateLeft : j.find? "rate" = none → d.rate = 50 → p.rate = d.rate

/-- The settings that a value stands for. -/
structure Settings (j : Value) (c : Config) : Prop where
  brokerAddress : Setting Reader.ofString Reader.ofString (inner j "broker" "address")
    (j.find? "broker_address") defaults.brokerAddress c.brokerAddress
  clientIdPrefix :
    Reader.ofString.Nested j "client_id_prefix" defaults.clientIdPrefix c.clientIdPrefix
  durationSeconds : Setting ofDuration Reader.ofInt (text j "duration")
    (j.find? "duration_seconds") defaults.durationSeconds c.durationSeconds
  warmupSeconds : Setting ofDuration Reader.ofInt (inner j "warmup" "warmup_duration")
    (j.find? "warmup_seconds") defaults.warmupSeconds c.warmupSeconds
  payloadSize : Setting Reader.ofInt Reader.ofInt (inner j "message" "size_bytes")
    (j.find? "payload_size") defaults.payloadSize c.payloadSize
  runId : Reader.ofString.Nested j "run_id" defaults.runId c.runId
  patterns : j.find? "patterns" = none → c.patterns = defaults.patterns
  pattern : ∀ ps name v, j.find? "patterns" = some ps → ps.find? name = some v →
    ∃ p, c.patterns[name]? = some p ∧ PatternGiven (defaults.patterns[name]?.getD {}) v p
  /-- A pattern that is not named among others is not configured. -/
  unnamed : ∀ ps name, j.find? "patterns" = some ps → ps.find? name = none →
    c.patterns[name]? = none
  queue : j.find? "queue" = none → c.queue = defaults.queue
  queueGiven : ∀ v, j.find? "queue" = some v → QueueOf defaults.queue v c.queue

/-- What the map holds is the one default of the patterns, up to its rate. -/
def UpToRate (patterns : StringMap PatternConfig) : Prop :=
  ∀ name : String, ∃ rate, patterns[name]?.getD {} = defaultPattern rate

lemma upToRate_empty : UpToRate ∅ := by
  intro name
  rw [Std.ExtTreeMap.getElem?_empty]
  exact ⟨50, rfl⟩

lemma UpToRate.insert {patterns : StringMap PatternConfig} (h : UpToRate patterns) (key : String)
    (rate : Int32) : UpToRate (patterns.insert key (defaultPattern rate)) := by
  intro name
  rw [Std.ExtTreeMap.getElem?_insert]
  split
  next => exact ⟨rate, rfl⟩
  next => exact h name

lemma upToRate_defaults : UpToRate defaults.patterns := by
  apply UpToRate.insert
  apply UpToRate.insert
  apply UpToRate.insert
  apply UpToRate.insert
  apply UpToRate.insert
  apply UpToRate.insert
  exact upToRate_empty

lemma PatternOf.given {d : PatternConfig} {j : Value} {p : PatternConfig}
    (h : PatternOf {} j p) (hd : ∃ rate, d = defaultPattern rate) : PatternGiven d j p := by
  obtain ⟨rate, rfl⟩ := hd
  exact ⟨h.enabled, h.channels, h.producersPerChannel, h.consumersPerChannel, h.consumerGroup,
    h.sendersPerChannel, h.respondersPerChannel, fun v hv => h.rate.of_some hv,
    fun hv hd => (h.rate.of_none hv).trans hd.symm⟩

lemma ConfigOf.settings {j : Value} {c : Config} (h : ConfigOf j c) : Settings j c where
  brokerAddress := h.brokerAddress.setting
  clientIdPrefix := h.clientIdPrefix
  durationSeconds := h.durationSeconds.setting
  warmupSeconds := h.warmupSeconds.setting
  payloadSize := h.payloadSize.setting
  runId := h.runId
  patterns hj := h.patterns.of_none hj
  pattern ps name v hj hname := by
    have hget := ofPattern.ofMap_getElem? (h.patterns.of_some hj) name
    rw [hname] at hget
    obtain ⟨p, hp, hof⟩ := hget
    exact ⟨p, hp, PatternOf.given hof (upToRate_defaults name)⟩
  unnamed ps name hj hname := by
    have hget := ofPattern.ofMap_getElem? (h.patterns.of_some hj) name
    rw [hname] at hget
    exact hget
  queue hj := h.queue.of_none hj
  queueGiven v hj := h.queue.of_some hj

/-- What `FromJson` is to make of a text. -/
inductive Outcome (parse : String → Parsed) (jsonStr : String) : Except Fault Config → Prop where
  | empty :
    jsonStr = "" →
    Outcome parse jsonStr (.ok defaults)
  | malformed {what : String} :
    jsonStr ≠ "" →
    parse jsonStr = .parseError what ∨ parse jsonStr = .outOfRange what →
    Outcome parse jsonStr (.ok { defaults with warnings := ["JSON parse warning: " ++ what] })
  | mistyped {j : Value} {what : String} :
    jsonStr ≠ "" →
    parse jsonStr = .value j →
    configVerdict j = .mistyped →
    Outcome parse jsonStr (.ok { defaults with warnings := ["JSON parse warning: " ++ what] })
  | read {j : Value} {c : Config} :
    jsonStr ≠ "" →
    parse jsonStr = .value j →
    configVerdict j = .exact →
    Settings j c →
    c.warnings = [] →
    Outcome parse jsonStr (.ok c)
  | undefined {j : Value} :
    jsonStr ≠ "" →
    parse jsonStr = .value j →
    configVerdict j = .undefined →
    Outcome parse jsonStr (.error .undefined)

lemma fromJson_outcome (parse : String → Parsed) (jsonStr : String) :
    Outcome parse jsonStr (Config.fromJson parse jsonStr) := by
  unfold Config.fromJson
  by_cases hs : jsonStr = ""
  · rw [if_pos hs]
    exact .empty hs
  · rw [if_neg hs]
    cases hp : parse jsonStr with
    | parseError what => exact .malformed hs (.inl hp)
    | outOfRange what => exact .malformed hs (.inr hp)
    | value j =>
      have htracks := tracks_readJson j
      have hplain := configVerdict_ne_altered j
      have hbind : (Parsed.value j).get >>= (fun j => Config.readJson j {}) =
          Config.readJson j {} := rfl
      rw [hbind]
      generalize Config.readJson j {} = r at htracks
      generalize hv : configVerdict j = v at htracks hplain
      cases htracks with
      | exact hof => exact .read hs hp hv hof.settings hof.warnings
      | altered => exact absurd rfl hplain
      | mistyped => exact .mistyped hs hp hv
      | undefined => exact .undefined hs hp hv

section RoundTrip
open Json.Reader

lemma PatternConfig.fromJson_toJson (p d : PatternConfig) :
    PatternConfig.fromJson p.toJson.reparsed d = .ok p := by
  unfold PatternConfig.fromJson PatternConfig.toJson
  rw [nested_reparsed rfl (get_reparsed_boolean p.enabled),
    nested_reparsed rfl (get_reparsed_ofInt p.channels),
    nested_reparsed rfl (get_reparsed_ofInt p.producersPerChannel),
    nested_reparsed rfl (get_reparsed_ofInt p.consumersPerChannel),
    nested_reparsed rfl (get_reparsed_boolean p.consumerGroup),
    nested_reparsed rfl (get_reparsed_ofInt p.sendersPerChannel),
    nested_reparsed rfl (get_reparsed_ofInt p.respondersPerChannel),
    nested_reparsed rfl (get_reparsed_ofInt p.rate)]
  rfl

lemma QueueConfig.fromJson_toJson (q d : QueueConfig) :
    QueueConfig.fromJson q.toJson.reparsed d = .ok q := by
  unfold QueueConfig.fromJson QueueConfig.toJson
  rw [nested_reparsed rfl (get_reparsed_ofInt q.pollMaxMessages),
    nested_reparsed rfl (get_reparsed_ofInt q.pollWaitTimeoutSeconds),
    nested_reparsed rfl (get_reparsed_boolean q.autoAck)]
  rfl

/-- None of the v2 forms is written. -/
lemma inner_toJson (c : Config) (key : String) :
    inner c.toJson.reparsed "broker" key = none ∧ inner c.toJson.reparsed "warmup" key = none ∧
      inner c.toJson.reparsed "message" key = none ∧ text c.toJson.reparsed "duration" = none := by
  unfold inner text Config.toJson
  rw [Value.find?_reparsed, Value.find?_reparsed, Value.find?_reparsed, Value.find?_reparsed,
    Value.find?_record, Value.find?_record, Value.find?_record, Value.find?_record]
  exact ⟨rfl, rfl, rfl, rfl⟩

lemma Config.readJson_toJson (c d : Config) :
    Config.readJson c.toJson.reparsed d =
      .ok { c with metricsPort := d.metricsPort, warnings := d.warnings } := by
  obtain ⟨hbroker, -, -, hduration⟩ := inner_toJson c "address"
  obtain ⟨-, hwarmup, -, -⟩ := inner_toJson c "warmup_duration"
  obtain ⟨-, -, hmessage, -⟩ := inner_toJson c "size_bytes"
  have hbrokerAddress : ∀ a, ofString.nested c.toJson.reparsed "broker_address" a =
      .ok c.brokerAddress := nested_reparsed rfl (get_reparsed_string _)
  have hclientIdPrefix : ∀ a, ofString.nested c.toJson.reparsed "client_id_prefix" a =
      .ok c.clientIdPrefix := nested_reparsed rfl (get_reparsed_string _)
  have hdurationSeconds : ∀ a, ofInt.nested c.toJson.reparsed "duration_seconds" a =
      .ok c.durationSeconds := nested_reparsed rfl (get_reparsed_ofInt _)
  have hwarmupSeconds : ∀ a, ofInt.nested c.toJson.reparsed "warmup_seconds" a =
      .ok c.warmupSeconds := nested_reparsed rfl (get_reparsed_ofInt _)
  have hpayloadSize : ∀ a, ofInt.nested c.toJson.reparsed "payload_size" a =
      .ok c.payloadSize := nested_reparsed rfl (get_reparsed_ofInt _)
  have hrunId : ∀ a, ofString.nested c.toJson.reparsed "run_id" a = .ok c.runId :=
    nested_reparsed rfl (get_reparsed_string _)
  have hpatterns : ∀ a, ofPattern.ofMap.nested c.toJson.reparsed "patterns" a = .ok c.patterns :=
    nested_reparsed rfl (get_reparsed_ofMap _ (fun p => p.fromJson_toJson {}) c.patterns)
  have hqueue : ∀ b a, (ofQueue b).nested c.toJson.reparsed "queue" a = .ok c.queue := fun b =>
    nested_reparsed rfl (c.queue.fromJson_toJson b)
  unfold Config.readJson
  simp only [hbroker, hduration, hwarmup, hmessage, hbrokerAddress, hclientIdPrefix,
    hdurationSeconds, hwarmupSeconds, hpayloadSize, hrunId, hpatterns, hqueue]
  rfl

end RoundTrip

lemma fromJson_of_read {parse : String → Parsed} {jsonStr : String} {j : Value} {c : Config}
    (hne : jsonStr ≠ "") (hparse : parse jsonStr = .value j)
    (hread : Config.readJson j {} = .ok c) : Config.fromJson parse jsonStr = .ok c := by
  have hbind : ((parse jsonStr).get >>= fun j => Config.readJson j {}) = .ok c := by
    rw [hparse]
    exact hread
  unfold Config.fromJson
  rw [if_neg hne, hbind]

/-- `FromJson` throws nothing: it gives the settings that a text stands for, or the defaults with
one warning. What was written is read back. -/
theorem fromJson_right (parse : String → Parsed) (dump : Value → String) :
    (∀ jsonStr, Outcome parse jsonStr (Config.fromJson parse jsonStr)) ∧
      ∀ c : Config, dump c.toJson ≠ "" → parse (dump c.toJson) = .value c.toJson.reparsed →
        Config.fromJson parse (dump c.toJson) =
          .ok { c with metricsPort := 0, warnings := [] } := by
  refine ⟨fromJson_outcome parse, ?_⟩
  intro c hne hparse
  exact fromJson_of_read hne hparse (c.readJson_toJson {})

/-- A configuration of one minute. -/
theorem fromJson_one_minute :
    let c : Config := { durationSeconds := 60, runId := "r1" }
    let text :=
      "\x7b\"broker_address\":\"localhost:50000\",\"client_id_prefix\":\"cpp-burnin\"," ++
      "\"duration_seconds\":60,\"patterns\":\x7b\x7d,\"payload_size\":256,\"queue\":" ++
      "\x7b\"auto_ack\":false,\"poll_max_messages\":10,\"poll_wait_timeout_seconds\":5\x7d," ++
      "\"run_id\":\"r1\",\"warmup_seconds\":10\x7d"
    Config.fromJson
      (fun s => if s = text then .value c.toJson.reparsed else .parseError "syntax error") text =
        .ok c := by
  intro c text
  have hne : text ≠ "" := by decide
  exact (fromJson_right (fun s => if s = text then .value c.toJson.reparsed
    else .parseError "syntax error") fun _ => text).2 c hne (if_pos rfl)

/-- A text that mentions one pattern leaves out the others and the default rate, and a duration of
the wrong type is not reported. -/
theorem fromJson_partial :
    (∃ c, Config.fromJson (fun _ => .value (.object [("patterns", .object [("events", .object
        [("channels", .unsigned 2)])])]))
        "\x7b\"patterns\":\x7b\"events\":\x7b\"channels\":2\x7d\x7d\x7d" = .ok c ∧
      c.patterns["commands"]? = none ∧ defaults.patterns["commands"]? = some (defaultPattern 20) ∧
      c.patterns["events"]?.map PatternConfig.rate = some 50 ∧
      defaults.patterns["events"]?.map PatternConfig.rate = some 100) ∧
    Config.fromJson (fun _ => .value (.object [("duration", .unsigned 5)]))
      "\x7b\"duration\":5\x7d" = .ok defaults := by
  constructor
  · refine ⟨_, rfl, ?_, ?_, ?_, ?_⟩
    all_goals decide
  · rfl

end KubeMQ.Burnin
