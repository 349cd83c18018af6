import KubeMQ.Burnin.Duration
import KubeMQ.Json.Records

/-!
# The burn-in configuration

`config/config.{h,cc}` and `config/defaults.h`: the records, their defaults, and how they are
written to JSON and read from it. The JSON library is the parameter `parse`. The members that the
functions neither write nor read, and the loader of the YAML file, are left out; `metricsPort` and
`warnings` are no part of the JSON.
-/

namespace KubeMQ.Burnin

open Json (Fault Parsed Reader StringMap Tracks Value Verdict)

structure PatternConfig where
  enabled : Bool := true
  channels : Int32 := 1
  producersPerChannel : Int32 := 1
  consumersPerChannel : Int32 := 1
  consumerGroup : Bool := false
  sendersPerChannel : Int32 := 1
  respondersPerChannel : Int32 := 1
  rate : Int32 := 50
  deriving DecidableEq

structure QueueConfig where
  pollMaxMessages : Int32 := 10
  pollWaitTimeoutSeconds : Int32 := 5
  autoAck : Bool := false
  deriving DecidableEq

structure Config where
  brokerAddress : String := "localhost:50000"
  clientIdPrefix : String := "cpp-burnin"
  durationSeconds : Int32 := 900
  warmupSeconds : Int32 := 10
  runId : String := ""
  payloadSize : Int32 := 256
  patterns : StringMap PatternConfig := ∅
  queue : QueueConfig := {}
  metricsPort : Int32 := 0
  warnings : List String := []

/-- The defaults of a pattern, which differ in the rate alone. -/
def defaultPattern (rate : Int32) : PatternConfig where
  enabled := true
  channels := 1
  producersPerChannel := 1
  consumersPerChannel := 1
  consumerGroup := false
  sendersPerChannel := 1
  respondersPerChannel := 1
  rate := rate

def Config.setDefaults (c : Config) : Config :=
  { c with
    brokerAddress := "localhost:50000"
    clientIdPrefix := "cpp-burnin"
    durationSeconds := 900
    warmupSeconds := 10
    payloadSize := 256
    patterns := (((((c.patterns.insert "events" (defaultPattern 100)).insert
      "events_store" (defaultPattern 50)).insert
      "queue_simple" (defaultPattern 50)).insert
      "queue_stream" (defaultPattern 50)).insert
      "commands" (defaultPattern 20)).insert
      "queries" (defaultPattern 20)
    queue := ⟨10, 5, false⟩ }

/-- What an empty request is run with. -/
def defaults : Config := Config.setDefaults {}

/-! ### Writing -/

def PatternConfig.toJson (p : PatternConfig) : Value :=
  .record
    [("enabled", .boolean p.enabled),
      ("channels", .ofInt p.channels),
      ("producers_per_channel", .ofInt p.producersPerChannel),
      ("consumers_per_channel", .ofInt p.consumersPerChannel),
      ("consumer_group", .boolean p.consumerGroup),
      ("senders_per_channel", .ofInt p.sendersPerChannel),
      ("responders_per_channel", .ofInt p.respondersPerChannel),
      ("rate", .ofInt p.rate)]

def QueueConfig.toJson (q : QueueConfig) : Value :=
  .record
    [("poll_max_messages", .ofInt q.pollMaxMessages),
      ("poll_wait_timeout_seconds", .ofInt q.pollWaitTimeoutSeconds),
      ("auto_ack", .boolean q.autoAck)]

def Config.toJson (c : Config) : Value :=
  .record
    [("broker_address", .string c.brokerAddress),
      ("client_id_prefix", .string c.clientIdPrefix),
      ("duration_seconds", .ofInt c.durationSeconds),
      ("warmup_seconds", .ofInt c.warmupSeconds),
      ("run_id", .string c.runId),
      ("payload_size", .ofInt c.payloadSize),
      ("patterns", .ofMap PatternConfig.toJson c.patterns),
      ("queue", c.queue.toJson)]

/-! ### Reading -/

/-- `from_json` of a pattern, over what the record holds before. -/
def PatternConfig.fromJson (j : Value) (p : PatternConfig) : Except Fault PatternConfig := do
  let enabled ← Reader.ofBoolean.nested j "enabled" p.enabled
  let channels ← Reader.ofInt.nested j "channels" p.channels
  let producersPerChannel ← Reader.ofInt.nested j "producers_per_channel" p.producersPerChannel
  let consumersPerChannel ← Reader.ofInt.nested j "consumers_per_channel" p.consumersPerChannel
  let consumerGroup ← Reader.ofBoolean.nested j "consumer_group" p.consumerGroup
  let sendersPerChannel ← Reader.ofInt.nested j "senders_per_channel" p.sendersPerChannel
  let respondersPerChannel ← Reader.ofInt.nested j "responders_per_channel" p.respondersPerChannel
  let rate ← Reader.ofInt.nested j "rate" p.rate
  return ⟨enabled, channels, producersPerChannel, consumersPerChannel, consumerGroup,
    sendersPerChannel, respondersPerChannel, rate⟩

/-- The pattern `p` that a value makes of the pattern `d`. -/
structure PatternOf (d : PatternConfig) (j : Value) (p : PatternConfig) : Prop where
  enabled : Reader.ofBoolean.Nested j "enabled" d.enabled p.enabled
  channels : Reader.ofInt.Nested j "channels" d.channels p.channels
  producersPerChannel :
    Reader.ofInt.Nested j "producers_per_channel" d.producersPerChannel p.producersPerChannel
  consumersPerChannel :
    Reader.ofInt.Nested j "consumers_per_channel" d.consumersPerChannel p.consumersPerChannel
  consumerGroup : Reader.ofBoolean.Nested j "consumer_group" d.consumerGroup p.consumerGroup
  sendersPerChannel :
    Reader.ofInt.Nested j "senders_per_channel" d.sendersPerChannel p.sendersPerChannel
  respondersPerChannel :
    Reader.ofInt.Nested j "responders_per_channel" d.respondersPerChannel p.respondersPerChannel
  rate : Reader.ofInt.Nested j "rate" d.rate p.rate

/-- A pattern is read into a default-constructed record. -/
def ofPattern : Reader PatternConfig where
  get j := PatternConfig.fromJson j {}
  verdict j := .all
    [Reader.ofBoolean.nestedVerdict j "enabled", Reader.ofInt.nestedVerdict j "channels",
      Reader.ofInt.nestedVerdict j "producers_per_channel",
      Reader.ofInt.nestedVerdict j "consumers_per_channel",
      Reader.ofBoolean.nestedVerdict j "consumer_group",
      Reader.ofInt.nestedVerdict j "senders_per_channel",
      Reader.ofInt.nestedVerdict j "responders_per_channel", Reader.ofInt.nestedVerdict j "rate"]
  Is := PatternOf {}
  tracks j := by
    have ints := Reader.tracks_nested Reader.ofInt j
    have bools := Reader.tracks_nested Reader.ofBoolean j
    apply Tracks.congr
    · apply (bools "enabled" _).bind
      intro enabled
      apply (ints "channels" _).bind
      intro channels
      apply (ints "producers_per_channel" _).bind
      intro producersPerChannel
      apply (ints "consumers_per_channel" _).bind
      intro consumersPerChannel
      apply (bools "consumer_group" _).bind
      intro consumerGroup
      apply (ints "senders_per_channel" _).bind
      intro sendersPerChannel
      apply (ints "responders_per_channel" _).bind
      intro respondersPerChannel
      apply (ints "rate" _).bind
      intro rate
      exact Tracks.pure _
    · intro p
      constructor
      · rintro ⟨_, h₁, _, h₂, _, h₃, _, h₄, _, h₅, _, h₆, _, h₇, _, h₈, rfl⟩
        exact ⟨h₁, h₂, h₃, h₄, h₅, h₆, h₇, h₈⟩
      · rintro ⟨h₁, h₂, h₃, h₄, h₅, h₆, h₇, h₈⟩
        exact ⟨_, h₁, _, h₂, _, h₃, _, h₄, _, h₅, _, h₆, _, h₇, _, h₈, rfl⟩

/-- `from_json` of the queue settings. -/
def QueueConfig.fromJson (j : Value) (q : QueueConfig) : Except Fault QueueConfig := do
  let pollMaxMessages ← Reader.ofInt.nested j "poll_max_messages" q.pollMaxMessages
  let pollWaitTimeoutSeconds ←
    Reader.ofInt.nested j "poll_wait_timeout_seconds" q.pollWaitTimeoutSeconds
  let autoAck ← Reader.ofBoolean.nested j "auto_ack" q.autoAck
  return ⟨pollMaxMessages, pollWaitTimeoutSeconds, autoAck⟩

structure QueueOf (d : QueueConfig) (j : Value) (q : QueueConfig) : Prop where
  pollMaxMessages : Reader.ofInt.Nested j "poll_max_messages" d.pollMaxMessages q.pollMaxMessages
  pollWaitTimeoutSeconds : Reader.ofInt.Nested j "poll_wait_timeout_seconds"
    d.pollWaitTimeoutSeconds q.pollWaitTimeoutSeconds
  autoAck : Reader.ofBoolean.Nested j "auto_ack" d.autoAck q.autoAck

def ofQueue (d : QueueConfig) : Reader QueueConfig where
  get j := QueueConfig.fromJson j d
  verdict j := .all
    [Reader.ofInt.nestedVerdict j "poll_max_messages",
      Reader.ofInt.nestedVerdict j "poll_wait_timeout_seconds",
      Reader.ofBoolean.nestedVerdict j "auto_ack"]
  Is := QueueOf d
  tracks j := by
    apply Tracks.congr
    · apply (Reader.tracks_nested Reader.ofInt j "poll_max_messages" _).bind
      intro pollMaxMessages
      apply (Reader.tracks_nested Reader.ofInt j "poll_wait_timeout_seconds" _).bind
      intro pollWaitTimeoutSeconds
      apply (Reader.tracks_nested Reader.ofBoolean j "auto_ack" _).bind
      intro autoAck
      exact Tracks.pure _
    · intro q
      constructor
      · rintro ⟨_, h₁, _, h₂, _, h₃, rfl⟩
        exact ⟨h₁, h₂, h₃⟩
      · rintro ⟨h₁, h₂, h₃⟩
        exact ⟨_, h₁, _, h₂, _, h₃, rfl⟩

/-- A duration string as a member. -/
inductive IsDuration : Value → Int32 → Prop where
  | string {s : String} {v : ℤ} :
    parseDurationToSeconds s.toList = some v →
    IsDuration (.string s) (Int32.ofInt v)

/-- `ParseDurationToSeconds(get<std::string>())`. -/
def ofDuration : Reader Int32 where
  get j := do
    let s ← Reader.ofString.get j
    match parseDurationToSeconds s.toList with
    | some v => .ok (Int32.ofInt v)
    | none => .error .undefined
  verdict
    | .string s => if (parseDurationToSeconds s.toList).isSome then .exact else .undefined
    | _ => .mistyped
  Is := IsDuration
  tracks j := by
    cases j with
    | string s =>
      dsimp only
      show Tracks _ (match parseDurationToSeconds s.toList with
        | some v => .ok (Int32.ofInt v)
        | none => .error .undefined) _
      cases h : parseDurationToSeconds s.toList with
      | some v => exact .exact (.string h)
      | none =>
        apply Tracks.undefined
        intro n hn
        cases hn with
        | string hs => exact absurd (h.symm.trans hs) nofun
    | _ => exact .mistyped nofun

/-- `j[outer][key]`, where `j[outer]` is an object. -/
def inner (j : Value) (outer key : String) : Option Value :=
  match j.find? outer with
  | some v => if v.isObject then v.find? key else none
  | none => none

/-- `j[key]`, where it is a string. -/
def text (j : Value) (key : String) : Option Value :=
  match j.find? key with
  | some (.string s) => some (.string s)
  | _ => none

/-- `from_json` of a configuration. -/
def Config.readJson (j : Value) (c : Config) : Except Fault Config := do
  let c := c.setDefaults
  let brokerAddress ← Reader.ofString.optional (inner j "broker" "address") c.brokerAddress
  let brokerAddress ← Reader.ofString.nested j "broker_address" brokerAddress
  let clientIdPrefix ← Reader.ofString.nested j "client_id_prefix" c.clientIdPrefix
  let durationSeconds ← ofDuration.optional (text j "duration") c.durationSeconds
  let durationSeconds ← Reader.ofInt.nested j "duration_seconds" durationSeconds
  let warmupSeconds ← ofDuration.optional (inner j "warmup" "warmup_duration") c.warmupSeconds
  let warmupSeconds ← Reader.ofInt.nested j "warmup_seconds" warmupSeconds
  let payloadSize ← Reader.ofInt.optional (inner j "message" "size_bytes") c.payloadSize
  let payloadSize ← Reader.ofInt.nested j "payload_size" payloadSize
  let runId ← Reader.ofString.nested j "run_id" c.runId
  let patterns ← ofPattern.ofMap.nested j "patterns" c.patterns
  let queue ← (ofQueue c.queue).nested j "queue" c.queue
  return { c with brokerAddress, clientIdPrefix, durationSeconds, warmupSeconds, payloadSize, runId,
                  patterns, queue }

/-- `FromJson`. Every exception of the library is a `json::exception`. -/
def Config.fromJson (parse : String → Parsed) (jsonStr : String) : Except Fault Config :=
  let cfg := defaults
  let warned (what : String) : Config :=
    { cfg with warnings := cfg.warnings ++ ["JSON parse warning: " ++ what] }
  if jsonStr = "" then .ok cfg
  else
    match (parse jsonStr).get >>= fun j => Config.readJson j {} with
    | .ok c => .ok c
    | .error (.parseError what) => .ok (warned what)
    | .error (.typeError what) => .ok (warned what)
    | .error (.outOfRange what) => .ok (warned what)
    | .error .undefined => .error .undefined

end KubeMQ.Burnin
