import KubeMQ.Burnin.CreateWorkers
import KubeMQ.Burnin.Metrics

/-!
# The report of a burn-in run

The report that `RunLoop` builds in `burnin/engine/engine.cc`, with the report of each pattern. It is
built from the configuration, the number of workers that the run had and a snapshot of the metrics.
The rates and the latencies in it are constants of the source.
-/

namespace KubeMQ.Burnin

open Json (Value)

def Pattern.all : List Pattern :=
  [.events, .eventsStore, .queueStream, .queueSimple, .commands, .queries]

/-- The patterns with senders and responders. -/
def Pattern.isRpc : Pattern → Bool
  | .commands => true
  | .queries => true
  | _ => false

/-- A counter of a snapshot, zero when the pattern is not there. -/
def Snapshot.shown (x : Snapshot) (name : String) (c : Counter) : UInt64 :=
  match x.patterns.find? (fun r => r.key = (name, c)) with
  | some r => UInt64.ofNat r.count
  | none => 0

/-- The loop over the members of a snapshot that adds up the errors. -/
def Snapshot.totalErrors (x : Snapshot) : UInt64 := UInt64.ofNat (x.sum .errors)

def disabledReport : Value := .record [("enabled", .boolean false)]

def zeroLatency : Value :=
  .record [("p50_ms", .integer 0), ("p95_ms", .integer 0), ("p99_ms", .integer 0),
    ("p999_ms", .integer 0)]

/-- The members of the report of an enabled pattern, the first ones and those of its kind. -/
def patternFields (pc : PatternConfig) (x : Snapshot) (p : Pattern) : List (String × Value) :=
  [("enabled", .boolean true),
    ("channels", .ofInt pc.channels),
    ("sent", .unsigned (x.shown p.name .sent)),
    ("errors", .unsigned (x.shown p.name .errors)),
    ("reconnections", .integer 0),
    ("target_rate", .ofInt pc.rate),
    ("avg_rate", .integer 0),
    ("peak_rate", .integer 0),
    ("bytes_sent", .unsigned (x.shown p.name .bytesSent)),
    ("bytes_received", .unsigned (x.shown p.name .bytesReceived)),
    ("latency", zeroLatency)] ++
  if p.isRpc then
    [("senders_per_channel", .ofInt pc.sendersPerChannel),
      ("responders_per_channel", .ofInt pc.respondersPerChannel),
      ("responses_success", .unsigned (x.shown p.name .rpcSuccess)),
      ("responses_timeout", .unsigned (x.shown p.name .rpcTimeout)),
      ("responses_error", .unsigned (x.shown p.name .rpcError)),
      ("senders", .array []),
      ("responders", .array [])]
  else
    [("producers_per_channel", .ofInt pc.producersPerChannel),
      ("consumers_per_channel", .ofInt pc.consumersPerChannel),
      ("consumer_group", .boolean pc.consumerGroup),
      ("received", .unsigned (x.shown p.name .received)),
      ("lost", .unsigned (x.shown p.name .lost)),
      ("duplicated", .unsigned (x.shown p.name .duplicated)),
      ("corrupted", .unsigned (x.shown p.name .corrupted)),
      ("out_of_order", .unsigned (x.shown p.name .outOfOrder)),
      ("loss_pct", .integer 0),
      ("producers", .array []),
      ("consumers", .array [])]

/-- One of the six members of `report_patterns`. -/
def patternReport (c : Config) (x : Snapshot) (p : Pattern) : Value :=
  match c.patterns[p.name]? with
  | none => disabledReport
  | some pc => if !pc.enabled then disabledReport else .record (patternFields pc x p)

/-- What the report of a run is built from, besides the configuration: the members of the engine that
it names, the clock, the local `worker_count` and the snapshot. -/
structure ReportInput where
  runId : String
  brokerAddress : String
  startedAt : String
  endedAt : String
  elapsed : Int64
  workerCount : Int32
  snapshot : Snapshot

/-- What `RunLoop` assigns to `last_report_`. -/
def buildReport (c : Config) (y : ReportInput) : Value :=
  .record
    [("run_id", .string y.runId),
      ("sdk", .string "cpp"),
      ("sdk_version", .string "1.0.0"),
      ("mode", .string "soak"),
      ("broker_address", .string y.brokerAddress),
      ("started_at", .string y.startedAt),
      ("ended_at", .string y.endedAt),
      ("duration_seconds", .integer y.elapsed),
      ("all_patterns_enabled", .boolean (y.workerCount = 6)),
      ("warmup_active", .boolean false),
      ("patterns", .record (Pattern.all.map fun p => (p.name, patternReport c y.snapshot p))),
      ("resources", .record
        [("peak_rss_mb", .integer 0),
          ("baseline_rss_mb", .integer 0),
          ("memory_growth_factor", .float 1),
          ("peak_workers", .ofInt y.workerCount)]),
      ("verdict", .record
        [("result", .string
            (if y.snapshot.totalErrors = 0 then "PASSED" else "PASSED_WITH_WARNINGS")),
          ("warnings", .array []),
          ("checks", .object [])])]

/-! ### How many workers a run has -/

lemma Pattern.mem_all (p : Pattern) : p ∈ Pattern.all := by
  cases p <;> decide

end KubeMQ.Burnin
