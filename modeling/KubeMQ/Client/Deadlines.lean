import KubeMQ.Client.Rpc
import KubeMQ.Transport.Operations

/-!
# Time limits

The limits that a caller gives and what reaches the wire and the context of the call:
`Request.Timeout` and `Request.CacheTTL`, which are narrowed to `int32_t`, and the deadline that
`ReceiveQueueMessages` and `AckAllQueueMessages` compute in `int32_t`. `AckAllQueueMessages` of
`client_queues.cc` is here as well.
-/

namespace KubeMQ

structure AckAllQueueMessagesRequest where
  requestId : String := ""
  clientId : String := ""
  channel : String := ""
  waitTimeSeconds : Int := 0

structure AckAllQueueMessagesResponse where
  requestId : String
  affectedMessages : Nat
  isError : Bool
  error : String

/-- Addition in `int32_t`, which is undefined when it overflows. -/
def int32Add (a b : Int) : Option Int :=
  if -2 ^ 31 ≤ a + b ∧ a + b < 2 ^ 31 then some (a + b) else none

/-- The `timeout` of `ReceiveQueueMessages` and `AckAllQueueMessages` in seconds. -/
def waitTimeout (waitTimeSeconds : Int) : Option Int :=
  if waitTimeSeconds > 0 then int32Add waitTimeSeconds 5 else some 30

/-- The deadline `d` is computed without overflow and lies after the wait of the server. -/
def OutlastsWait (waitTimeSeconds d : Int) : Prop :=
  ∃ t, waitTimeout waitTimeSeconds = some t ∧ d = seconds t ∧ seconds waitTimeSeconds < d

/-- `n` seconds are the duration, rounded up or down. -/
def Rounds (n ms : Int) : Prop := seconds n < ms + 1000 ∧ ms < seconds n + 1000

namespace Client

def ackAllQueueMessagesRequest (opts : ClientOptions) (uuid : String) (closed : Bool)
    (request : AckAllQueueMessagesRequest) : StatusOr Proto.AckAllQueueMessagesRequest :=
  let channel := firstNonEmpty request.channel opts.defaultChannel
  checked [checkClosed closed, validateChannel channel "AckAllQueueMessages"]
    { requestID := firstNonEmpty request.requestId uuid
      clientID := firstNonEmpty request.clientId opts.clientId
      channel := channel
      waitTimeSeconds := request.waitTimeSeconds }

def ackAllQueueMessagesResponse (request : Proto.AckAllQueueMessagesRequest) :
    StatusOr Proto.AckAllQueueMessagesResponse → StatusOr AckAllQueueMessagesResponse
  | .error s => .error s
  | .value r =>
    if r.isError then
      .error ⟨.kFatal, r.error, "AckAllQueueMessages", request.channel, request.requestID⟩
    else
      .value
        { requestId := r.requestID
          affectedMessages := r.affectedMessages
          isError := r.isError
          error := r.error }

def ackAllQueueMessages (stub : Stub) (opts : ClientOptions) (uuid : String)
    (request : AckAllQueueMessagesRequest) (s : Session) :
    StatusOr AckAllQueueMessagesResponse × Session :=
  match ackAllQueueMessagesRequest opts uuid s.world.closed request with
  | .error e => (.error e, s)
  | .value q =>
    let r := GrpcTransport.ackAllQueueMessages stub opts q s
    (ackAllQueueMessagesResponse q r.1, r.2)

/-- The time to live that `SendQuery` settles on. -/
def effectiveCacheTtl (opts : ClientOptions) (query : Query) : Int :=
  if query.cacheTtl ≤ 0 ∧ opts.defaultCacheTtl > 0 then opts.defaultCacheTtl else query.cacheTtl

section Numbers

/-- A positive number of milliseconds survives the narrowing exactly when it fits. -/
lemma int32_eq_iff {n : Int} (h : 0 < n) : int32 n = n ↔ n < 2 ^ 31 := by
  unfold int32
  rw [Int.bmod_def]
  omega

/-- The deadline of `SendRequest` for a narrowed timeout. -/
def requestDeadline (p : Proto.Request) : Int :=
  if p.timeout > 0 then p.timeout else GrpcTransport.kDefaultRPCTimeoutCount

lemma timeout_kept_iff {p : Proto.Request} {n : Int} (h : 0 < n) (hp : p.timeout = int32 n) :
    p.timeout = n ∧ requestDeadline p = n ↔ n < 2 ^ 31 := by
  rw [hp, int32_eq_iff h, and_iff_left_iff_imp]
  intro hlt
  rw [requestDeadline, hp, (int32_eq_iff h).mpr hlt, if_pos h]

/-- Whole seconds that fit are kept; fractions of a second become nothing, and more wraps. -/
lemma ttl_kept_iff {ms : Int} (h : 0 < ms) :
    0 < int32 (ms.tdiv 1000) ∧ Rounds (int32 (ms.tdiv 1000)) ms ↔
      1000 ≤ ms ∧ ms < seconds (2 ^ 31) := by
  have hdiv : ms.tdiv 1000 = ms / 1000 := Int.tdiv_eq_ediv_of_nonneg h.le
  unfold Rounds seconds int32
  rw [hdiv, Int.bmod_def]
  omega

/-- The deadline is good for every wait but the five that overflow. -/
lemma outlastsWait_iff {wait : Int} :
    OutlastsWait wait (seconds (if wait > 0 then wait + 5 else 30)) ↔ wait ≤ 2 ^ 31 - 6 := by
  unfold OutlastsWait waitTimeout
  by_cases hpos : wait > 0
  · simp only [if_pos hpos]
    unfold int32Add
    constructor
    · rintro ⟨t, ht, -, -⟩
      split at ht
      · next hfits => omega
      · cases ht
    · intro hle
      have hfits : -2 ^ 31 ≤ wait + 5 ∧ wait + 5 < 2 ^ 31 := by omega
      refine ⟨wait + 5, if_pos hfits, rfl, ?_⟩
      unfold seconds
      omega
  · simp only [if_neg hpos]
    refine iff_of_true ⟨30, rfl, rfl, ?_⟩ (by omega)
    unfold seconds
    omega

end Numbers

section Calls

variable {c : Config} {w : World}

/-- The request of `SendCommand` and the deadline of its call. -/
lemma sendCommand_made {command : Command} {p : Proto.Request} {authorization : Option String}
    {d : Int} (h : (sendCommand c command w).2.calls =
      w.calls ++ [⟨.sendRequest p, authorization, d⟩]) :
    commandRequest c.opts c.uuid w.closed command = .value p ∧ d = requestDeadline p := by
  obtain ⟨q, hq, hsent⟩ := unary_made h
  obtain ⟨hrpc, hd⟩ := GrpcTransport.attempt_made hsent
  cases hrpc
  exact ⟨hq, hd⟩

/-- The request of `SendQuery` and the deadline of its call. -/
lemma sendQuery_made {query : Query} {p : Proto.Request} {authorization : Option String}
    {d : Int} (h : (sendQuery c query w).2.calls =
      w.calls ++ [⟨.sendRequest p, authorization, d⟩]) :
    queryRequest c.opts c.uuid w.closed query = .value p ∧ d = requestDeadline p := by
  obtain ⟨q, hq, hsent⟩ := unary_made h
  obtain ⟨hrpc, hd⟩ := GrpcTransport.attempt_made hsent
  cases hrpc
  exact ⟨hq, hd⟩

lemma receiveQueueMessages_made {uuids : ℕ → String} {request : ReceiveQueueMessagesRequest}
    {p : Proto.ReceiveQueueMessagesRequest} {authorization : Option String} {d : Int}
    (h : (receiveQueueMessages c uuids request w).2.calls =
      w.calls ++ [⟨.receiveQueueMessages p, authorization, d⟩]) :
    receiveQueueMessagesRequest c.opts c.uuid w.closed request = .value p ∧
      d = seconds (if p.waitTimeSeconds > 0 then p.waitTimeSeconds + 5 else 30) := by
  obtain ⟨q, hq, hsent⟩ := unary_made h
  obtain ⟨hrpc, hd⟩ := GrpcTransport.attempt_made hsent
  cases hrpc
  exact ⟨hq, hd⟩

lemma ackAllQueueMessages_made {stub : Stub} {opts : ClientOptions} {uuid : String}
    {request : AckAllQueueMessagesRequest} {s : Session} {p : Proto.AckAllQueueMessagesRequest}
    {context : ClientContext}
    (h : (ackAllQueueMessages stub opts uuid request s).2.uses =
      s.uses ++ [⟨.ackAllQueueMessages p, context⟩]) :
    ackAllQueueMessagesRequest opts uuid s.world.closed request = .value p ∧
      context.deadline =
        some (seconds (if p.waitTimeSeconds > 0 then p.waitTimeSeconds + 5 else 30)) := by
  unfold ackAllQueueMessages at h
  cases hreq : ackAllQueueMessagesRequest opts uuid s.world.closed request with
  | error e =>
    rw [hreq] at h
    cases List.self_eq_append_right.mp h
  | value q =>
    rw [hreq] at h
    obtain ⟨hrpc, hd⟩ := GrpcTransport.use_made h
    cases hrpc
    exact ⟨rfl, hd⟩

end Calls

/-- A limit that is given reaches the wire and the context of the call as it is, exactly when it is
in range: milliseconds that fit in 31 bits, a time to live of at least a second and less than
`2 ^ 31` seconds, a wait that leaves room for five seconds more. -/
theorem time_limits_kept_iff (c : Config) (w : World) :
    (∀ command p authorization d, 0 < command.timeout →
      (sendCommand c command w).2.calls = w.calls ++ [⟨.sendRequest p, authorization, d⟩] →
      (p.timeout = command.timeout ∧ d = command.timeout ↔ command.timeout < 2 ^ 31)) ∧
    (∀ query p authorization d, 0 < query.timeout →
      (sendQuery c query w).2.calls = w.calls ++ [⟨.sendRequest p, authorization, d⟩] →
      (p.timeout = query.timeout ∧ d = query.timeout ↔ query.timeout < 2 ^ 31)) ∧
    (∀ query p authorization d, 0 < effectiveCacheTtl c.opts query →
      (sendQuery c query w).2.calls = w.calls ++ [⟨.sendRequest p, authorization, d⟩] →
      (0 < p.cacheTTL ∧ Rounds p.cacheTTL (effectiveCacheTtl c.opts query) ↔
        1000 ≤ effectiveCacheTtl c.opts query ∧
          effectiveCacheTtl c.opts query < seconds (2 ^ 31))) ∧
    (∀ uuids request p authorization d,
      (receiveQueueMessages c uuids request w).2.calls =
        w.calls ++ [⟨.receiveQueueMessages p, authorization, d⟩] →
      (OutlastsWait p.waitTimeSeconds d ↔ request.waitTimeSeconds ≤ 2 ^ 31 - 6)) ∧
    ∀ stub uuid request s p context d,
      (ackAllQueueMessages stub c.opts uuid request s).2.uses =
        s.uses ++ [⟨.ackAllQueueMessages p, context⟩] → context.deadline = some d →
      (OutlastsWait p.waitTimeSeconds d ↔ request.waitTimeSeconds ≤ 2 ^ 31 - 6) := by
  refine ⟨?_, ?_, ?_, ?_, ?_⟩
  · intro command p authorization d hpos h
    obtain ⟨hreq, rfl⟩ := sendCommand_made h
    obtain ⟨rfl, -⟩ := checked_value hreq
    apply timeout_kept_iff hpos
    simp only [if_neg (Int.not_le.mpr hpos)]
  · intro query p authorization d hpos h
    obtain ⟨hreq, rfl⟩ := sendQuery_made h
    obtain ⟨rfl, -⟩ := checked_value hreq
    apply timeout_kept_iff hpos
    simp only [if_neg (Int.not_le.mpr hpos)]
  · intro query p authorization d hpos h
    obtain ⟨hreq, -⟩ := sendQuery_made h
    obtain ⟨hp, -⟩ := checked_value hreq
    have httl : p.cacheTTL = int32 ((effectiveCacheTtl c.opts query).tdiv 1000) := by
      rw [hp]
      exact if_pos hpos
    rw [httl]
    exact ttl_kept_iff hpos
  · intro uuids request p authorization d h
    obtain ⟨hreq, rfl⟩ := receiveQueueMessages_made h
    obtain ⟨rfl, -⟩ := checked_value hreq
    exact outlastsWait_iff
  · intro stub uuid request s p context d h hd
    obtain ⟨hreq, hdeadline⟩ := ackAllQueueMessages_made h
    obtain ⟨rfl, -⟩ := checked_value hreq
    rw [hdeadline] at hd
    cases hd
    exact outlastsWait_iff

/-- The longest timeout that a caller may give, as far as the wire is concerned, and one more. -/
def longCommand : Command where
  id := "c1"
  channel := "orders"
  body := [1]
  timeout := 2147483648

/-- A query whose time to live is half a second. -/
def briefQuery : Query where
  id := "q1"
  channel := "stock"
  body := [1]
  timeout := 5000
  cacheKey := "k"
  cacheTtl := 500

/-- A timeout of `2 ^ 31` milliseconds is sent as a negative one, and the call is given up after
ten milliseconds; half a second is sent as none; and a wait of `2 ^ 31 - 5` seconds overflows. -/
theorem time_limits_distorted :
    (∃ p, (sendCommand (sampleClient "a" ⟨"", "", "", "", [], false, 0, true, "", ∅⟩) longCommand
        freshWorld).2.calls = [⟨.sendRequest p, none, 10⟩] ∧ p.timeout = -2147483648) ∧
    (∃ p, (sendQuery (sampleClient "a" ⟨"", "", "", "", [], false, 0, true, "", ∅⟩) briefQuery
        freshWorld).2.calls = [⟨.sendRequest p, none, 5000⟩] ∧ p.cacheTTL = 0) ∧
    waitTimeout 2147483643 = none := by
  refine ⟨⟨_, rfl, rfl⟩, ⟨_, rfl, rfl⟩, rfl⟩

theorem time_limits_kept_iff_sample :
    ∃ p, (sendQuery (sampleClient "a" ⟨"", "", "", "", [], false, 0, true, "", ∅⟩) sampleQuery
        freshWorld).2.calls = [⟨.sendRequest p, none, 5000⟩] ∧
      p.timeout = 5000 ∧ 0 < p.cacheTTL ∧ Rounds p.cacheTTL 60000 := by
  refine ⟨_, rfl, ?_, ?_⟩
  · have hmain := time_limits_kept_iff
      (sampleClient "a" ⟨"", "", "", "", [], false, 0, true, "", ∅⟩) freshWorld
    exact ((hmain.2.1 sampleQuery _ none 5000 (by decide) rfl).mpr (by decide)).1
  · have hmain := time_limits_kept_iff
      (sampleClient "a" ⟨"", "", "", "", [], false, 0, true, "", ∅⟩) freshWorld
    exact (hmain.2.2.1 sampleQuery _ none 5000 (by decide) rfl).mpr (by decide)

end Client

end KubeMQ
