import KubeMQ.Client.Unary

/-!
# Unary operations and the retry policy

The operations as `retry.h` and `retry_policy.h` describe them (`…Retrying`): the call of the
transport is passed to `RetryUnary` or `RetryUnaryOr` with the retry policy of the options, as
idempotent for `Ping` and `SendEvent`, and as not idempotent for the others. The code makes one
attempt. `unary_operations_honour_retry_iff` says on which inputs that is the same.
-/

namespace KubeMQ.Client

section Retrying

variable (c : Config)

def pingRetrying (w : World) : StatusOr ServerInfo × World :=
  unary (pingRequest w.closed) .error
    (fun _ => retryUnaryOr World.sleep c.draw c.opts.retryPolicy true
      (GrpcTransport.ping c.net c.opts))
    (fun _ => id) w

def sendEventRetrying (event : Event) (w : World) : Status × World :=
  unary (eventRequest c.opts c.uuid w.closed event) id
    (fun q => retryUnary World.sleep c.draw c.opts.retryPolicy true
      (GrpcTransport.sendEvent c.net c.opts q))
    (fun _ => id) w

def sendCommandRetrying (command : Command) (w : World) : StatusOr CommandResponse × World :=
  unary (commandRequest c.opts c.uuid w.closed command) .error
    (fun q => retryUnaryOr World.sleep c.draw c.opts.retryPolicy false
      (GrpcTransport.sendRequest c.net c.opts q))
    commandResponse w

def sendQueryRetrying (query : Query) (w : World) : StatusOr QueryResponse × World :=
  unary (queryRequest c.opts c.uuid w.closed query) .error
    (fun q => retryUnaryOr World.sleep c.draw c.opts.retryPolicy false
      (GrpcTransport.sendRequest c.net c.opts q))
    queryResponse w

def sendQueueMessageRetrying (message : QueueMessage) (w : World) :
    StatusOr QueueSendResult × World :=
  unary (queueMessageRequest c.opts w.closed message) .error
    (fun q => retryUnaryOr World.sleep c.draw c.opts.retryPolicy false
      (GrpcTransport.sendQueueMessage c.net c.opts q))
    queueMessageResponse w

end Retrying

/-- What the caller gets, and how many attempts were made. -/
def outcome {A : Type} (r : A × World) : A × ℕ := (r.1, r.2.attempts)

/-- The policy allows no retry, the request is rejected before the transport is called, or the
first attempt ends with a status on which the operation is not retried; `first` is the answer of
the stub to it. -/
def SingleAttempt (c : Config) (w : World) (accepted : Bool) (first : GrpcStatus)
    (isIdempotent : Bool) : Prop :=
  c.opts.retryPolicy.maxRetries ≤ 0 ∨ accepted = false ∨
    GrpcTransport.wantsRetry c.net c.opts w first isIdempotent = false

/-- A pause is not an attempt. -/
lemma retryPause_attempts (draw : ℕ → Int → Int → Int) (policy : RetryPolicy) (n : ℕ) (w : World) :
    (retryPause World.sleep draw policy n w).attempts = w.attempts := rfl

section

variable {Q R A : Type} {request : StatusOr Q} {reject : Status → A}
  {send retrying : Q → World → R × World} {answer : Q → R → A} {again : R → Bool}
  {policy : RetryPolicy} {draw : ℕ → Int → Int → Int} {w : World} {wants : Bool}

/-- One attempt against the retry loop: they agree when the loop stops after the first. -/
lemma unary_eq_iff (counted : ∀ q w, (send q w).2.attempts = w.attempts + 1)
    (loops : ∀ q w, retrying q w =
      if policy.maxRetries ≤ 0 then send q w
      else Retry.loop again (retryPause World.sleep draw policy) (send q)
        policy.maxRetries.toNat 0 w)
    (first : ∀ q, again (send q w).1 = wants) :
    outcome (unary request reject send answer w) =
        outcome (unary request reject retrying answer w) ↔
      policy.maxRetries ≤ 0 ∨ request.ok = false ∨ wants = false := by
  cases request with
  | error s => simp [unary]
  | value q =>
    simp only [unary, loops, StatusOr.ok_value, Bool.true_eq_false, false_or]
    by_cases hmax : policy.maxRetries ≤ 0
    · simp [hmax]
    · simp only [hmax, if_false, false_or]
      cases wants with
      | false =>
        rw [Retry.loop_of_stop (first q)]
        simp
      | true =>
        have hpos : 0 < policy.maxRetries.toNat := by omega
        have hcount : w.attempts + 2 ≤ (Retry.loop again (retryPause World.sleep draw policy)
            (send q) policy.maxRetries.toNat 0 w).2.attempts :=
          Retry.loop_count_of_again World.attempts (counted q) (retryPause_attempts draw policy)
            hpos (first q)
        refine iff_of_false (fun h => ?_) nofun
        have hatt := congrArg Prod.snd h
        simp only [outcome, counted q w] at hatt
        omega

end

/-- Every unary operation gives what its retrying version gives, with as many attempts, exactly on
the inputs that the retrying version settles with a single attempt. -/
theorem unary_operations_honour_retry_iff (c : Config) (w : World) :
    (outcome (ping c w) = outcome (pingRetrying c w) ↔
      SingleAttempt c w (pingRequest w.closed).ok (c.net.ping w.calls.length).1 true) ∧
    (∀ event, outcome (sendEvent c event w) = outcome (sendEventRetrying c event w) ↔
      SingleAttempt c w (eventRequest c.opts c.uuid w.closed event).ok
        (c.net.sendEvent w.calls.length).1 true) ∧
    (∀ command, outcome (sendCommand c command w) = outcome (sendCommandRetrying c command w) ↔
      SingleAttempt c w (commandRequest c.opts c.uuid w.closed command).ok
        (c.net.sendRequest w.calls.length).1 false) ∧
    (∀ query, outcome (sendQuery c query w) = outcome (sendQueryRetrying c query w) ↔
      SingleAttempt c w (queryRequest c.opts c.uuid w.closed query).ok
        (c.net.sendRequest w.calls.length).1 false) ∧
    (∀ message,
      outcome (sendQueueMessage c message w) = outcome (sendQueueMessageRetrying c message w) ↔
        SingleAttempt c w (queueMessageRequest c.opts w.closed message).ok
          (c.net.sendQueueMessage w.calls.length).1 false) := by
  refine ⟨?_, fun event => ?_, fun command => ?_, fun query => ?_, fun message => ?_⟩
  · exact unary_eq_iff (fun _ => GrpcTransport.attempt_attempts) (fun _ _ => rfl)
      (fun _ => GrpcTransport.ping_wantsRetry w true)
  · exact unary_eq_iff (fun _ => GrpcTransport.attempt_attempts) (fun _ _ => rfl)
      (fun q => GrpcTransport.sendEvent_wantsRetry q w true)
  · exact unary_eq_iff (fun _ => GrpcTransport.attempt_attempts) (fun _ _ => rfl)
      (fun q => GrpcTransport.sendRequest_wantsRetry q w false)
  · exact unary_eq_iff (fun _ => GrpcTransport.attempt_attempts) (fun _ _ => rfl)
      (fun q => GrpcTransport.sendRequest_wantsRetry q w false)
  · exact unary_eq_iff (fun _ => GrpcTransport.attempt_attempts) (fun _ _ => rfl)
      (fun q => GrpcTransport.sendQueueMessage_wantsRetry q w false)

/-- A server that is unavailable for the first call, and then answers. -/
def recoveringNet : Net where
  getToken := none
  ping := fun n => (if n = 0 then ⟨.UNAVAILABLE, "down"⟩ else ⟨.OK, ""⟩, ⟨"host", "1", 0, 0⟩)
  sendEvent := fun n => (if n = 0 then ⟨.UNAVAILABLE, "down"⟩ else ⟨.OK, ""⟩, ⟨"1", true, ""⟩)
  sendRequest := fun n => (if n = 0 then ⟨.UNAVAILABLE, "down"⟩ else ⟨.OK, ""⟩,
    ⟨"", "1", "", "", [], false, 0, true, "", ∅⟩)
  sendResponse := fun n => if n = 0 then ⟨.UNAVAILABLE, "down"⟩ else ⟨.OK, ""⟩
  sendQueueMessage := fun n => (if n = 0 then ⟨.UNAVAILABLE, "down"⟩ else ⟨.OK, ""⟩,
    ⟨"1", 0, 0, 0, false, ""⟩)
  sendQueueMessagesBatch := fun n => (if n = 0 then ⟨.UNAVAILABLE, "down"⟩ else ⟨.OK, ""⟩,
    ⟨"1", [], false⟩)
  receiveQueueMessages := fun n => (if n = 0 then ⟨.UNAVAILABLE, "down"⟩ else ⟨.OK, ""⟩,
    ⟨"1", [], 0, 0, false, false, ""⟩)

/-- With the default options a transient failure is not retried. -/
theorem send_event_is_not_retried :
    ¬∀ (c : Config) (event : Event) (w : World), c.opts.validate.ok = true →
      outcome (sendEvent c event w) = outcome (sendEventRetrying c event w) := by
  intro hall
  have := hall ⟨{}, recoveringNet, "id", fun _ lo _ => lo⟩
    { channel := "news", metadata := "m" } freshWorld rfl
  have hcode := congrArg (fun r => r.1.code) this
  have hcode : ErrorCode.kTransient = ErrorCode.kOk := hcode
  cases hcode

end KubeMQ.Client
