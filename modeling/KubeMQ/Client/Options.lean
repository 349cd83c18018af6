import KubeMQ.Policy.Backoff
import KubeMQ.Types.Status

/-!
# Client options

`include/kubemq/client_options.h`, with the defaults of `include/kubemq/types.h`: the options that
`Validate` checks and those that the operations read. Durations are in milliseconds.
-/

namespace KubeMQ

structure ClientOptions where
  host : String := "localhost"
  port : Int := 50000
  clientId : String := ""
  authToken : String := ""
  connectionTimeout : Int := 10000
  maxReceiveMessageSize : Int := 4194304
  maxSendMessageSize : Int := 104857600
  subscriptionBufferSize : Int := 10
  retryPolicy : RetryPolicy := {}
  defaultChannel : String := ""
  defaultCacheTtl : Int := 0
  maxConcurrentCallbacks : Int := 1

namespace ClientOptions

/-- An error of `Validate`. -/
def invalid (message : String) : Status :=
  ⟨.kValidation, message, "ClientOptions::Validate", "", ""⟩

def validate (o : ClientOptions) : Status :=
  if o.host.isEmpty then invalid "host is required"
  else if o.port ≤ 0 then invalid "port must be > 0"
  else if o.port > 65535 then invalid "port must be <= 65535"
  else if o.subscriptionBufferSize ≤ 0 then invalid "subscription_buffer_size must be > 0"
  else if o.maxReceiveMessageSize ≤ 0 then invalid "max_receive_message_size must be > 0"
  else if o.maxSendMessageSize ≤ 0 then invalid "max_send_message_size must be > 0"
  else if o.connectionTimeout ≤ 0 then invalid "connection_timeout must be > 0"
  else if o.maxConcurrentCallbacks ≤ 0 then invalid "max_concurrent_callbacks must be > 0"
  else if o.retryPolicy.maxRetries < 0 ∨ o.retryPolicy.maxRetries > 10 then
    invalid "retry_policy max_retries must be 0-10"
  else .okStatus

/-- The defaults pass their own check. -/
lemma validate_default : validate {} = .okStatus := rfl

end ClientOptions

end KubeMQ
