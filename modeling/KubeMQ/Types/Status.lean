import Mathlib.Tactic.Common

/-!
# Statuses and error codes

`include/kubemq/error_code.h`, `include/kubemq/status.h`, `src/internal/types/error.cc`,
`src/internal/middleware/error_mapper.cc` and the statuses made by
`src/internal/callback_guard.h`. A `grpc::Status` is its code and its message; a `Status` has the
operation, channel and request id besides. Constructors keep the names of the enumerators.
-/

namespace KubeMQ

/-- Error codes of the client (`ErrorCode`). -/
inductive ErrorCode where
  | kOk | kTransient | kTimeout | kThrottling | kAuthentication | kAuthorization | kValidation
  | kNotFound | kFatal | kCancellation | kBackpressure
  deriving DecidableEq

/-- The codes on which an operation may be tried again (`IsRetryable`). -/
def isRetryable : ErrorCode → Bool
  | .kTransient => true
  | .kTimeout => true
  | .kThrottling => true
  | _ => false

/-- The result of an operation (`Status`). -/
structure Status where
  code : ErrorCode
  message : String
  operation : String
  channel : String
  requestId : String
  deriving DecidableEq

/-- The default-constructed status. -/
def Status.okStatus : Status := ⟨.kOk, "", "", "", ""⟩

/-- `Status::ok`. -/
def Status.ok (s : Status) : Bool := s.code == .kOk

@[simp]
lemma Status.ok_okStatus : Status.okStatus.ok = true := rfl

/-- The sentinel returned by every operation of a closed client (`kErrClientClosed`). -/
def kErrClientClosed : Status := ⟨.kFatal, "kubemq: client closed", "", "", ""⟩

/-- A value, or the status that explains why there is none (`StatusOr`). -/
inductive StatusOr (α : Type) where
  | value (a : α)
  | error (s : Status)
  deriving DecidableEq

namespace StatusOr

variable {α β : Type}

/-- `StatusOr::ok`. -/
def ok : StatusOr α → Bool
  | .value _ => true
  | .error _ => false

/-- `StatusOr::status`. -/
def status : StatusOr α → Status
  | .value _ => .okStatus
  | .error s => s

@[simp] lemma ok_value (a : α) : (value a).ok = true := rfl
@[simp] lemma ok_error (s : Status) : (error s : StatusOr α).ok = false := rfl
@[simp] lemma status_value (a : α) : (value a).status = .okStatus := rfl
@[simp] lemma status_error (s : Status) : (error s : StatusOr α).status = s := rfl

end StatusOr

/-- `MakeError`. -/
def makeError (code : ErrorCode) (message operation channel requestId : String) : Status :=
  ⟨code, message, operation, channel, requestId⟩

/-- `FromServerError`: an error text in an otherwise successful reply. -/
def fromServerError (errorMessage operation channel : String) : Status :=
  if errorMessage.isEmpty then .okStatus
  else ⟨.kFatal, errorMessage, operation, channel, ""⟩

/-- `grpc::StatusCode`. -/
inductive GrpcCode where
  | OK | CANCELLED | UNKNOWN | INVALID_ARGUMENT | DEADLINE_EXCEEDED | NOT_FOUND | ALREADY_EXISTS
  | PERMISSION_DENIED | RESOURCE_EXHAUSTED | FAILED_PRECONDITION | ABORTED | OUT_OF_RANGE
  | UNIMPLEMENTED | INTERNAL | UNAVAILABLE | DATA_LOSS | UNAUTHENTICATED
  deriving DecidableEq

/-- `grpc::Status`. -/
structure GrpcStatus where
  code : GrpcCode
  message : String
  deriving DecidableEq

/-- `grpc::Status::ok`. -/
def GrpcStatus.ok (s : GrpcStatus) : Bool := s.code == .OK

/-- `MapGrpcCode`. -/
def mapGrpcCode : GrpcCode → ErrorCode
  | .OK => .kOk
  | .CANCELLED => .kCancellation
  | .INVALID_ARGUMENT => .kValidation
  | .DEADLINE_EXCEEDED => .kTimeout
  | .NOT_FOUND => .kNotFound
  | .ALREADY_EXISTS => .kValidation
  | .PERMISSION_DENIED => .kAuthorization
  | .RESOURCE_EXHAUSTED => .kThrottling
  | .FAILED_PRECONDITION => .kValidation
  | .ABORTED => .kTransient
  | .OUT_OF_RANGE => .kValidation
  | .UNIMPLEMENTED => .kFatal
  | .INTERNAL => .kFatal
  | .UNAVAILABLE => .kTransient
  | .DATA_LOSS => .kFatal
  | .UNAUTHENTICATED => .kAuthentication
  | .UNKNOWN => .kFatal

/-- `FromGrpcStatus`. -/
def fromGrpcStatus (st : GrpcStatus) (operation channel requestId : String) : Status :=
  if st.ok then .okStatus
  else
    ⟨mapGrpcCode st.code, if st.message.isEmpty then "gRPC error" else st.message,
      operation, channel, requestId⟩

/-- Only `OK` is mapped to `kOk`. -/
@[simp]
lemma mapGrpcCode_eq_kOk {c : GrpcCode} : mapGrpcCode c = .kOk ↔ c = .OK := by
  cases c <;> simp [mapGrpcCode]

/-- `FromGrpcStatus` is OK exactly on an OK grpc status. -/
@[simp]
lemma fromGrpcStatus_ok (st : GrpcStatus) (op ch id : String) :
    (fromGrpcStatus st op ch id).ok = st.ok := by
  unfold fromGrpcStatus
  split
  · simp_all
  · simp_all [Status.ok, GrpcStatus.ok]

/-- The code of a mapped status. -/
lemma fromGrpcStatus_code (st : GrpcStatus) (op ch id : String) :
    (fromGrpcStatus st op ch id).code = mapGrpcCode st.code := by
  unfold fromGrpcStatus
  split
  · next h => simp_all [GrpcStatus.ok, Status.okStatus, mapGrpcCode]
  · rfl

/-- What a user callback may throw: a `std::exception` with its text, or anything else. -/
inductive Exn where
  | exception (what : String)
  | unknown
  deriving DecidableEq

/-- The status `SafeInvoke` hands to `on_error` for a callback that threw. -/
def callbackThrew (operation : String) : Exn → Status
  | .exception what => makeError .kFatal ("callback threw: " ++ what) operation "" ""
  | .unknown => makeError .kFatal "callback threw unknown exception" operation "" ""

/-- Every report of a thrown callback is `kFatal`. -/
@[simp]
lemma callbackThrew_code (operation : String) (x : Exn) :
    (callbackThrew operation x).code = .kFatal := by
  cases x <;> rfl

end KubeMQ
