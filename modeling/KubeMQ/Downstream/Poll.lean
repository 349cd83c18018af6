import KubeMQ.Downstream.Inversion

/-!
# One call of Poll

`poll` is `QueueDownstreamReceiver::Poll` as a function of what it finds: the flag, the generated
ids and what the stream does. A call of the concurrent receiver takes its steps at different times;
whatever happens to the members in between, it writes and returns what `poll` says.
-/

namespace KubeMQ.Downstream

open Proto (QueuesDownstreamRequest QueuesDownstreamResponse)

/-- What the stream does for one `Poll`: whether it takes the request, and what is read next. -/
structure PollStream where
  writes : Bool
  reads : Option QueuesDownstreamResponse

/-- `Poll`, with the requests that it writes. -/
def poll (uuid clientId : String) (uuids : ℕ → String) (closed : Bool) (stream : PollStream)
    (request : PollRequest) : StatusOr PollResponse × List QueuesDownstreamRequest :=
  if closed then (.error (pollError .kFatal "downstream receiver is closed" ""), [])
  else
    let s := validateChannel request.channel "QueueDownstreamReceiver::Poll"
    if !s.ok then (.error s, [])
    else
      let req := getRequest uuid clientId request
      if !stream.writes then
        (.error (pollError .kTransient "failed to write poll request to downstream stream"
          request.channel), [req])
      else
        match stream.reads with
        | none =>
          (.error (pollError .kTransient "failed to read poll response from downstream stream"
            request.channel), [req])
        | some resp => (pollResult uuids request resp, [req])

/-- The request that a step of a call writes. -/
def written : CallPc → CallLabel → List QueuesDownstreamRequest
  | .pollWrite _ req, .wrote _ => [req]
  | .settleWrite _ req, .wrote _ => [req]
  | .closeWrite req, .wrote _ => [req]
  | _, _ => []

/-- The requests in a history. -/
def requests (log : List Obs) : List QueuesDownstreamRequest :=
  log.filterMap fun
    | .write _ req _ => some req
    | _ => none

variable {ε : Env} {i : ℕ} {r : PollRequest} {reqs : List QueuesDownstreamRequest} {pc pc₀ : CallPc}

lemma requests_append (log : List Obs) (o : Obs) :
    requests (log ++ [o]) = requests log ++ requests [o] := List.filterMap_append

/-- `written` is what a step adds to the history. -/
lemma CallStep.requests {m m' : Mem} {pc' : CallPc} {l : CallLabel}
    (st : CallStep ε m i pc l m' pc') :
    Downstream.requests m'.log = Downstream.requests m.log ++ written pc l := by
  cases st
  case pollWrite => exact requests_append m.log _
  case pollWriteFailed => exact requests_append m.log _
  case pollRead => exact requests_append m.log _
  case settleWrite => exact requests_append m.log _
  case closeWrite => exact requests_append m.log _
  case closeWritesDone => exact requests_append m.log _
  all_goals exact (List.append_nil _).symm

/-- A call has come from `pc₀` to a control state, each step on members that the other calls may
have changed meanwhile, and has written these requests. -/
inductive Course (ε : Env) (i : ℕ) (pc₀ : CallPc) : List QueuesDownstreamRequest → CallPc → Prop where
  | start :
    Course ε i pc₀ [] pc₀
  | step {reqs m l m' pc pc'} :
    Course ε i pc₀ reqs pc →
    CallStep ε m i pc l m' pc' →
    Course ε i pc₀ (reqs ++ written pc l) pc'

/-- Every call of a receiver is on its course. -/
lemma course_reachable {s : Receiver} (h : (sys ε).Reachable s) :
    ∀ i c, s.calls[i]? = some c → ∃ pc₀ reqs, Starts pc₀ ∧ Course ε i pc₀ reqs c.pc := by
  induction h with
  | init hi =>
    subst hi
    intro i c hc
    cases hc
  | @step s a t _ _ hn ih =>
    cases Step.of_next hn with
    | @begin op pc hpc =>
      intro j d hd
      rcases Lts.getElem?_concat_cases hd with hd | ⟨-, rfl⟩
      · exact ih j d hd
      · exact ⟨pc, [], .of_startPc hpc, .start⟩
    | @call i l c m' pc' hc st =>
      intro j d hd
      rcases Lts.getElem?_set_cases hd with ⟨rfl, rfl⟩ | ⟨-, hd⟩
      · obtain ⟨pc₀, reqs, hstart, course⟩ := ih j c hc
        exact ⟨pc₀, _, hstart, course.step st⟩
      · exact ih j d hd
    | answer => exact ih
    | breakStream => exact ih

/-- How far a call of `Poll` has come. -/
inductive Polling (ε : Env) (r : PollRequest) : List QueuesDownstreamRequest → CallPc → Prop where
  | check :
    Polling ε r [] (.pollCheck r)
  | lock {k} :
    (validateChannel r.channel "QueueDownstreamReceiver::Poll").ok = true →
    Polling ε r [] (.pollLock r (getRequest (ε.uuid k) ε.clientId r))
  | write {k} :
    (validateChannel r.channel "QueueDownstreamReceiver::Poll").ok = true →
    Polling ε r [] (.pollWrite r (getRequest (ε.uuid k) ε.clientId r))
  | read {k} :
    (validateChannel r.channel "QueueDownstreamReceiver::Poll").ok = true →
    Polling ε r [getRequest (ε.uuid k) ε.clientId r]
      (.pollRead r (getRequest (ε.uuid k) ε.clientId r))
  | failed {reqs s} (k : ℕ) (uuids : ℕ → String) (stream : PollStream) :
    poll (ε.uuid k) ε.clientId uuids false stream r = (.error s, reqs) →
    Polling ε r reqs (.pollFailed s)
  | got {resp} (k : ℕ) :
    (validateChannel r.channel "QueueDownstreamReceiver::Poll").ok = true →
    Polling ε r [getRequest (ε.uuid k) ε.clientId r] (.pollGot r resp)
  | returned {reqs v} (k : ℕ) (uuids : ℕ → String) (closed : Bool) (stream : PollStream) :
    poll (ε.uuid k) ε.clientId uuids closed stream r = (v, reqs) →
    Polling ε r reqs (.polled v)

lemma Course.polling (h : Course ε i (.pollCheck r) reqs pc) : Polling ε r reqs pc := by
  induction h with
  | start => exact .check
  | step _ st ih =>
    cases ih with
    | check =>
      cases st with
      | pollClosed hc => exact .returned 0 ε.uuid true ⟨false, none⟩ rfl
      | pollInvalid hc hv =>
        apply Polling.returned 0 ε.uuid false ⟨false, none⟩
        simp [poll, hv, written]
      | pollCheck hc hv => exact .lock hv
    | lock hv =>
      cases st
      exact .write hv
    | @write k hv =>
      cases st with
      | pollWrite => exact .read hv
      | pollWriteFailed =>
        apply Polling.failed k ε.uuid ⟨false, none⟩
        simp [poll, hv, written, writeFailed]
    | @read k hv =>
      cases st with
      | pollRead => exact .got k hv
      | pollReadFailed =>
        apply Polling.failed k ε.uuid ⟨true, none⟩
        simp [poll, hv, written, readFailed]
    | failed k uuids stream hp =>
      cases st
      apply Polling.returned k uuids false stream
      rw [hp]
      exact congrArg _ (List.append_nil _).symm
    | @got resp k hv =>
      cases st
      apply Polling.returned k _ false ⟨true, some resp⟩
      simp only [poll, hv, written, Bool.false_eq_true, if_false, Bool.not_true, List.append_nil]
      rfl
    | returned k uuids closed stream hp => cases st

/-- A `Poll` that has returned is a `poll`, with ids that were generated for the receiver. -/
lemma Course.polled {v : StatusOr PollResponse} (h : Course ε i (.pollCheck r) reqs (.polled v)) :
    ∃ k uuids closed stream, poll (ε.uuid k) ε.clientId uuids closed stream r = (v, reqs) := by
  cases h.polling with
  | returned k uuids closed stream hp => exact ⟨k, uuids, closed, stream, hp⟩

end KubeMQ.Downstream
