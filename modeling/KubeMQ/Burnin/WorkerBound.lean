import KubeMQ.Burnin.WorkerThreads
import KubeMQ.Downstream.Calls
import KubeMQ.StreamHandle.Calls
import Mathlib.Data.List.Count

/-!
# How many steps stopping takes

Once `running_` is false, every step of `Stop`, of the producer and of the consumer brings them nearer
to their ends: `Worker.remaining` ranks the states, and a `Stop` takes at most 40 of these steps.
-/

namespace KubeMQ.Burnin.QueueStream

variable {c : Config}

lemma UpstreamStep.remaining_lt {i : ℕ} {m m' : Mem} {pc pc' : UpCall}
    (st : UpstreamStep i m pc m' pc') : pc'.remaining < pc.remaining := by
  cases st with
  | intro _ st => exact st.remaining_lt

lemma ReceiverStep.remaining_lt {i : ℕ} {m m' : Mem} {pc pc' : Downstream.CallPc}
    (st : ReceiverStep c i m pc m' pc') : pc'.remaining < pc.remaining := by
  cases st with
  | intro _ st => exact st.remaining_lt

/-- The steps that the producer has left once `running_` is false. -/
def ProducerPc.remaining : ProducerPc → ℕ
  | .unstarted => 0
  | .connect => 11
  | .connectFailed => 1
  | .assignClient => 10
  | .openStream => 9
  | .openFailed => 1
  | .assign => 8
  | .setResult pc => 4 + pc.remaining
  | .setError pc => 1 + pc.remaining
  | .test _ => 1
  | .build _ => 9
  | .send _ pc => 4 + pc.remaining
  | .sendFailed _ => 4
  | .countError _ => 3
  | .pause _ => 2
  | .exited => 0

def ConsumerPc.remaining : ConsumerPc → ℕ
  | .unstarted => 0
  | .connect => 5
  | .connectFailed => 1
  | .assignClient => 4
  | .openStream => 3
  | .openFailed => 1
  | .assign => 2
  | .test => 1
  | .poll pc => 7 + pc.remaining
  | .count _ => 7
  | .ack pc => 2 + pc.remaining
  | .ackFailed => 2
  | .pollFailed => 3
  | .countError => 2
  | .exited => 0

def StopPc.remaining : StopPc → ℕ
  | .idle => 0
  | .testReceiver => 17
  | .closeReceiver pc => 11 + pc.remaining
  | .joinProducer => 11
  | .joinConsumer => 10
  | .release => 9
  | .closeProducer => 8
  | .resetReceiver => 7
  | .destroyReceiver pc => 1 + pc.remaining
  | .closeConsumer => 1

lemma ProducerStep.remaining_lt {m m' : Mem} {pc pc' : ProducerPc}
    (st : ProducerStep c m pc m' pc') (hr : m.running = false) : pc'.remaining < pc.remaining := by
  cases st with
  | setResult st _ => exact Nat.add_lt_add_left st.remaining_lt 4
  | resultSet st _ => exact Nat.lt_add_of_pos_right (Nat.zero_lt_of_lt st.remaining_lt)
  | setError st _ => exact Nat.add_lt_add_left st.remaining_lt 1
  | errorSet st _ => exact Nat.lt_add_of_pos_right (Nat.zero_lt_of_lt st.remaining_lt)
  | goOn h =>
    rw [hr] at h
    cases h
  | send st _ => exact Nat.add_lt_add_left st.remaining_lt 4
  | sent st =>
    have hpos := Nat.zero_lt_of_lt st.remaining_lt
    simp only [ProducerPc.remaining]
    omega
  | sendFailed st => exact Nat.lt_add_of_pos_right (Nat.zero_lt_of_lt st.remaining_lt)
  | _ => simp [ProducerPc.remaining, StreamHandle.CallPc.remaining]

lemma ConsumerStep.remaining_lt {m m' : Mem} {pc pc' : ConsumerPc}
    (st : ConsumerStep c m pc m' pc') (hr : m.running = false) : pc'.remaining < pc.remaining := by
  cases st with
  | goOn h =>
    rw [hr] at h
    cases h
  | poll st _ => exact Nat.add_lt_add_left st.remaining_lt 7
  | polled st _ => exact Nat.lt_add_of_pos_right (Nat.zero_lt_of_lt st.remaining_lt)
  | ack st _ => exact Nat.add_lt_add_left st.remaining_lt 2
  | notAcked st _ => exact Nat.lt_add_of_pos_right (Nat.zero_lt_of_lt st.remaining_lt)
  | _ =>
    simp only [ConsumerPc.remaining, Downstream.CallPc.remaining]
    omega

lemma StopStep.remaining_lt {producer : ProducerPc} {consumer : ConsumerPc} {m m' : Mem}
    {pc pc' : StopPc} (st : StopStep c producer consumer m pc m' pc') :
    pc'.remaining < pc.remaining := by
  cases st with
  | closeReceiver st _ => exact Nat.add_lt_add_left st.remaining_lt 11
  | receiverClosed st _ => exact Nat.lt_add_of_pos_right (Nat.zero_lt_of_lt st.remaining_lt)
  | destroyReceiver st _ => exact Nat.add_lt_add_left st.remaining_lt 1
  | receiverDestroyed st _ => exact Nat.lt_add_of_pos_right (Nat.zero_lt_of_lt st.remaining_lt)
  | _ => simp [StopPc.remaining, Downstream.CallPc.remaining]

/-- The steps of `Stop` and of the threads that it joins. -/
def Action.own : Action → Bool
  | .stop _ => true
  | .producer _ => true
  | .consumer _ => true
  | _ => false

/-- No further `Stop` begins. -/
def noStop (_ : Worker) : Action → Bool
  | .beginStop => false
  | _ => true

def Worker.remaining (s : Worker) : ℕ :=
  s.producer.remaining + s.consumer.remaining + s.stop.remaining

lemma ProducerPc.remaining_le (pc : ProducerPc) : pc.remaining ≤ 11 := by
  cases pc
  case setResult pc =>
    have hle := pc.remaining_le
    simp only [remaining]
    omega
  case setError pc =>
    have hle := pc.remaining_le
    simp only [remaining]
    omega
  case send seq pc =>
    have hle := pc.remaining_le
    simp only [remaining]
    omega
  all_goals simp [remaining]

lemma ConsumerPc.remaining_le (pc : ConsumerPc) : pc.remaining ≤ 12 := by
  cases pc
  case poll pc => exact Nat.add_le_add_left pc.remaining_le 7
  case ack pc =>
    have hle := pc.remaining_le
    simp only [remaining]
    omega
  all_goals simp [remaining]

lemma StopPc.remaining_le (pc : StopPc) : pc.remaining ≤ 17 := by
  cases pc
  case closeReceiver pc =>
    have hle := pc.remaining_le
    simp only [remaining]
    omega
  case destroyReceiver pc =>
    have hle := pc.remaining_le
    simp only [remaining]
    omega
  all_goals simp [remaining]

lemma Worker.remaining_le (s : Worker) : s.remaining ≤ 40 :=
  Nat.add_le_add (Nat.add_le_add s.producer.remaining_le s.consumer.remaining_le)
    s.stop.remaining_le

/-- `running_` is set only when the worker starts. -/
lemma Step.running {s t : Worker} {a : Action} (st : Step c s a t) (hr : s.mem.running = false) :
    t.mem.running = false := by
  cases st with
  | beginStop _ => rfl
  | stop st => exact st.steady.1.trans hr
  | producer st => exact st.same.running.trans hr
  | consumer st => exact st.same.running.trans hr
  | cleaner st => exact st.sameThreads.running.trans hr
  | reader _ st => exact st.same.running.trans hr
  | answer _ _ => exact hr
  | breakStream _ _ => exact hr

/-- Every step of `Stop` and of the threads that it joins brings them nearer to their end. -/
lemma stop_ranked : ((sys c).restrict noStop).Ranked (fun s => s.mem.running = false) Action.own
    Worker.remaining := by
  have step {s t : Worker} {a : Action} (hr : s.mem.running = false)
      (hn : ((sys c).restrict noStop).next s a = some t) :
      t.remaining ≤ s.remaining ∧ (a.own = true → t.remaining < s.remaining) := by
    obtain ⟨hg, hn⟩ := Lts.Sys.restrict_next.mp hn
    cases (Step.of_next hn).2 with
    | beginStop _ => cases hg
    | stop st =>
      have hlt := Nat.add_lt_add_left st.remaining_lt (s.producer.remaining + s.consumer.remaining)
      exact ⟨Nat.le_of_lt hlt, fun _ => hlt⟩
    | producer st =>
      have hlt := st.remaining_lt hr
      simp only [Worker.remaining]
      omega
    | consumer st =>
      have hlt := st.remaining_lt hr
      simp only [Worker.remaining]
      omega
    | _ => exact ⟨Nat.le_refl _, nofun⟩
  constructor
  case keep =>
    intro s a t hr hn
    obtain ⟨-, hn⟩ := Lts.Sys.restrict_next.mp hn
    exact (Step.of_next hn).2.running hr
  case le => exact fun s a t hr hn => (step hr hn).1
  case lt => exact fun s a t hr hn => (step hr hn).2

lemma stop_bounded {s t : Worker} {as : List Action} (hr : s.mem.running = false)
    (he : ((sys c).restrict noStop).exec s as = some t) : as.countP Action.own ≤ 40 := by
  have hle := stop_ranked.countP_le hr he
  have hs := s.remaining_le
  omega

end KubeMQ.Burnin.QueueStream
