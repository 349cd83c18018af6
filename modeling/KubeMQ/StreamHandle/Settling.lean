import KubeMQ.StreamHandle.Calls

/-!
# Stream handles come to an end

When the server sends nothing more, a handle has only a bounded number of steps left: the reader
finishes the result it has at hand and the end of its stream, and every call its own code. Where none
of these steps is possible any more, every call has returned and the reader thread has exited.
-/

namespace KubeMQ.StreamHandle

variable {W R E : Type} {κ : HandleSpec W R E}

/-- The steps that the reader thread has left when it reads no further response. -/
def ReaderPc.remaining : ReaderPc E → ℕ
  | .lockResult _ => 13
  | .callResult _ => 12
  | .inResult => 11
  | .callReport _ => 10
  | .inReport => 9
  | .unlockResult => 8
  | .read => 7
  | .storeDone => 6
  | .finish => 5
  | .lockError _ => 4
  | .callError _ => 3
  | .inError => 2
  | .unlockError => 1
  | .exited => 0

/-- The threads' own steps, without a response of the server. -/
def NestAction.settling : NestAction W R → Bool
  | .call _ _ => true
  | .reader (.result _) => false
  | .reader _ => true
  | _ => false

/-- The steps left on a handle. -/
def Reentrant.remaining (s : Reentrant W R E) : ℕ :=
  s.reader.remaining + (s.calls.map CallPc.remaining).sum

lemma ReaderStep.remaining_lt {m m' : Mem W R E} {pc pc' : ReaderPc E} {l : ReaderLabel R}
    (st : ReaderStep κ m pc l m' pc') (hl : (NestAction.reader l : NestAction W R).settling = true) :
    pc'.remaining < pc.remaining := by
  cases st
  case drop => cases hl
  case receive => cases hl
  all_goals simp [ReaderPc.remaining]

/-- Every such step leaves fewer of them. -/
lemma settling_lt {s t : Reentrant W R E} {a : NestAction W R} (ha : a.settling = true)
    (hn : (reentrant κ).next s a = some t) : t.remaining < s.remaining := by
  have st := NestStep.of_next hn
  cases st with
  | begin => cases ha
  | nest => cases ha
  | @call i l pc m' pc' hpc st =>
    have hlt := st.remaining_lt
    have hsum := Lts.sum_map_set CallPc.remaining hpc pc'
    simp only [Reentrant.remaining]
    omega
  | reader hnone st =>
    have hlt := st.remaining_lt ha
    simp only [Reentrant.remaining]
    omega

/-- No thread can take such a step. -/
def Settled (κ : HandleSpec W R E) (s : Reentrant W R E) : Prop :=
  ∀ a, NestAction.settling a = true → (reentrant κ).next s a = none

/-- A reader that waits for a response may as well be told that there is none. -/
lemma Settled.no_thread {s : Reentrant W R E} (h : Settled κ s) {a : NestAction W R}
    (ha : a.ofThread = true) : (reentrant κ).next s a = none := by
  cases a with
  | call i l => exact h _ rfl
  | reader l =>
    cases l with
    | result r =>
      have heos := h (.reader .eos) rfl
      cases hr : s.reader with
      | read =>
        cases hn : s.nested <;> simp [reentrant, nestNext, hn, hr, readerNext] at heos ⊢
      | _ => simp [reentrant, nestNext, hr, readerNext]
    | _ => exact h _ rfl
  | _ => cases ha

/-- In every run with gentle callbacks: from any state on, the threads take a bounded number of steps
unless the server sends a response, and when none of these is left, every `Send`, `Close`, `Wait`,
`IsDone` and setter has returned and the reader thread has exited. -/
theorem handle_settles {W R E : Type} (κ : HandleSpec W R E) (s : Reentrant W R E)
    (h : (reentrant κ).Reach (fun s a => gentle s a = true) s) :
    (∀ as t, (∀ a ∈ as, NestAction.settling a = true) → (reentrant κ).exec s as = some t →
      as.length ≤ s.remaining) ∧
      (Settled κ s → s.reader.isExited = true ∧ ∀ pc ∈ s.calls, pc.returned = true) := by
  constructor
  · intro as t has he
    have hle := Lts.Sys.length_le_rank (T := reentrant κ) (fun _ _ _ => settling_lt) has he
    omega
  · intro hset
    have inv := nestInv_reach h
    have hx : s.reader.isExited = true := by
      cases hx : s.reader.isExited with
      | true => rfl
      | false =>
        obtain ⟨a, t, ha, hn⟩ := inv.live_reader (κ := κ) hx
        rw [hset.no_thread ha] at hn
        cases hn
    refine ⟨hx, ?_⟩
    intro pc hmem
    obtain ⟨i, hpc⟩ := List.getElem?_of_mem hmem
    cases hr : pc.returned with
    | true => rfl
    | false =>
      obtain ⟨a, t, ha, hn⟩ := inv.live_calls (κ := κ) hx hpc hr
      rw [hset.no_thread ha] at hn
      cases hn

/-- A handle on which `Close` waits for the reader, which is in `on_result`, asking `IsDone`. -/
def closeDuringResult (r : Proto.QueuesUpstreamResponse) :
    List (NestAction Proto.QueuesUpstreamRequest Proto.QueuesUpstreamResponse) :=
  inOnResult r .isDone 0 ++ .begin .close :: List.replicate 5 (.call 1 .tau)

theorem handle_settles_close :
    let start : Reentrant Proto.QueuesUpstreamRequest _ _ :=
      ⟨⟨false, none, none, some 0, none, .start, []⟩, .read, [], none⟩
    ∃ s, (reentrant HandleSpec.queueUpstream).execWhere gentle start
        (closeDuringResult ⟨"request", [], false, ""⟩) = some s ∧
      ∀ as t, (∀ a ∈ as, NestAction.settling a = true) →
        (reentrant HandleSpec.queueUpstream).exec s as = some t → as.length ≤ s.remaining := by
  intro start
  have hsome : ((reentrant HandleSpec.queueUpstream).execWhere gentle start
      (closeDuringResult ⟨"request", [], false, ""⟩)).isSome = true := by decide +kernel
  obtain ⟨s, hs⟩ := Option.isSome_iff_exists.mp hsome
  have hinit : (reentrant HandleSpec.queueUpstream).Reach (fun s a => gentle s a = true) start :=
    .init ⟨some 0, none, rfl⟩
  exact ⟨s, hs, (handle_settles HandleSpec.queueUpstream s (hinit.execWhere _ hs)).1⟩

end KubeMQ.StreamHandle
