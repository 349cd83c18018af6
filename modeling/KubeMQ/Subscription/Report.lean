import KubeMQ.Subscription.History

/-!
# What a subscription reports about a broken stream

`Finish` stores the status of a broken stream in `last_status`, which only the terminal branch
after the loops passes to `on_error`; and that branch runs only when the loops are left with
`done` not set, which does not happen (`Alive`). Between the end of a stream and the reading of
the next one nothing is reported, so that a run without cancellation meets the reporting rule
exactly when no stream that was replaced had failed (`reported_iff_no_failed_stream_replaced`).
-/

namespace KubeMQ.Subscription

variable {P R : Type} {κ : SubKind P R} {h : Handlers}

/-- A stream that ended and was followed by the reading of another: the status it ended with, and
what was passed to `on_error` in between. -/
structure Handover where
  ended : GrpcStatus
  errors : List Status

/-- One entry of the log: the stream that has ended and is not replaced yet, and the handovers. -/
def handoverStep (acc : Option Handover × List Handover) (o : Obs P R) :
    Option Handover × List Handover :=
  match acc, o with
  | (_, out), .ended _ st => (some ⟨st, []⟩, out)
  | (some x, out), .onError e => (some { x with errors := x.errors ++ [e] }, out)
  | (some x, out), .reading _ => (none, out ++ [x])
  | acc, _ => acc

def scanHandovers (log : List (Obs P R)) : Option Handover × List Handover :=
  log.foldl handoverStep (none, [])

def handovers (log : List (Obs P R)) : List Handover :=
  (scanHandovers log).2

/-- An error status whose text contains the text of the grpc status. -/
def Describes (e : Status) (st : GrpcStatus) : Prop :=
  e.ok = false ∧ ∃ before after, e.message = before ++ st.message ++ after

/-- Every failed stream was reported before another was read, and a thread that has exited has
reported so once and has set `done`. -/
structure Reported (κ : SubKind P R) (h : Handlers) (s : Sub P R) : Prop where
  broken : h.onError = true → ∀ x ∈ handovers s.mem.log, x.ended.ok = false →
    ∃ e ∈ x.errors, Describes e x.ended
  exit : s.reader.pc.isExited = true → s.mem.done = true ∧
    (h.onError = true →
      (onErrors s.mem.log).count (κ.endedError s.reader.lastStatus) = 1)

/-- Nothing has been reported since the last stream ended. -/
structure Unreported (log : List (Obs P R)) (pc : ReaderPc R) : Prop where
  replaced : ∀ x ∈ handovers log, x.errors = []
  ended : ∀ x, (scanHandovers log).1 = some x → x.errors = []
  looping : pc.inLoop = true → (scanHandovers log).1 = none

lemma unreported_start :
    Unreported (start : Sub P R).mem.log (start : Sub P R).reader.pc :=
  ⟨fun _ hx => absurd hx List.not_mem_nil, nofun, fun _ => rfl⟩

lemma scanHandovers_append (log : List (Obs P R)) (o : Obs P R) :
    scanHandovers (log ++ [o]) = handoverStep (scanHandovers log) o := by
  simp [scanHandovers, List.foldl_append]

/-- An entry that the scan passes over. -/
lemma Unreported.other {log : List (Obs P R)} {pc pc' : ReaderPc R} {o : Obs P R}
    (inv : Unreported log pc) (ho : handoverStep (scanHandovers log) o = scanHandovers log)
    (hl : pc'.inLoop = true → pc.inLoop = true) : Unreported (log ++ [o]) pc' := by
  have hs : scanHandovers (log ++ [o]) = scanHandovers log :=
    (scanHandovers_append log o).trans ho
  refine ⟨?_, ?_, fun hp => ?_⟩
  · rw [handovers, hs]
    exact inv.replaced
  · rw [hs]
    exact inv.ended
  · rw [hs]
    exact inv.looping (hl hp)

lemma Unreported.goto {log : List (Obs P R)} {pc pc' : ReaderPc R} (inv : Unreported log pc)
    (hl : pc'.inLoop = true → pc.inLoop = true) : Unreported log pc' :=
  ⟨inv.replaced, inv.ended, fun hp => inv.looping (hl hp)⟩

/-- `on_error` is called in the read loop only, where no ended stream waits to be replaced. -/
lemma Unreported.report {log : List (Obs P R)} {pc pc' : ReaderPc R} {e : Status}
    (inv : Unreported log pc) (hp : pc.inLoop = true) :
    Unreported (log ++ [.onError e]) pc' := by
  have hs : scanHandovers log = (none, (scanHandovers log).2) := Prod.ext (inv.looping hp) rfl
  refine inv.other ?_ (fun _ => hp)
  rw [hs]
  rfl

/-- A stream ends: nothing is reported for it yet. -/
lemma Unreported.finish {log : List (Obs P R)} {pc pc' : ReaderPc R} {n : ℕ} {st : GrpcStatus}
    (inv : Unreported log pc) (hl : pc'.inLoop = false) :
    Unreported (log ++ [.ended n st]) pc' := by
  have hs : scanHandovers (log ++ [Obs.ended n st]) = (some ⟨st, []⟩, (scanHandovers log).2) :=
    scanHandovers_append log _
  refine ⟨?_, ?_, fun hp => ?_⟩
  · rw [handovers, hs]
    exact inv.replaced
  · rw [hs]
    intro x hx
    cases hx
    rfl
  · rw [hl] at hp
    cases hp

/-- The reader enters its loop: the stream that ended last has been replaced. -/
lemma Unreported.reading {log : List (Obs P R)} {pc pc' : ReaderPc R} {n : ℕ}
    (inv : Unreported log pc) : Unreported (log ++ [.reading n]) pc' := by
  have hs := scanHandovers_append log (Obs.reading n)
  cases hp : (scanHandovers log).1 with
  | none =>
    have hs : scanHandovers (log ++ [Obs.reading n]) = (none, (scanHandovers log).2) := by
      have hacc : scanHandovers log = (none, (scanHandovers log).2) := Prod.ext hp rfl
      rw [hs, hacc]
      rfl
    refine ⟨?_, ?_, fun _ => by rw [hs]⟩
    · rw [handovers, hs]
      exact inv.replaced
    · rw [hs]
      exact nofun
  | some x =>
    have hs : scanHandovers (log ++ [Obs.reading n]) = (none, (scanHandovers log).2 ++ [x]) := by
      have hacc : scanHandovers log = (some x, (scanHandovers log).2) := Prod.ext hp rfl
      rw [hs, hacc]
      rfl
    refine ⟨?_, ?_, fun _ => by rw [hs]⟩
    · rw [handovers, hs]
      intro y hy
      rcases List.mem_append.mp hy with hy | hy
      · exact inv.replaced y hy
      · cases List.mem_singleton.mp hy
        exact inv.ended x hp
    · rw [hs]
      exact nofun

/-- Entries other than the end of a stream, a report and the reading of a stream. -/
def Obs.passive : Obs P R → Bool
  | .ended _ _ => false
  | .onError _ => false
  | .reading _ => false
  | _ => true

lemma handoverStep_passive {acc : Option Handover × List Handover} {o : Obs P R}
    (ho : o.passive = true) : handoverStep acc o = acc := by
  obtain ⟨x, out⟩ := acc
  cases o <;> cases x <;> first | rfl | cases ho

/-- One step of a reader that is not exiting reports no failed stream. -/
lemma ReaderStep.unreported {m m' : Mem P R} {n : ℕ} {lst : GrpcStatus} {pc : ReaderPc R}
    {r' : Reader R} {l : ReaderLabel P} (st : ReaderStep κ h m n lst pc l m' r')
    (hx : pc.exiting = false) (inv : Unreported m.log pc) : Unreported m'.log r'.pc := by
  cases st
  case accept _ ht =>
    obtain ⟨-, -, -, -, hl, -⟩ := Mem.take_spec ht
    rw [hl]
    exact inv.other (handoverStep_passive rfl) (fun _ => rfl)
  case skip _ ht =>
    obtain ⟨-, -, -, -, hl, -⟩ := Mem.take_spec ht
    rw [hl]
    exact inv.other (handoverStep_passive rfl) (fun _ => rfl)
  case enter => exact inv.reading
  case finish => exact inv.finish rfl
  case report => exact inv.report rfl
  case call => exact inv.other (handoverStep_passive rfl) (fun _ => rfl)
  case threw => exact inv.other (handoverStep_passive rfl) (fun _ => rfl)
  case attempt => exact inv.other (handoverStep_passive rfl) nofun
  case gateRefused => exact inv.other (handoverStep_passive rfl) nofun
  case opened => exact inv.other (handoverStep_passive rfl) nofun
  case stubRefused => exact inv.other (handoverStep_passive rfl) nofun
  all_goals first | exact inv.goto (fun _ => rfl) | exact inv.goto nofun | cases hx

/-- The invariant of the runs without cancellation. -/
structure ReportInv (s : Sub P R) : Prop where
  alive : Alive s
  unreported : Unreported s.mem.log s.reader.pc

lemma ReportInv.step {s t : Sub P R} {a : Action P} (inv : ReportInv s)
    (ha : a.keepsAlive = true) (st : Step κ h s a t) : ReportInv t := by
  refine ⟨inv.alive.step ha st, ?_⟩
  cases st with
  | begin => exact inv.unreported
  | call hpc st =>
    show Unreported _ _
    rw [st.effect.log]
    exact inv.unreported
  | reader st => exact st.unreported inv.alive.running inv.unreported

lemma ReportInv.of_reach {s : Sub P R}
    (hr : (sys κ h).Reach (fun _ a => a.keepsAlive = true) s) : ReportInv s := by
  refine hr.invariant (I := ReportInv) ?_ ?_
  · rintro s rfl
    exact ⟨alive_start, unreported_start⟩
  · intro s a t _ inv ha hn
    exact inv.step ha (Step.of_next hn)

/-- The reader thread does not exit without a cancellation. -/
lemma Alive.not_exited {s : Sub P R} (al : Alive s) : s.reader.pc.isExited = false := by
  have hx := al.running
  cases hp : s.reader.pc with
  | exited =>
    rw [hp] at hx
    cases hx
  | _ => rfl

/-- A run without cancellation meets the reporting rule exactly when `on_error` is not set or
every stream that was replaced by another had ended with an OK status. -/
theorem reported_iff_no_failed_stream_replaced {P R : Type} (κ : SubKind P R) (h : Handlers)
    (s : Sub P R) (hr : (sys κ h).Reach (fun _ a => a.keepsAlive = true) s) :
    Reported κ h s ↔ (h.onError = true → ∀ x ∈ handovers s.mem.log, x.ended.ok = true) := by
  have inv := ReportInv.of_reach hr
  constructor
  · intro rep hset x hx
    by_contra hok
    obtain ⟨e, he, -⟩ := rep.broken hset x hx (by simpa using hok)
    -- nothing was passed to `on_error` between the two streams
    rw [inv.unreported.replaced x hx] at he
    cases he
  · intro hok
    refine ⟨fun hset x hx hf => ?_, fun hx => ?_⟩
    · rw [hok hset x hx] at hf
      cases hf
    · rw [inv.alive.not_exited] at hx
      cases hx

/-- The server refuses the credentials; the reader opens and reads another stream. -/
def unauthenticatedStream : List (Action Proto.EventReceive) :=
  [.reader .tau, .reader .eos, .reader (.finish ⟨.UNAUTHENTICATED, "bad token"⟩), .reader .tau,
    .reader .tau, .reader .slept, .reader .tau, .reader (.gate true), .reader (.stub true),
    .reader .tau, .reader .tau]

lemma unauthenticatedStream_handovers :
    ((sys SubKind.events ⟨true, true⟩).exec start unauthenticatedStream).map
      (fun s => handovers s.mem.log) = some [⟨⟨.UNAUTHENTICATED, "bad token"⟩, []⟩] := rfl

theorem reported_iff_no_failed_stream_replaced_sample :
    ∃ s, (sys SubKind.events ⟨true, true⟩).exec start unauthenticatedStream = some s ∧
      (Reported SubKind.events ⟨true, true⟩ s ↔
        (true = true → ∀ x ∈ handovers s.mem.log, x.ended.ok = true)) := by
  refine ⟨_, rfl, reported_iff_no_failed_stream_replaced SubKind.events ⟨true, true⟩ _ ?_⟩
  exact Lts.Sys.Reach.execWhere (.init rfl) unauthenticatedStream rfl

/-- The subscriber is told nothing about the refused credentials. -/
theorem failed_stream_is_not_reported :
    ¬ ∀ s, (sys SubKind.events ⟨true, true⟩).Reach (fun _ a => a.keepsAlive = true) s →
      Reported SubKind.events ⟨true, true⟩ s := by
  intro hall
  obtain ⟨s, hs, hh⟩ := Option.map_eq_some_iff.mp unauthenticatedStream_handovers
  have hr : (sys SubKind.events ⟨true, true⟩).Reach (fun _ a => a.keepsAlive = true) s :=
    Lts.Sys.Reach.execWhere (.init rfl) unauthenticatedStream hs
  obtain ⟨e, he, -⟩ := (hall s hr).broken rfl _ (hh ▸ List.mem_singleton.mpr rfl) rfl
  cases he

end KubeMQ.Subscription
