import KubeMQ.StreamHandle.Reentrant

/-!
# What a producer is told

The reader of `EventStoreStreamHandle` and of `QueueUpstreamHandle` hands what the server answers to
`on_result`. `Recorded` is a handle with the history of what happened to the reader: what it read,
which callback was installed when it looked, what the callbacks threw, and how the stream ended. The
history is a sequence of blocks, one for each response, followed by the end of the stream
(`results_delivered`). Callbacks run while other threads call the methods of the handle; what a
callback itself calls is such a call (`reentrant_reachable`).
-/

namespace KubeMQ.StreamHandle

variable {W R E : Type} {κ : HandleSpec W R E} {f : R → E}

/-- What happens at the reader, and the replacements of the callbacks. `handed`, `reported` and
`failed` are the moments at which a callback is looked up, and called when there is one. -/
inductive HandleEvent (R E : Type) where
  | installed (slot : Slot) (cb : Option ℕ)
  | response (r : R)
  | handed (cb : Option ℕ) (e : E)
  | threw (x : Exn)
  | reported (cb : Option ℕ) (st : Status)
  | ended
  | finished (st : GrpcStatus)
  | failed (cb : Option ℕ) (st : Status)

namespace HandleEvent

/-- All but the replacements. -/
def ofReader : HandleEvent R E → Bool
  | .installed _ _ => false
  | _ => true

/-- What the event leaves in the history of the handle. -/
def obs : HandleEvent R E → List (Obs W R E)
  | .response r => [.response r]
  | .handed (some cb) e => [.onResult cb e]
  | .reported (some cb) st => [.onError cb st]
  | .finished st => [.finish st]
  | .failed (some cb) st => [.onError cb st]
  | _ => []

end HandleEvent

/-- What the stream and the callbacks left there; the rest is what calls have written. -/
def Obs.ofReader : Obs W R E → Bool
  | .write _ _ _ => false
  | .writesDone _ => false
  | _ => true

/-- What a step of the reader adds to the history. -/
def readerEvents (κ : HandleSpec W R E) (m : Mem W R E) :
    ReaderPc E → ReaderLabel R → List (HandleEvent R E)
  | .read, .result r => [.response r]
  | .read, .eos => [.ended]
  | .callResult e, .tau => [.handed m.onResult e]
  | .inResult, .callback (some x) => [.threw x]
  | .callReport x, .tau => [.reported m.onError (κ.onResultThrew x)]
  | .finish, .finish st => [.finished st]
  | .callError st, .tau => [.failed m.onError (κ.finishError st)]
  | _, _ => []

/-- What a step of a call adds. -/
def callEvents : CallPc W → List (HandleEvent R E)
  | .setStore slot cb => [.installed slot cb]
  | _ => []

def events (κ : HandleSpec W R E) (s : Handle W R E) : Action W R → List (HandleEvent R E)
  | .call i _ => (s.calls[i]?.map callEvents).getD []
  | .reader l => readerEvents κ s.mem s.reader l
  | _ => []

/-- A handle with its history. -/
structure Recorded (W R E : Type) where
  handle : Handle W R E
  events : List (HandleEvent R E)

/-- The callbacks that a handle is created with count as installed. -/
def recorded (κ : HandleSpec W R E) : Lts.Sys (Recorded W R E) (Action W R) where
  init s := ∃ onResult onError, s =
    ⟨start onResult onError, [.installed .onResult onResult, .installed .onError onError]⟩
  next s a := (next κ s.handle a).map fun t => ⟨t, s.events ++ StreamHandle.events κ s.handle a⟩

/-- Every run of a handle is recorded. -/
lemma recorded_reachable {s : Handle W R E} (h : (sys κ).Reachable s) :
    ∃ es, (recorded κ).Reachable ⟨s, es⟩ := by
  induction h with
  | init hi =>
    obtain ⟨onResult, onError, rfl⟩ := hi
    exact ⟨_, .init ⟨onResult, onError, rfl⟩⟩
  | @step s a t _ _ hn ih =>
    obtain ⟨es, hs⟩ := ih
    refine ⟨es ++ events κ s a, .step (a := a) hs trivial ?_⟩
    show (next κ s a).map _ = _
    have hn : next κ s a = some t := hn
    rw [hn]
    rfl

/-- What a callback does to its own handle, another thread may do as well. -/
lemma reentrant_reachable {s : Reentrant W R E} (h : (reentrant κ).Reachable s) :
    (sys κ).Reachable ⟨s.mem, s.reader, s.calls, none, false, false⟩ := by
  induction h with
  | init hi =>
    obtain ⟨onResult, onError, rfl⟩ := hi
    exact .init ⟨onResult, onError, rfl⟩
  | @step s a t _ _ hn ih =>
    have hn : nestNext κ s a = some t := hn
    cases a with
    | begin op =>
      cases hn
      exact .step (a := .begin op) ih trivial rfl
    | nest op =>
      simp only [nestNext] at hn
      split at hn
      · cases hn
        exact .step (a := .begin op) ih trivial rfl
      · cases hn
    | call i l =>
      obtain ⟨pc, hpc, hm⟩ := Option.bind_eq_some_iff.mp hn
      obtain ⟨r, hr, rfl⟩ := Option.map_eq_some_iff.mp hm
      apply Lts.Sys.Reach.step (a := .call i l) ih trivial
      show (s.calls[i]?.bind _) = _
      rw [hpc, Option.bind_some, hr]
      rfl
    | reader l =>
      simp only [nestNext] at hn
      split at hn
      · cases hn
      · obtain ⟨r, hr, rfl⟩ := Option.map_eq_some_iff.mp hn
        apply Lts.Sys.Reach.step (a := .reader l) ih trivial
        show (readerNext κ s.mem s.reader l).map _ = _
        rw [hr]
        rfl

/-- What becomes of one response: there is no callback, or it returns, or it throws and that is
reported. -/
inductive Block (κ : HandleSpec W R E) (f : R → E) : List (HandleEvent R E) → Prop where
  | unset {r} :
    Block κ f [.response r, .handed none (f r)]
  | returned {r cb} :
    Block κ f [.response r, .handed (some cb) (f r)]
  | threw {r cb x cb'} :
    Block κ f [.response r, .handed (some cb) (f r), .threw x, .reported cb' (κ.onResultThrew x)]

/-- What has happened since the last complete block; once the stream has ended, its end. -/
inductive Rest (κ : HandleSpec W R E) (f : R → E) : ReaderPc E → List (HandleEvent R E) → Prop where
  | reading :
    Rest κ f .read []
  | waiting {r} :
    Rest κ f (.lockResult (f r)) [.response r]
  | locked {r} :
    Rest κ f (.callResult (f r)) [.response r]
  | running {r cb} :
    Rest κ f .inResult [.response r, .handed (some cb) (f r)]
  | threw {r cb x} :
    Rest κ f (.callReport x) [.response r, .handed (some cb) (f r), .threw x]
  | reporting {r cb x cb'} :
    Rest κ f .inReport
      [.response r, .handed (some cb) (f r), .threw x, .reported cb' (κ.onResultThrew x)]
  | complete {b} :
    Block κ f b →
    Rest κ f .unlockResult b
  | ended :
    Rest κ f .storeDone [.ended]
  | stored :
    Rest κ f .finish [.ended]
  | finishedOk {st} :
    st.ok = true →
    Rest κ f .exited [.ended, .finished st]
  | failed {st} :
    st.ok = false →
    Rest κ f (.lockError st) [.ended, .finished st]
  | failedLocked {st} :
    st.ok = false →
    Rest κ f (.callError st) [.ended, .finished st]
  | failing {st cb} :
    st.ok = false →
    Rest κ f .inError [.ended, .finished st, .failed cb (κ.finishError st)]
  | told {st cb} :
    st.ok = false →
    Rest κ f .unlockError [.ended, .finished st, .failed cb (κ.finishError st)]
  | finishedError {st cb} :
    st.ok = false →
    Rest κ f .exited [.ended, .finished st, .failed cb (κ.finishError st)]

/-- A step of the reader goes on with the block under way, or begins the next one. -/
lemma ReaderStep.rest {m m' : Mem W R E} {pc pc' : ReaderPc E} {l : ReaderLabel R}
    {rest : List (HandleEvent R E)} (st : ReaderStep κ m pc l m' pc') (hf : κ.toResult = some f)
    (h : Rest κ f pc rest) :
    Rest κ f pc' (rest ++ readerEvents κ m pc l) ∨
      (Block κ f rest ∧ readerEvents κ m pc l = [] ∧ pc' = .read) := by
  cases st
  case drop hnone =>
    rw [hf] at hnone
    cases hnone
  case receive f' hf' =>
    rw [hf] at hf'
    cases hf'
    cases h
    exact .inl .waiting
  case eos =>
    cases h
    exact .inl .ended
  case lockResult =>
    cases h
    exact .inl .locked
  case skipResult hcb =>
    cases h
    refine .inl (.complete ?_)
    simp only [readerEvents, hcb]
    exact .unset
  case callResult hcb =>
    cases h
    refine .inl ?_
    simp only [readerEvents, hcb]
    exact .running
  case resultReturned =>
    cases h
    exact .inl (.complete .returned)
  case resultThrew =>
    cases h
    exact .inl .threw
  case skipReport hcb =>
    cases h
    exact .inl (.complete .threw)
  case callReport hcb =>
    cases h
    exact .inl .reporting
  case reportReturned =>
    cases h
    exact .inl (.complete .threw)
  case unlockResult =>
    cases h with
    | complete hb => exact .inr ⟨hb, rfl, rfl⟩
  case storeDone =>
    cases h
    exact .inl .stored
  case finishOk hok =>
    cases h
    exact .inl (.finishedOk hok)
  case finishError hok =>
    cases h
    exact .inl (.failed hok)
  case lockError =>
    cases h with
    | failed hok => exact .inl (.failedLocked hok)
  case skipError hcb =>
    cases h with
    | failedLocked hok => exact .inl (.told hok)
  case callError hcb =>
    cases h with
    | failedLocked hok => exact .inl (.failing hok)
  case errorReturned =>
    cases h with
    | failing hok => exact .inl (.told hok)
  case unlockError =>
    cases h with
    | told hok => exact .inl (.finishedError hok)

/-- The callback that was installed last. -/
def installedAt (slot : Slot) (es : List (HandleEvent R E)) : Option ℕ :=
  es.foldl (fun cb ev =>
    match ev with
    | .installed slot' cb' => if slot' = slot then cb' else cb
    | _ => cb) none

/-- What is looked up is the callback installed at that moment. -/
def HandleEvent.Current (before : List (HandleEvent R E)) : HandleEvent R E → Prop
  | .handed cb _ => cb = installedAt .onResult before
  | .reported cb _ => cb = installedAt .onError before
  | .failed cb _ => cb = installedAt .onError before
  | _ => True

/-- The responses read so far. -/
def responses (es : List (HandleEvent R E)) : List R :=
  es.filterMap fun
    | .response r => some r
    | _ => none

/-- The results handed over so far. -/
def handedOver (es : List (HandleEvent R E)) : List E :=
  es.filterMap fun
    | .handed _ e => some e
    | _ => none

/-- The result of a response that was read and is not handed over yet. -/
def ReaderPc.pending : ReaderPc E → List E
  | .lockResult e => [e]
  | .callResult e => [e]
  | _ => []

lemma responses_append (es new : List (HandleEvent R E)) :
    responses (es ++ new) = responses es ++ responses new :=
  List.filterMap_append

lemma handedOver_append (es new : List (HandleEvent R E)) :
    handedOver (es ++ new) = handedOver es ++ handedOver new :=
  List.filterMap_append

/-- Calls leave nothing of what the events leave. -/
lemma HandleEvent.filter_obs (es : List (HandleEvent R E)) :
    (es.flatMap (HandleEvent.obs (W := W))).filter Obs.ofReader = es.flatMap HandleEvent.obs := by
  apply List.filter_eq_self.mpr
  intro o ho
  obtain ⟨ev, -, hev⟩ := List.mem_flatMap.mp ho
  unfold HandleEvent.obs at hev
  split at hev
  all_goals first | (rw [List.mem_singleton.mp hev]; rfl) | cases hev

/-- What a producer is told, in any state of any run. -/
structure Delivered (κ : HandleSpec W R E) (f : R → E) (s : Recorded W R E) : Prop where
  /-- One block for each response, in order, then the one under way or the end. -/
  blocks : ∃ (blocks : List (List (HandleEvent R E))) (rest : List (HandleEvent R E)),
    s.events.filter HandleEvent.ofReader = blocks.flatten ++ rest ∧
      (∀ b ∈ blocks, Block κ f b) ∧ Rest κ f s.handle.reader rest
  results : handedOver s.events ++ s.handle.reader.pending = (responses s.events).map f
  current : ∀ before ev after, s.events = before ++ ev :: after → ev.Current before
  /-- The events are what the stream and the callbacks saw. -/
  observed : s.handle.mem.log.filter Obs.ofReader = s.events.flatMap HandleEvent.obs
  done : .ended ∈ s.events → s.handle.reader = .storeDone ∨ s.handle.mem.done = true
  /-- The terminal status comes last and is reported iff it is an error. -/
  exited : s.handle.reader = .exited → ∃ before st cb,
    s.events.filter HandleEvent.ofReader = before ++ .ended :: .finished st ::
      if st.ok then [] else [.failed cb (κ.finishError st)]
  /-- Until it has exited the reader can step, or waits for a call that can. -/
  moves : s.handle.terminated = false → s.handle.reader.isExited = false →
    (∃ l t, (recorded κ).next s (.reader l) = some t) ∨
      ∃ i l t, s.handle.mem.callbackMu = some (.call i) ∧ (recorded κ).next s (.call i l) = some t

lemma installedAt_append_of_reader {es new : List (HandleEvent R E)} (slot : Slot)
    (h : ∀ ev ∈ new, ev.ofReader = true) : installedAt slot (es ++ new) = installedAt slot es := by
  induction new generalizing es with
  | nil => rw [List.append_nil]
  | cons ev new ih =>
    have hnew : ∀ x ∈ new, x.ofReader = true := fun x hx => h x (List.mem_cons_of_mem _ hx)
    rw [List.append_cons, ih hnew]
    cases ev with
    | installed slot' cb => cases h _ List.mem_cons_self
    | _ => simp [installedAt, List.foldl_append]

lemma installedAt_self (es : List (HandleEvent R E)) (slot : Slot) (cb : Option ℕ) :
    installedAt slot (es ++ [.installed slot cb]) = cb := by
  simp [installedAt, List.foldl_append]

lemma installedAt_other (es : List (HandleEvent R E)) {slot slot' : Slot} (cb : Option ℕ)
    (h : slot' ≠ slot) : installedAt slot (es ++ [.installed slot' cb]) = installedAt slot es := by
  simp [installedAt, List.foldl_append, h]

/-- A step of the reader adds at most one event, about the callbacks at that moment. -/
lemma readerEvents_spec {m : Mem W R E} {es : List (HandleEvent R E)}
    (hresult : m.onResult = installedAt .onResult es)
    (herror : m.onError = installedAt .onError es) (pc : ReaderPc E) (l : ReaderLabel R) :
    readerEvents κ m pc l = [] ∨
      ∃ ev, readerEvents κ m pc l = [ev] ∧ ev.ofReader = true ∧ ev.Current es := by
  unfold readerEvents
  split
  case h_3 e =>
    exact .inr ⟨_, rfl, rfl, hresult⟩
  case h_5 x =>
    exact .inr ⟨_, rfl, rfl, herror⟩
  case h_7 st =>
    exact .inr ⟨_, rfl, rfl, herror⟩
  case h_8 => exact .inl rfl
  all_goals exact .inr ⟨_, rfl, rfl, trivial⟩

/-- What a step of the reader does to the shared state, in terms of its events. -/
lemma ReaderStep.tells {m m' : Mem W R E} {pc pc' : ReaderPc E} {l : ReaderLabel R}
    (st : ReaderStep κ m pc l m' pc') :
    m'.onResult = m.onResult ∧ m'.onError = m.onError ∧
      m'.log = m.log ++ (readerEvents κ m pc l).flatMap HandleEvent.obs := by
  have hnone : m.log = m.log ++ [] := (List.append_nil _).symm
  cases st
  -- no callback is installed
  case skipResult hcb | skipReport hcb | skipError hcb =>
    refine ⟨rfl, rfl, ?_⟩
    simp [readerEvents, hcb, HandleEvent.obs]
  case callResult hcb | callReport hcb | callError hcb =>
    refine ⟨rfl, rfl, ?_⟩
    simp [readerEvents, hcb, HandleEvent.obs, Mem.observe]
  all_goals first | exact ⟨rfl, rfl, rfl⟩ | exact ⟨rfl, rfl, hnone⟩

/-- A response becomes pending, a pending one is handed over. -/
lemma ReaderStep.handed {m m' : Mem W R E} {pc pc' : ReaderPc E} {l : ReaderLabel R}
    (st : ReaderStep κ m pc l m' pc') (hf : κ.toResult = some f) :
    handedOver (readerEvents κ m pc l) ++ pc'.pending =
      pc.pending ++ (responses (readerEvents κ m pc l)).map f := by
  cases st
  case drop hnone =>
    rw [hf] at hnone
    cases hnone
  case receive hf' =>
    rw [hf] at hf'
    cases hf'
    rfl
  all_goals rfl

/-- What a step of a call does to the callbacks, and that it tells the reader nothing. -/
lemma CallStep.tells {exited : Bool} {i : ℕ} {m m' : Mem W R E} {pc pc' : CallPc W}
    {l : CallLabel} (st : CallStep κ exited i m pc l m' pc') {es : List (HandleEvent R E)}
    (hresult : m.onResult = installedAt .onResult es)
    (herror : m.onError = installedAt .onError es) :
    m'.onResult = installedAt .onResult (es ++ callEvents pc) ∧
      m'.onError = installedAt .onError (es ++ callEvents pc) ∧
      m'.log.filter Obs.ofReader = m.log.filter Obs.ofReader := by
  have hnone : es ++ [] = es := List.append_nil _
  cases st
  case setResult =>
    refine ⟨(installedAt_self es _ _).symm, ?_, rfl⟩
    have hne : Slot.onResult ≠ .onError := nofun
    rw [herror]
    exact (installedAt_other es _ hne).symm
  case setError =>
    refine ⟨?_, (installedAt_self es _ _).symm, rfl⟩
    have hne : Slot.onError ≠ .onResult := nofun
    rw [hresult]
    exact (installedAt_other es _ hne).symm
  all_goals
    simp only [callEvents, hnone]
    refine ⟨hresult, herror, ?_⟩
    simp [Mem.observe, Obs.ofReader]

/-- No call is an event of the reader. -/
lemma callEvents_reader (pc : CallPc W) :
    (callEvents pc : List (HandleEvent R E)).filter HandleEvent.ofReader = [] ∧
      (callEvents pc : List (HandleEvent R E)).flatMap (HandleEvent.obs (W := W)) = [] ∧
      handedOver (callEvents pc : List (HandleEvent R E)) = [] ∧
      responses (callEvents pc : List (HandleEvent R E)) = [] ∧
      ((callEvents pc : List (HandleEvent R E)) = [] ∨
        ∃ slot cb, (callEvents pc : List (HandleEvent R E)) = [.installed slot cb]) := by
  cases pc with
  | setStore slot cb => exact ⟨rfl, rfl, rfl, rfl, .inr ⟨slot, cb, rfl⟩⟩
  | _ => exact ⟨rfl, rfl, rfl, rfl, .inl rfl⟩

/-- The invariant: the history fits the callbacks that are installed, what they and the stream
saw, and the place where the reader stands. -/
structure Told (κ : HandleSpec W R E) (f : R → E) (s : Recorded W R E) : Prop where
  result : s.handle.mem.onResult = installedAt .onResult s.events
  error : s.handle.mem.onError = installedAt .onError s.events
  blocks : ∃ (blocks : List (List (HandleEvent R E))) (rest : List (HandleEvent R E)),
    s.events.filter HandleEvent.ofReader = blocks.flatten ++ rest ∧
      (∀ b ∈ blocks, Block κ f b) ∧ Rest κ f s.handle.reader rest
  results : handedOver s.events ++ s.handle.reader.pending = (responses s.events).map f
  current : ∀ before ev after, s.events = before ++ ev :: after → ev.Current before
  observed : s.handle.mem.log.filter Obs.ofReader = s.events.flatMap HandleEvent.obs
  held : CallbackHeld s.handle.mem.callbackMu s.handle.reader s.handle.calls
  disciplined : Disciplined s.handle

lemma told_start (onResult onError : Option ℕ) :
    Told κ f ⟨start onResult onError, [.installed .onResult onResult, .installed .onError onError]⟩
    where
  result := rfl
  error := rfl
  blocks := ⟨[], [], rfl, List.forall_mem_nil _, .reading⟩
  results := rfl
  current := by
    intro before ev after h
    have hev : ev ∈ [.installed .onResult onResult, .installed .onError onError] := by
      have hmem : ev ∈ before ++ ev :: after := List.mem_append_right _ List.mem_cons_self
      rwa [← h] at hmem
    rcases List.mem_cons.mp hev with rfl | hev
    · trivial
    · rw [List.mem_singleton.mp hev]
      trivial
  observed := rfl
  held := ⟨.nil, iff_of_false nofun nofun⟩
  disciplined := disciplined_start _ _

/-- A step of the reader keeps the invariant. -/
lemma Told.reader {s : Recorded W R E} {l : ReaderLabel R} {m' : Mem W R E} {pc' : ReaderPc E}
    (inv : Told κ f s) (hf : κ.toResult = some f)
    (st : ReaderStep κ s.handle.mem s.handle.reader l m' pc') :
    Told κ f ⟨{ s.handle with mem := m', reader := pc' },
      s.events ++ readerEvents κ s.handle.mem s.handle.reader l⟩ := by
  obtain ⟨hresult, herror, hlog⟩ := st.tells
  obtain ⟨blocks, rest, hes, hblocks, hr⟩ := inv.blocks
  have hhanded := st.handed hf
  have hrest := st.rest hf hr
  have hspec := readerEvents_spec (κ := κ) inv.result inv.error s.handle.reader l
  generalize readerEvents κ s.handle.mem s.handle.reader l = new at *
  have hnew : ∀ ev ∈ new, ev.ofReader = true := by
    rcases hspec with rfl | ⟨ev, rfl, hev, -⟩
    · exact List.forall_mem_nil _
    · intro x hx
      rwa [List.mem_singleton.mp hx]
  constructor
  case result =>
    rw [installedAt_append_of_reader _ hnew]
    exact hresult.trans inv.result
  case error =>
    rw [installedAt_append_of_reader _ hnew]
    exact herror.trans inv.error
  case blocks =>
    rw [List.filter_append, List.filter_eq_self.mpr hnew, hes]
    rcases hrest with hr' | ⟨hb, rfl, rfl⟩
    · exact ⟨blocks, rest ++ new, List.append_assoc _ _ _, hblocks, hr'⟩
    · refine ⟨blocks ++ [rest], [], ?_, ?_, .reading⟩
      · simp
      · intro b hmem
        rcases List.mem_append.mp hmem with hmem | hmem
        · exact hblocks b hmem
        · rwa [List.mem_singleton.mp hmem]
  case results =>
    show handedOver (s.events ++ new) ++ pc'.pending = (responses (s.events ++ new)).map f
    rw [handedOver_append, responses_append, List.map_append, ← inv.results, List.append_assoc,
      List.append_assoc, hhanded]
  case current =>
    rcases hspec with rfl | ⟨ev, rfl, -, hev⟩
    · rw [List.append_nil]
      exact inv.current
    · exact Lts.forall_split_concat inv.current hev
  case observed =>
    show m'.log.filter Obs.ofReader = (s.events ++ new).flatMap HandleEvent.obs
    rw [hlog, List.filter_append, List.flatMap_append, inv.observed, HandleEvent.filter_obs]
  case held => exact st.held inv.held
  case disciplined => exact inv.disciplined.reader st

/-- So does a step of a call. -/
lemma Told.call {s : Recorded W R E} {i : ℕ} {l : CallLabel} {m' : Mem W R E} {pc pc' : CallPc W}
    (inv : Told κ f s) (hpc : s.handle.calls[i]? = some pc)
    (st : CallStep κ s.handle.reader.isExited i s.handle.mem pc l m' pc') :
    Told κ f ⟨{ s.handle with mem := m', calls := s.handle.calls.set i pc' },
      s.events ++ callEvents pc⟩ := by
  obtain ⟨hresult, herror, hlog⟩ := st.tells inv.result inv.error
  obtain ⟨hreader, hobs, hhanded, hresponses, hshape⟩ := callEvents_reader (R := R) (E := E) pc
  constructor
  case result => exact hresult
  case error => exact herror
  case blocks =>
    rw [List.filter_append, hreader, List.append_nil]
    exact inv.blocks
  case results =>
    show handedOver (s.events ++ callEvents pc) ++ s.handle.reader.pending =
      (responses (s.events ++ callEvents pc)).map f
    rw [handedOver_append, responses_append, hhanded, hresponses, List.append_nil, List.append_nil]
    exact inv.results
  case current =>
    rcases hshape with hnil | ⟨slot, cb, hone⟩
    · rw [hnil, List.append_nil]
      exact inv.current
    · rw [hone]
      exact Lts.forall_split_concat inv.current trivial
  case observed =>
    show m'.log.filter Obs.ofReader = (s.events ++ callEvents pc).flatMap HandleEvent.obs
    rw [hlog, List.flatMap_append, hobs, List.append_nil]
    exact inv.observed
  case held => exact st.held inv.held hpc
  case disciplined => exact inv.disciplined.call hpc st

/-- An action that is no step of a thread leaves the history alone. -/
lemma Told.other {s : Recorded W R E} {h : Handle W R E} (inv : Told κ f s)
    (hmem : h.mem = s.handle.mem) (hreader : h.reader = s.handle.reader)
    (held : CallbackHeld s.handle.mem.callbackMu s.handle.reader h.calls) (hd : Disciplined h) :
    Told κ f ⟨h, s.events⟩ := by
  constructor
  case result => exact (congrArg Mem.onResult hmem).trans inv.result
  case error => exact (congrArg Mem.onError hmem).trans inv.error
  case blocks =>
    show ∃ blocks rest, _ ∧ _ ∧ Rest κ f h.reader rest
    rw [hreader]
    exact inv.blocks
  case results =>
    show handedOver s.events ++ h.reader.pending = _
    rw [hreader]
    exact inv.results
  case current => exact inv.current
  case observed =>
    show h.mem.log.filter Obs.ofReader = _
    rw [hmem]
    exact inv.observed
  case held =>
    show CallbackHeld h.mem.callbackMu h.reader h.calls
    rw [hmem, hreader]
    exact held
  case disciplined => exact hd

/-- A new call does not hold `callback_mu`. -/
lemma CallbackHeld.append {mu : Option Owner} {r : ReaderPc E} {calls : List (CallPc W)}
    (h : CallbackHeld mu r calls) {pc : CallPc W} (hpc : pc.setting = false) :
    CallbackHeld mu r (calls ++ [pc]) :=
  ⟨h.callback.append hpc, h.reader⟩

/-- One step keeps the invariant. -/
lemma Told.step {s t : Recorded W R E} {a : Action W R} (inv : Told κ f s)
    (hf : κ.toResult = some f) (hn : (recorded κ).next s a = some t) : Told κ f t := by
  obtain ⟨h, hh, rfl⟩ := Option.map_eq_some_iff.mp hn
  obtain ⟨-, st⟩ := Step.of_next hh
  have hd := inv.disciplined.step st
  cases st with
  | @begin op hopen =>
    show Told κ f ⟨_, s.events ++ []⟩
    rw [List.append_nil]
    exact inv.other rfl rfl (inv.held.append op.start_unlocked.2.1) hd
  | @call i l pc m' pc' hpc st =>
    show Told κ f ⟨_, s.events ++ (s.handle.calls[i]?.map callEvents).getD []⟩
    rw [hpc]
    exact inv.call hpc st
  | reader st => exact inv.reader hf st
  | destroy _ _ =>
    show Told κ f ⟨_, s.events ++ []⟩
    rw [List.append_nil]
    exact inv.other rfl rfl (inv.held.append rfl) hd
  | free _ _ _ =>
    show Told κ f ⟨_, s.events ++ []⟩
    rw [List.append_nil]
    exact inv.other rfl rfl inv.held hd

/-- The invariant holds in every run. -/
lemma told_reachable (hf : κ.toResult = some f) {s : Recorded W R E}
    (h : (recorded κ).Reachable s) : Told κ f s := by
  apply h.invariant (I := Told κ f)
  · rintro s ⟨onResult, onError, rfl⟩
    exact told_start _ _
  · intro s a t _ inv _ hn
    exact inv.step hf hn

/-- The stream does not end within a block. -/
lemma Block.not_ended {b : List (HandleEvent R E)} (h : Block κ f b) : .ended ∉ b := by
  cases h <;> simp

/-- When it has ended the reader is about to mark the stream done, or has done so. -/
lemma Rest.ended_mem {pc : ReaderPc E} {rest : List (HandleEvent R E)} (h : Rest κ f pc rest)
    (hmem : .ended ∈ rest) : pc = .storeDone ∨ pc.markedDone = true := by
  cases h
  case ended => exact .inl rfl
  case complete hb => exact absurd hmem hb.not_ended
  case reading => cases hmem
  case waiting => simp at hmem
  case locked => simp at hmem
  case running => simp at hmem
  case threw => simp at hmem
  case reporting => simp at hmem
  all_goals exact .inr rfl

lemma Told.done {s : Recorded W R E} (inv : Told κ f s) (hmem : .ended ∈ s.events) :
    s.handle.reader = .storeDone ∨ s.handle.mem.done = true := by
  obtain ⟨blocks, rest, hes, hblocks, hr⟩ := inv.blocks
  have hfilter : .ended ∈ s.events.filter HandleEvent.ofReader := List.mem_filter.mpr ⟨hmem, rfl⟩
  rw [hes] at hfilter
  rcases List.mem_append.mp hfilter with hb | hrest
  · obtain ⟨b, hb, hin⟩ := List.mem_flatten.mp hb
    exact absurd hin (hblocks b hb).not_ended
  · rcases hr.ended_mem hrest with hpc | hpc
    · exact .inl hpc
    · exact .inr (inv.disciplined.marked hpc)

lemma Told.exited {s : Recorded W R E} (inv : Told κ f s) (hx : s.handle.reader = .exited) :
    ∃ before st cb, s.events.filter HandleEvent.ofReader = before ++ .ended :: .finished st ::
      if st.ok then [] else [.failed cb (κ.finishError st)] := by
  obtain ⟨blocks, rest, hes, -, hr⟩ := inv.blocks
  rw [hx] at hr
  cases hr with
  | @finishedOk st hok =>
    refine ⟨blocks.flatten, st, none, ?_⟩
    rw [hes, if_pos hok]
  | @finishedError st cb hok =>
    refine ⟨blocks.flatten, st, cb, ?_⟩
    rw [hes, if_neg (by simp [hok])]

/-- A step of the handle is a step of the handle with its history. -/
lemma recorded_next {s : Recorded W R E} {a : Action W R} {h : Handle W R E}
    (halive : s.handle.terminated = false) (hn : liveNext κ s.handle a = some h) :
    ∃ t, (recorded κ).next s a = some t := by
  refine ⟨⟨h, s.events ++ events κ s.handle a⟩, ?_⟩
  show (next κ s.handle a).map _ = _
  unfold next
  rw [halive, hn]
  rfl

lemma Told.moves {s : Recorded W R E} (inv : Told κ f s) (halive : s.handle.terminated = false)
    (hx : s.handle.reader.isExited = false) :
    (∃ l t, (recorded κ).next s (.reader l) = some t) ∨
      ∃ i l t, s.handle.mem.callbackMu = some (.call i) ∧
        (recorded κ).next s (.call i l) = some t := by
  have reads (hw : s.handle.reader.wantsCallback = true → s.handle.mem.callbackMu = none) :
      ∃ l t, (recorded κ).next s (.reader l) = some t := by
    obtain ⟨l, r, hr, -⟩ := reader_enabled (κ := κ) s.handle.mem hx hw
    refine ⟨l, recorded_next (h := { s.handle with mem := r.1, reader := r.2 }) halive ?_⟩
    show (readerNext κ s.handle.mem s.handle.reader l).map _ = _
    rw [hr]
    rfl
  cases hmu : s.handle.mem.callbackMu with
  | none => exact .inl (reads fun _ => hmu)
  | some o =>
    cases o with
    | reader =>
      have hh := inv.held.reader.mpr hmu
      exact .inl (reads fun hw => absurd ((ReaderPc.inside hh).2.symm.trans hw) nofun)
    | call i =>
      obtain ⟨q, hq, hset⟩ := inv.held.callback.held i (by rw [hmu]; rfl)
      obtain ⟨⟨m', q'⟩, hc⟩ := setting_enabled (κ := κ) s.handle.reader.isExited s.handle.mem i hset
      obtain ⟨t, ht⟩ := recorded_next (κ := κ) (a := .call i .tau)
        (h := { s.handle with mem := m', calls := s.handle.calls.set i q' }) halive (by
          show (s.handle.calls[i]?.bind _) = _
          rw [hq, Option.bind_some, hc]
          rfl)
      exact .inr ⟨i, .tau, t, rfl, ht⟩

lemma Told.delivered {s : Recorded W R E} (inv : Told κ f s) : Delivered κ f s :=
  ⟨inv.blocks, inv.results, inv.current, inv.observed, inv.done, inv.exited, inv.moves⟩

/-- On both handles each response goes exactly once, in order and with all its data, to the
callback installed at that moment, whatever the callbacks throw, and after the last one the
terminal status is reported iff it is an error. -/
theorem results_delivered
    {s : Recorded Proto.QueuesUpstreamRequest Proto.QueuesUpstreamResponse QueueUpstreamResult}
    (hs : (recorded HandleSpec.queueUpstream).Reachable s)
    {t : Recorded Proto.Event Proto.Result EventStoreResult}
    (ht : (recorded HandleSpec.eventStoreStream).Reachable t) :
    Delivered HandleSpec.queueUpstream queueUpstreamResponseFromProto s ∧
    Delivered HandleSpec.eventStoreStream storeResult t ∧
    (∀ x, (HandleSpec.queueUpstream.onResultThrew x).code = .kFatal ∧
      (HandleSpec.eventStoreStream.onResultThrew x).code = .kFatal) ∧
    (∀ st, (HandleSpec.queueUpstream.finishError st).code = mapGrpcCode st.code ∧
      (HandleSpec.eventStoreStream.finishError st).code = mapGrpcCode st.code) ∧
    (∀ p, queueUpstreamResponseFromProto p =
      ⟨p.refRequestID,
        p.results.map fun r =>
          ⟨r.messageID, r.sentAt, r.expirationAt, r.delayedTo, r.isError, r.error⟩,
        p.isError, p.error⟩) ∧
    ∀ p, storeResult p = ⟨p.eventID, p.sent, p.error⟩ := by
  refine ⟨(told_reachable rfl hs).delivered, (told_reachable rfl ht).delivered, ?_, ?_, ?_, ?_⟩
  · intro x
    exact ⟨callbackThrew_code _ x, callbackThrew_code _ x⟩
  · intro st
    exact ⟨fromGrpcStatus_code st _ _ _, fromGrpcStatus_code st _ _ _⟩
  · intro p
    rfl
  · intro p
    rfl

/-- `on_result` throws at a response and is replaced before the next one; then the stream fails. -/
def throwsThenFails {W R : Type} (r : R) : List (Action W R) :=
  [.reader (.result r), .reader .tau, .reader .tau, .reader (.callback (some .unknown)),
    .reader .tau, .begin (.set .onResult (some 2)), .reader (.callback none), .reader .tau,
    .call 0 .tau, .call 0 .tau, .call 0 .tau,
    .reader (.result r), .reader .tau, .reader .tau, .reader (.callback none), .reader .tau,
    .reader .eos, .reader .tau, .reader (.finish ⟨.UNAVAILABLE, "gone"⟩),
    .reader .tau, .reader .tau, .reader (.callback none), .reader .tau]

/-- A handle whose callbacks are 0 and 1. -/
def created {W R E : Type} : Recorded W R E :=
  ⟨start (some 0) (some 1), [.installed .onResult (some 0), .installed .onError (some 1)]⟩

theorem results_delivered_thrown :
    ∃ s t,
      (recorded HandleSpec.queueUpstream).exec created
        (throwsThenFails ⟨"request", [⟨"message", 1, 2, 3, false, ""⟩], false, ""⟩) = some s ∧
      (recorded HandleSpec.eventStoreStream).exec created
        (throwsThenFails ⟨"event", true, ""⟩) = some t ∧
      Delivered HandleSpec.queueUpstream queueUpstreamResponseFromProto s ∧
      Delivered HandleSpec.eventStoreStream storeResult t := by
  have hqueue : ((recorded HandleSpec.queueUpstream).exec created
      (throwsThenFails ⟨"request", [⟨"message", 1, 2, 3, false, ""⟩], false, ""⟩)).isSome =
        true := rfl
  have hstore : ((recorded HandleSpec.eventStoreStream).exec created
      (throwsThenFails ⟨"event", true, ""⟩)).isSome = true := rfl
  obtain ⟨s, hs⟩ := Option.isSome_iff_exists.mp hqueue
  obtain ⟨t, ht⟩ := Option.isSome_iff_exists.mp hstore
  have hall := results_delivered
    (Lts.Sys.Reachable.exec (.init ⟨some 0, some 1, rfl⟩) _ hs)
    (Lts.Sys.Reachable.exec (.init ⟨some 0, some 1, rfl⟩) _ ht)
  exact ⟨s, t, hs, ht, hall.1, hall.2.1⟩

end KubeMQ.StreamHandle
