import KubeMQ.Subscription.History

/-!
# Delivery across reconnects

`script n` is what the server sends on the stream opened with context `n` before it breaks. In a
run without cancellation that follows the script, the callback has been called, in order and once
each, with the conversions of the accepted messages of the streams handed to the reader so far:
all messages of the earlier streams and those read from the current one
(`delivered_in_order_exactly_once`). A callback that throws is reported once and changes nothing
else, whatever `on_error` does. Which messages the four subscriptions accept and what their
conversions carry over, field by field, is part of the result.
-/

namespace KubeMQ.Subscription

variable {P R : Type} {κ : SubKind P R} {h : Handlers}

/-- The run has no cancellation, and the streams deliver what the script says. -/
def follows [DecidableEq P] (script : ℕ → List P) (s : Sub P R) (a : Action P) : Bool :=
  a.keepsAlive &&
    match a with
    | .reader (.msg p) =>
      (script s.reader.stream)[readCount s.reader.stream s.mem.log]? == some p
    | .reader .eos =>
      readCount s.reader.stream s.mem.log == (script s.reader.stream).length
    | _ => true

/-- The accepted message that is about to be passed to the callback. -/
def ReaderPc.pending : ReaderPc R → List R
  | .dispatch r => [r]
  | _ => []

/-- The thrown exception that is about to be reported. -/
def ReaderPc.owed : ReaderPc R → List Exn
  | .report x => [x]
  | _ => []

/-- From the end of a stream to the opening of the next. -/
def ReaderPc.drained : ReaderPc R → Bool
  | .finish => true
  | .postFinish => true
  | .backoffLoop _ => true
  | .sleep _ => true
  | .recheck _ => true
  | .gate _ _ => true
  | .stub _ _ => true
  | _ => false

/-- The stream that was handed to the reader last. -/
def Reader.current (r : Reader R) : ℕ :=
  match r.pc with
  | .storeCtx n => n
  | _ => r.stream

/-- The callbacks of a subscription are called for the accepted messages of its streams, in order
and once each, and for every exception once; the reader is still in its loops. -/
structure Delivered (κ : SubKind P R) (h : Handlers) (script : ℕ → List P) (s : Sub P R) :
    Prop where
  running : s.mem.done = false ∧ s.reader.pc.exiting = false
  called : h.onEvent = true → ∃ earlier current, handed s.mem.log = earlier ++ [current] ∧
    onEvents s.mem.log ++ s.reader.pc.pending =
      ((earlier.flatMap script ++ (script current).take (readCount current s.mem.log)).filter
        κ.accepts).map κ.convert
  drained : s.reader.pc.drained = true →
    readCount s.reader.stream s.mem.log = (script s.reader.stream).length
  reported : h.onError = true →
    onErrors s.mem.log ++ s.reader.pc.owed.map κ.threwError =
      (throws s.mem.log).map κ.threwError
  fatal : ∀ st ∈ onErrors s.mem.log, st.code = .kFatal
  unset : (h.onEvent = false → onEvents s.mem.log = []) ∧
    (h.onError = false → onErrors s.mem.log = [])

/-- What the log says about the callbacks. -/
structure Answered (κ : SubKind P R) (h : Handlers) (log : List (Obs P R)) (pc : ReaderPc R) :
    Prop where
  called : h.onEvent = true →
    onEvents log ++ pc.pending = ((messages log).filter κ.accepts).map κ.convert
  reported : h.onError = true →
    onErrors log ++ pc.owed.map κ.threwError = (throws log).map κ.threwError
  fatal : ∀ st ∈ onErrors log, st.code = .kFatal
  noEvent : h.onEvent = false → onEvents log = []
  noError : h.onError = false → onErrors log = []

/-- What the log says about the streams. -/
structure Scripted (script : ℕ → List P) (log : List (Obs P R)) (r : Reader R) : Prop where
  streams : ∃ earlier, handed log = earlier ++ [r.current] ∧
    messages log = earlier.flatMap script ++ (script r.current).take (readCount r.current log)
  drained : r.pc.drained = true → readCount r.stream log = (script r.stream).length
  unread : ∀ n, r.pc = .storeCtx n → readCount n log = 0

lemma answered_start : Answered κ h (start : Sub P R).mem.log (start : Sub P R).reader.pc :=
  ⟨fun _ => rfl, fun _ => rfl, fun _ hs => absurd hs List.not_mem_nil, fun _ => rfl, fun _ => rfl⟩

lemma scripted_start (script : ℕ → List P) :
    Scripted script (start : Sub P R).mem.log (start : Sub P R).reader :=
  ⟨⟨[], rfl, rfl⟩, nofun, nofun⟩

/-- What one more entry has to add, to the calls and to what is still to be called. -/
lemma Answered.entry {log : List (Obs P R)} {pc pc' : ReaderPc R} {o : Obs P R}
    (inv : Answered κ h log pc)
    (called : h.onEvent = true → onEvents [o] ++ pc'.pending =
      pc.pending ++ ((messages [o]).filter κ.accepts).map κ.convert)
    (reported : h.onError = true → onErrors [o] ++ pc'.owed.map κ.threwError =
      pc.owed.map κ.threwError ++ (throws [o]).map κ.threwError)
    (fatal : ∀ st ∈ onErrors [o], st.code = .kFatal)
    (noEvent : h.onEvent = false → onEvents [o] = [])
    (noError : h.onError = false → onErrors [o] = []) : Answered κ h (log ++ [o]) pc' := by
  refine ⟨fun hset => ?_, fun hset => ?_, fun st hst => ?_, fun hset => ?_, fun hset => ?_⟩
  · rw [onEvents_append, messages_append, List.filter_append, List.map_append, List.append_assoc,
      called hset, ← List.append_assoc, inv.called hset]
  · rw [onErrors_append, throws_append, List.map_append, List.append_assoc, reported hset,
      ← List.append_assoc, inv.reported hset]
  · rw [onErrors_append] at hst
    rcases List.mem_append.mp hst with hst | hst
    · exact inv.fatal st hst
    · exact fatal st hst
  · rw [onEvents_append, inv.noEvent hset, noEvent hset, List.append_nil]
  · rw [onErrors_append, inv.noError hset, noError hset, List.append_nil]

/-- An entry that the callbacks do not show up in. -/
lemma Answered.other {log : List (Obs P R)} {pc pc' : ReaderPc R} {o : Obs P R}
    (inv : Answered κ h log pc) (hm : messages [o] = []) (hc : onEvents [o] = [])
    (ht : throws [o] = []) (he : onErrors [o] = []) (hp : pc'.pending = pc.pending)
    (hw : pc'.owed = pc.owed) : Answered κ h (log ++ [o]) pc' := by
  apply inv.entry
  · intro _
    rw [hc, hm, hp, List.nil_append, List.filter_nil, List.map_nil, List.append_nil]
  · intro _
    rw [he, ht, hw, List.nil_append, List.map_nil, List.append_nil]
  · rw [he]
    exact nofun
  · exact fun _ => hc
  · exact fun _ => he

/-- A message that is read is about to be passed on, when it is accepted. -/
lemma Answered.read {log : List (Obs P R)} {pc pc' : ReaderPc R} {n : ℕ} {p : P}
    (inv : Answered κ h log pc) (hp : pc.pending = []) (hw : pc.owed = [])
    (hp' : pc'.pending = ([p].filter κ.accepts).map κ.convert) (hw' : pc'.owed = []) :
    Answered κ h (log ++ [.read n p]) pc' := by
  apply inv.entry
  · intro _
    rw [hp, hp']
    rfl
  · intro _
    rw [hw, hw']
    rfl
  · exact nofun
  · exact fun _ => rfl
  · exact fun _ => rfl

lemma Answered.goto {log : List (Obs P R)} {pc pc' : ReaderPc R} (inv : Answered κ h log pc)
    (hp : h.onEvent = true → pc'.pending = pc.pending)
    (hw : h.onError = true → pc'.owed = pc.owed) : Answered κ h log pc' where
  called := fun h₁ => hp h₁ ▸ inv.called h₁
  reported := fun h₁ => hw h₁ ▸ inv.reported h₁
  fatal := inv.fatal
  noEvent := inv.noEvent
  noError := inv.noError

/-- One step of a reader that is not exiting. -/
lemma ReaderStep.answered {m m' : Mem P R} {n : ℕ} {lst : GrpcStatus} {pc : ReaderPc R}
    {r' : Reader R} {l : ReaderLabel P} (st : ReaderStep κ h m n lst pc l m' r')
    (hx : pc.exiting = false) (inv : Answered κ h m.log pc) : Answered κ h m'.log r'.pc := by
  cases st
  case accept p ha ht =>
    obtain ⟨-, -, -, -, hl, -⟩ := Mem.take_spec ht
    rw [hl]
    exact inv.read rfl rfl (by simp [ReaderPc.pending, ha]) rfl
  case skip p ha ht =>
    obtain ⟨-, -, -, -, hl, -⟩ := Mem.take_spec ht
    rw [hl]
    exact inv.read rfl rfl (by simp [ReaderPc.pending, ha]) rfl
  case call e hset =>
    exact inv.entry (fun _ => rfl) (fun _ => rfl) nofun (by simp [hset]) (fun _ => rfl)
  case threw x => exact inv.entry (fun _ => rfl) (fun _ => rfl) nofun (fun _ => rfl) (fun _ => rfl)
  case report x hset =>
    refine inv.entry (fun _ => rfl) (fun _ => rfl) (fun e he => ?_) (fun _ => rfl) (by simp [hset])
    cases List.mem_singleton.mp he
    exact callbackThrew_code _ _
  case noCall hset => exact inv.goto (by simp [hset]) (fun _ => rfl)
  case noReport hset => exact inv.goto (fun _ => rfl) (by simp [hset])
  case enter => exact inv.other rfl rfl rfl rfl rfl rfl
  case finish => exact inv.other rfl rfl rfl rfl rfl rfl
  case attempt => exact inv.other rfl rfl rfl rfl rfl rfl
  case gateRefused => exact inv.other rfl rfl rfl rfl rfl rfl
  case opened => exact inv.other rfl rfl rfl rfl rfl rfl
  case stubRefused => exact inv.other rfl rfl rfl rfl rfl rfl
  all_goals first | exact inv.goto (fun _ => rfl) (fun _ => rfl) | cases hx

/-- An entry that opens and reads nothing, between states with the same current stream. -/
lemma Scripted.other {script : ℕ → List P} {log : List (Obs P R)} {r r' : Reader R}
    {e : List (Obs P R)} (inv : Scripted script log r) (ho : handed e = []) (hm : messages e = [])
    (hr : ∀ n, readCount n e = 0) (hs : r'.stream = r.stream) (hc : r'.current = r.current)
    (hd : r'.pc.drained = true → readCount r.stream log = (script r.stream).length)
    (hst : ∀ n, r'.pc ≠ .storeCtx n) : Scripted script (log ++ e) r' := by
  have count (n : ℕ) : readCount n (log ++ e) = readCount n log := by
    rw [readCount_append, hr n, Nat.add_zero]
  obtain ⟨earlier, h₁, h₂⟩ := inv.streams
  refine ⟨⟨earlier, ?_, ?_⟩, ?_, fun n hn => absurd hn (hst n)⟩
  · rw [handed_append, ho, List.append_nil, h₁, hc]
  · rw [messages_append, hm, List.append_nil, h₂, hc, count]
  · intro hd'
    rw [hs, count]
    exact hd hd'

/-- The next message of the current stream. -/
lemma Scripted.read {script : ℕ → List P} {log : List (Obs P R)} {n : ℕ} {lst : GrpcStatus}
    {p : P} {pc : ReaderPc R} (inv : Scripted script log ⟨.read, n, lst⟩)
    (hp : (script n)[readCount n log]? = some p) (hd : pc.drained = false)
    (hst : ∀ k, pc ≠ .storeCtx k) : Scripted script (log ++ [.read n p]) ⟨pc, n, lst⟩ := by
  have hcur : Reader.current ⟨pc, n, lst⟩ = n := by
    cases pc <;> first | rfl | exact absurd rfl (hst _)
  have hcount : readCount n (log ++ [Obs.read n p]) = readCount n log + 1 := by
    simp [readCount]
  obtain ⟨earlier, h₁, h₂⟩ := inv.streams
  have h₁ : handed log = earlier ++ [n] := h₁
  have h₂ : messages log = earlier.flatMap script ++ (script n).take (readCount n log) := h₂
  refine ⟨⟨earlier, ?_, ?_⟩, fun hd' => ?_, fun k hk => absurd hk (hst k)⟩
  · rw [hcur]
    simpa [handed] using h₁
  · rw [hcur, hcount, List.take_add_one, hp, messages_append, h₂, List.append_assoc]
    rfl
  · rw [hd] at hd'
    cases hd'

/-- A new stream is handed to the reader when the current one is drained. -/
lemma Scripted.opened {script : ℕ → List P} {log : List (Obs P R)} {n b k : ℕ} {d : Bool}
    {lst : GrpcStatus} (inv : Scripted script log ⟨.stub b k, n, lst⟩)
    (fresh : ∀ o ∈ log, o.source ≠ some k) :
    Scripted script (log ++ [.opened k d]) ⟨.storeCtx k, n, lst⟩ := by
  have hzero : readCount k (log ++ [Obs.opened k d]) = 0 := by
    refine readCount_eq_zero fun o ho => ?_
    rcases List.mem_append.mp ho with ho | ho
    · exact fresh o ho
    · cases List.mem_singleton.mp ho
      exact nofun
  obtain ⟨earlier, h₁, h₂⟩ := inv.streams
  have hd := inv.drained rfl
  have h₁ : handed log = earlier ++ [n] := h₁
  have h₂ : messages log = earlier.flatMap script ++ (script n).take (readCount n log) := h₂
  have hd : readCount n log = (script n).length := hd
  rw [hd, List.take_length] at h₂
  refine ⟨⟨earlier ++ [n], ?_, ?_⟩, nofun, fun j hj => ?_⟩
  · show handed (log ++ [.opened k d]) = earlier ++ [n] ++ [k]
    rw [← h₁]
    simp [handed]
  · show messages (log ++ [.opened k d]) =
      (earlier ++ [n]).flatMap script ++ (script k).take (readCount k (log ++ [.opened k d]))
    rw [hzero]
    simpa [messages] using h₂
  · cases hj
    exact hzero

lemma Scripted.storeCtx {script : ℕ → List P} {log : List (Obs P R)} {n k : ℕ}
    {lst : GrpcStatus} (inv : Scripted script log ⟨.storeCtx k, n, lst⟩) :
    Scripted script log ⟨.outer, k, lst⟩ :=
  ⟨inv.streams, nofun, nofun⟩

/-- One step of a reader that follows the script. -/
lemma Scripted.step [DecidableEq P] {script : ℕ → List P} {s : Sub P R} {l : ReaderLabel P}
    {m' : Mem P R} {r' : Reader R} (inv : Scripted script s.mem.log s.reader)
    (ri : ReaderInv s.mem s.reader) (hx : s.reader.pc.exiting = false)
    (hf : follows script s (.reader l) = true)
    (st : ReaderStep κ h s.mem s.reader.stream s.reader.lastStatus s.reader.pc l m' r') :
    Scripted script m'.log r' := by
  obtain ⟨m, ⟨pc, n, lst⟩, calls⟩ := s
  dsimp only at inv ri hx st
  -- a step that records nothing, or an entry of another kind
  have goto {pc' : ReaderPc R} {st' : GrpcStatus}
      (hc : Reader.current ⟨pc', n, st'⟩ = Reader.current ⟨pc, n, lst⟩)
      (hd : pc'.drained = true → readCount n m.log = (script n).length)
      (hst : ∀ k, pc' ≠ .storeCtx k) : Scripted script m.log ⟨pc', n, st'⟩ := by
    have this : Scripted script (m.log ++ []) ⟨pc', n, st'⟩ :=
      inv.other rfl rfl (fun _ => rfl) rfl hc hd hst
    rwa [List.append_nil] at this
  cases st
  case accept p ha ht =>
    obtain ⟨-, -, -, -, hl, -⟩ := Mem.take_spec ht
    show Scripted script m'.log _
    rw [hl]
    exact inv.read (by simpa [follows, Action.keepsAlive] using hf) rfl nofun
  case skip p ha ht =>
    obtain ⟨-, -, -, -, hl, -⟩ := Mem.take_spec ht
    show Scripted script m'.log _
    rw [hl]
    exact inv.read (by simpa [follows, Action.keepsAlive] using hf) rfl nofun
  case eos => exact goto rfl (fun _ => by simpa [follows, Action.keepsAlive] using hf) nofun
  case opened b k => exact inv.opened (ri.fresh k rfl).2
  case storeCtx => exact inv.storeCtx
  case finish =>
    exact inv.other (e := [_]) rfl rfl (fun _ => rfl) rfl rfl (fun _ => inv.drained rfl) nofun
  case attempt =>
    exact inv.other (e := [_]) rfl rfl (fun _ => rfl) rfl rfl (fun _ => inv.drained rfl) nofun
  case gateRefused =>
    exact inv.other (e := [_]) rfl rfl (fun _ => rfl) rfl rfl (fun _ => inv.drained rfl) nofun
  case stubRefused =>
    exact inv.other (e := [_]) rfl rfl (fun _ => rfl) rfl rfl (fun _ => inv.drained rfl) nofun
  case enter => exact inv.other (e := [_]) rfl rfl (fun _ => rfl) rfl rfl nofun nofun
  case call => exact inv.other (e := [_]) rfl rfl (fun _ => rfl) rfl rfl nofun nofun
  case threw => exact inv.other (e := [_]) rfl rfl (fun _ => rfl) rfl rfl nofun nofun
  case report => exact inv.other (e := [_]) rfl rfl (fun _ => rfl) rfl rfl nofun nofun
  case broke => exact goto rfl (fun _ => inv.drained rfl) nofun
  case wait => exact goto rfl (fun _ => inv.drained rfl) nofun
  case slept => exact goto rfl (fun _ => inv.drained rfl) nofun
  case gatePassed => exact goto rfl (fun _ => inv.drained rfl) nofun
  all_goals first | exact goto rfl nofun nofun | cases hx

/-- The invariant of the runs that follow the script. -/
structure DeliveryInv (κ : SubKind P R) (h : Handlers) (script : ℕ → List P) (s : Sub P R) :
    Prop where
  alive : Alive s
  answered : Answered κ h s.mem.log s.reader.pc
  scripted : Scripted script s.mem.log s.reader

lemma DeliveryInv.step [DecidableEq P] {script : ℕ → List P} {s t : Sub P R} {a : Action P}
    (inv : DeliveryInv κ h script s) (ci : CancelInv s) (hf : follows script s a = true)
    (st : Step κ h s a t) : DeliveryInv κ h script t := by
  have ha : a.keepsAlive = true := (Bool.and_eq_true _ _ ▸ hf).1
  refine ⟨inv.alive.step ha st, ?_, ?_⟩
  · cases st with
    | begin => exact inv.answered
    | call hpc st =>
      show Answered κ h _ _
      rw [st.effect.log]
      exact inv.answered
    | reader st => exact st.answered inv.alive.running inv.answered
  · cases st with
    | begin => exact inv.scripted
    | call hpc st =>
      show Scripted script _ _
      rw [st.effect.log]
      exact inv.scripted
    | reader st => exact inv.scripted.step ci.reader inv.alive.running hf st

lemma DeliveryInv.delivered {script : ℕ → List P} {s : Sub P R}
    (inv : DeliveryInv κ h script s) : Delivered κ h script s where
  running := ⟨inv.alive.done, inv.alive.running⟩
  called := by
    intro hset
    obtain ⟨earlier, h₁, h₂⟩ := inv.scripted.streams
    refine ⟨earlier, s.reader.current, h₁, ?_⟩
    rw [← h₂]
    exact inv.answered.called hset
  drained := inv.scripted.drained
  reported := inv.answered.reported
  fatal := inv.answered.fatal
  unset := ⟨inv.answered.noEvent, inv.answered.noError⟩

/-- In every run without cancellation whose streams deliver what the script says, the callbacks
are called as `Delivered` describes. Events are all accepted, requests by their type, and every
field of the message goes to the callback. -/
theorem delivered_in_order_exactly_once {P R : Type} [DecidableEq P] (κ : SubKind P R)
    (h : Handlers) (script : ℕ → List P) (s : Sub P R)
    (hr : (sys κ h).Reach (fun s a => follows script s a = true) s) :
    Delivered κ h script s ∧
    (∀ p, SubKind.events.accepts p = true ∧
      SubKind.events.convert p =
        { id := p.eventID, channel := p.channel, metadata := p.metadata, body := p.body
          timestamp := p.timestamp, sequence := p.sequence, tags := p.tags }) ∧
    (∀ p, SubKind.eventsStore.accepts p = true ∧
      SubKind.eventsStore.convert p =
        { id := p.eventID, sequence := p.sequence, timestamp := p.timestamp, channel := p.channel
          metadata := p.metadata, body := p.body, tags := p.tags }) ∧
    (∀ p, (SubKind.commands.accepts p = true ↔ p.requestTypeData = .Command) ∧
      SubKind.commands.convert p =
        { id := p.requestID, clientId := p.clientID, channel := p.channel
          metadata := p.metadata, body := p.body, responseTo := p.replyChannel
          timeout := 1000 * p.timeout, tags := p.tags }) ∧
    ∀ p, (SubKind.queries.accepts p = true ↔ p.requestTypeData = .Query) ∧
      SubKind.queries.convert p =
        { id := p.requestID, clientId := p.clientID, channel := p.channel
          metadata := p.metadata, body := p.body, responseTo := p.replyChannel
          timeout := 1000 * p.timeout, cacheKey := p.cacheKey
          cacheTtl := 1000 * p.cacheTTL, tags := p.tags } := by
  refine ⟨?_, fun p => ⟨rfl, ?_⟩, fun p => ⟨rfl, ?_⟩, fun p => ⟨beq_iff_eq, ?_⟩,
    fun p => ⟨beq_iff_eq, ?_⟩⟩
  · refine (hr.invariant (I := DeliveryInv κ h script) ?_ ?_).delivered
    · rintro s rfl
      exact ⟨alive_start, answered_start, scripted_start script⟩
    · intro s a t hs inv hf hn
      exact inv.step (CancelInv.of_reachable hs.reachable) hf (Step.of_next hn)
  -- the copies of the tags are the tags
  · simp [SubKind.events, receiveEvent]
  · simp [SubKind.eventsStore, receiveEventStore]
  · simp [SubKind.commands, receiveCommand, seconds]
  · simp [SubKind.queries, receiveQuery, seconds]

def sampleEvent (id : String) : Proto.EventReceive where
  eventID := id
  channel := "news"
  metadata := ""
  body := [1]
  timestamp := 0
  sequence := 0
  tags := ∅

/-- Two messages on the first stream and one on the third; the second attempt is refused. -/
def sampleScript : ℕ → List Proto.EventReceive
  | 0 => [sampleEvent "a", sampleEvent "b"]
  | 2 => [sampleEvent "c"]
  | _ => []

/-- The callback throws at the first message, and `on_error` throws when it is told. -/
def throwAndReconnect : List (Action Proto.EventReceive) :=
  [.reader .tau, .reader (.msg (sampleEvent "a")), .reader .tau,
    .reader (.callback (some (.exception "bad"))), .reader .tau,
    .reader (.callback (some .unknown)), .reader (.msg (sampleEvent "b")), .reader .tau,
    .reader (.callback none), .reader .eos, .reader (.finish ⟨.UNAVAILABLE, "down"⟩),
    .reader .tau, .reader .tau, .reader .slept, .reader .tau, .reader (.gate false),
    .reader .tau, .reader .slept, .reader .tau, .reader (.gate true), .reader (.stub true),
    .reader .tau, .reader .tau, .reader (.msg (sampleEvent "c")), .reader .tau]

theorem delivered_in_order_exactly_once_sample :
    ∃ s, (sys SubKind.events ⟨true, true⟩).exec start throwAndReconnect = some s ∧
      Delivered SubKind.events ⟨true, true⟩ sampleScript s := by
  refine ⟨_, rfl,
    (delivered_in_order_exactly_once SubKind.events ⟨true, true⟩ sampleScript _ ?_).1⟩
  exact Lts.Sys.Reach.execWhere (.init rfl) throwAndReconnect rfl

end KubeMQ.Subscription
