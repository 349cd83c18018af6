import KubeMQ.Subscription.Inversion

/-!
# Cancelling a subscription

`Cancel` sets `done` and then cancels whichever context is stored, while the reader thread may be
about to replace it. The invariant `CancelInv` relates the calls of `Cancel`, the stored context
and the reader: inside the read loop the stream read is the one whose context is stored, and the
loop is not entered any more once `done` is set. A `Cancel` that has read the context while the
reader was in its loop has therefore read the right one.

`cancel_is_never_lost` collects what follows: the reader never reads an uncancelled stream after a
completed `Cancel`, opens at most one stream after `done` was set and does not read it, exits on
every continuation on which it keeps being scheduled, and runs no callback after the join.
-/

namespace KubeMQ.Subscription

variable {P R : Type} {κ : SubKind P R} {h : Handlers}

/-- Between entering the read loop and the `Read` that returns false. -/
def ReaderPc.inLoop : ReaderPc R → Bool
  | .read => true
  | .dispatch _ => true
  | .inCallback => true
  | .report _ => true
  | .inReport => true
  | _ => false

/-- The context on which a completed `Cancel` has called `TryCancel`. -/
def CallPc.completed : CallPc → Option ℕ
  | .cancelled c => some c
  | .join c _ => c
  | .joined c => c
  | _ => none

/-- The context that a `Cancel` has read. -/
def CallPc.target : CallPc → Option ℕ
  | .cancelTry _ c => some c
  | pc => pc.completed

/-- A `Cancel` that has set `done`. -/
def CallPc.stored : CallPc → Bool
  | .cancelRead _ => true
  | pc => pc.target.isSome

lemma CallPc.stored_of_target {pc : CallPc} {c : ℕ} (h : pc.target = some c) :
    pc.stored = true := by
  cases pc <;> simp_all [CallPc.stored, CallPc.target, CallPc.completed]

lemma CallPc.target_of_completed {pc : CallPc} {c : ℕ} (h : pc.completed = some c) :
    pc.target = some c := by
  cases pc <;> first | exact h | cases h

def Sub.cancelCompleted (s : Sub P R) : Prop :=
  ∃ pc ∈ s.calls, pc.completed.isSome = true

/-- A stream that was opened after `done` had been set. -/
def Obs.isLateOpen : Obs P R → Bool
  | .opened _ b => b
  | _ => false

/-- The stream that an entry of the log says is read. -/
def Obs.source : Obs P R → Option ℕ
  | .reading n => some n
  | .read n _ => some n
  | _ => none

def Action.isReader : Action P → Bool
  | .reader _ => true
  | _ => false

/-- `Cancel` is not lost: see the module's header. -/
structure CancelHeld (κ : SubKind P R) (h : Handlers) (s : Sub P R) : Prop where
  stopped : s.cancelCompleted → s.reader.pc.inLoop = true →
    (s.mem.cancelled s.reader.stream).isSome = true
  lateOnce : s.mem.log.countP Obs.isLateOpen ≤ 1
  lateUnread : ∀ n, .opened n true ∈ s.mem.log → ∀ o ∈ s.mem.log, o.source ≠ some n
  canStep : s.cancelCompleted → s.reader.pc.isExited = false →
    ∃ l, (next κ h s (.reader l)).isSome = true
  bounded : s.cancelCompleted → ∃ bound, ∀ as t, (sys κ h).exec s as = some t →
    as.countP Action.isReader ≤ bound
  exits : s.cancelCompleted → ∀ ρ : Lts.Sys.Path (sys κ h), ρ.st 0 = s →
    (∀ n, ∃ m, n ≤ m ∧
      ((ρ.act m).isReader = true ∨ (ρ.st m).reader.pc.isExited = true)) →
    ∃ m, (ρ.st m).reader.pc.isExited = true
  silent : ∀ c, .joined c ∈ s.calls → ∀ l, next κ h s (.reader l) = none

/-- After a late opening the reader only has to leave. -/
def ReaderPc.leaving : ReaderPc R → Bool
  | .storeCtx _ => true
  | .outer => true
  | .exitCheck => true
  | .exited => true
  | _ => false

/-- The stream that is being opened. -/
def ReaderPc.opening : ReaderPc R → Option ℕ
  | .gate _ n => some n
  | .stub _ n => some n
  | _ => none

/-- The part of the invariant that is about the reader alone. -/
structure ReaderInv (m : Mem P R) (r : Reader R) : Prop where
  ctx : m.ctx = r.stream
  old : r.stream < m.created
  stored : ∀ k, r.pc = .storeCtx k → k < m.created
  sources : ∀ o ∈ m.log, ∀ k, o.source = some k → k < m.created
  fresh : ∀ k, r.pc.opening = some k → k < m.created ∧ ∀ o ∈ m.log, o.source ≠ some k
  lateUnread : ∀ n, .opened n true ∈ m.log → ∀ o ∈ m.log, o.source ≠ some n
  late : m.log.countP Obs.isLateOpen ≤ 1
  leaving : 0 < m.log.countP Obs.isLateOpen → m.done = true ∧ r.pc.leaving = true

/-- The invariant of all runs. -/
structure CancelInv (s : Sub P R) : Prop where
  reader : ReaderInv s.mem s.reader
  sound : s.mem.joiner.Sound s.reader.pc.isExited
  joined : ∀ c, .joined c ∈ s.calls → s.mem.joiner.joinable = false
  done : ∀ pc ∈ s.calls, pc.stored = true → s.mem.done = true
  target : ∀ pc ∈ s.calls, ∀ c, pc.target = some c → s.reader.pc.inLoop = true →
    c = s.reader.stream
  cancelled : ∀ pc ∈ s.calls, ∀ c, pc.completed = some c →
    (s.mem.cancelled c).isSome = true

lemma readerInv_start : ReaderInv (start : Sub P R).mem (start : Sub P R).reader where
  ctx := rfl
  old := Nat.one_pos
  stored := nofun
  sources := by
    intro o ho k hk
    cases List.mem_singleton.mp ho
    cases hk
  fresh := nofun
  lateUnread := by
    intro n hn
    cases List.mem_singleton.mp hn
  late := Nat.zero_le 1
  leaving := by
    intro hl
    cases hl

lemma cancelInv_start : CancelInv (start : Sub P R) where
  reader := readerInv_start
  sound := Joiner.sound_start _
  joined := fun _ hc => absurd hc List.not_mem_nil
  done := fun _ hc => absurd hc List.not_mem_nil
  target := fun _ hc => absurd hc List.not_mem_nil
  cancelled := fun _ hc => absurd hc List.not_mem_nil

/-- A step of the reader that records nothing about opening or reading. -/
lemma ReaderInv.plain {m m' : Mem P R} {r : Reader R} {pc : ReaderPc R} {st : GrpcStatus}
    {e : List (Obs P R)} (inv : ReaderInv m r) (hctx : m'.ctx = m.ctx)
    (hcr : m.created ≤ m'.created) (hd : m.done = true → m'.done = true)
    (hlog : m'.log = m.log ++ e) (ho : ∀ o ∈ e, o.source = none ∧ ∀ n b, o ≠ .opened n b)
    (hst : ∀ k, pc ≠ .storeCtx k)
    (hop : ∀ k, pc.opening = some k →
      r.pc.opening = some k ∨ (k = m.created ∧ k < m'.created))
    (hl : m.done = true → r.pc.leaving = true → pc.leaving = true) :
    ReaderInv m' ⟨pc, r.stream, st⟩ := by
  have hlate : m'.log.countP Obs.isLateOpen = m.log.countP Obs.isLateOpen := by
    rw [hlog, List.countP_append]
    have hz : e.countP Obs.isLateOpen = 0 := by
      refine List.countP_eq_zero.mpr fun o hm => ?_
      have := (ho o hm).2
      cases o <;> simp_all [Obs.isLateOpen]
    omega
  have src (o : Obs P R) (hm : o ∈ m'.log) : o ∈ m.log ∨ o.source = none := by
    rw [hlog] at hm
    rcases List.mem_append.mp hm with hm | hm
    · exact .inl hm
    · exact .inr (ho o hm).1
  refine ⟨hctx.trans inv.ctx, Nat.lt_of_lt_of_le inv.old hcr, fun k hk => absurd hk (hst k),
    ?_, ?_, ?_, ?_, ?_⟩
  · intro o hm k hk
    rcases src o hm with hm | hn
    · exact Nat.lt_of_lt_of_le (inv.sources o hm k hk) hcr
    · rw [hn] at hk
      cases hk
  · intro k hk
    rcases hop k hk with hk | ⟨rfl, hlt⟩
    · obtain ⟨hlt, hf⟩ := inv.fresh k hk
      refine ⟨Nat.lt_of_lt_of_le hlt hcr, fun o hm => ?_⟩
      rcases src o hm with hm | hn
      · exact hf o hm
      · rw [hn]
        exact nofun
    · -- a new context: everything that was read has a smaller number
      refine ⟨hlt, fun o hm hs => ?_⟩
      rcases src o hm with hm | hn
      · exact absurd (inv.sources o hm _ hs) (Nat.lt_irrefl _)
      · rw [hn] at hs
        cases hs
  · intro n hn o hm
    have hn : Obs.opened n true ∈ m.log := by
      rw [hlog] at hn
      rcases List.mem_append.mp hn with hn | hn
      · exact hn
      · exact absurd rfl ((ho _ hn).2 n true)
    rcases src o hm with hm | hs
    · exact inv.lateUnread n hn o hm
    · rw [hs]
      exact nofun
  · exact hlate ▸ inv.late
  · intro hpos
    rw [hlate] at hpos
    obtain ⟨h₁, h₂⟩ := inv.leaving hpos
    exact ⟨hd h₁, hl h₁ h₂⟩

/-- The reader records that it reads its stream; it has not opened one late. -/
lemma ReaderInv.reading {m m' : Mem P R} {r : Reader R} {pc : ReaderPc R} {o : Obs P R}
    (inv : ReaderInv m r) (hctx : m'.ctx = m.ctx) (hcr : m'.created = m.created)
    (hlog : m'.log = m.log ++ [o]) (hs : o.source = some r.stream)
    (hno : m.done = true → r.pc.leaving = false)
    (hst : ∀ k, pc ≠ .storeCtx k) (hop : pc.opening = none) :
    ReaderInv m' ⟨pc, r.stream, r.lastStatus⟩ := by
  have hzero : m.log.countP Obs.isLateOpen = 0 := by
    by_contra hne
    obtain ⟨h₁, h₂⟩ := inv.leaving (by omega)
    rw [hno h₁] at h₂
    cases h₂
  have hlate : m'.log.countP Obs.isLateOpen = 0 := by
    rw [hlog, List.countP_append, hzero]
    cases o <;> simp_all [Obs.isLateOpen, Obs.source]
  refine ⟨hctx.trans inv.ctx, hcr ▸ inv.old, fun k hk => absurd hk (hst k), ?_, ?_, ?_, ?_, ?_⟩
  · intro o' hm k hk
    rw [hlog] at hm
    rcases List.mem_append.mp hm with hm | hm
    · exact hcr ▸ inv.sources o' hm k hk
    · cases List.mem_singleton.mp hm
      rw [hs] at hk
      cases hk
      exact hcr ▸ inv.old
  · intro k hk
    show k < m'.created ∧ _
    simp only [hop] at hk
    cases hk
  · intro n hn
    exact absurd (List.countP_eq_zero.mp hlate _ hn) (by simp [Obs.isLateOpen])
  · exact hlate ▸ Nat.zero_le 1
  · intro hpos
    rw [hlate] at hpos
    cases hpos

/-- A stream is opened; when `done` is set by now, the reader will not get to read it. -/
lemma ReaderInv.opened {m : Mem P R} {r : Reader R} {k : ℕ} (inv : ReaderInv m r)
    (hop : r.pc.opening = some k) (hnl : r.pc.leaving = false) :
    ReaderInv (m.observe (.opened k m.done)) ⟨.storeCtx k, r.stream, r.lastStatus⟩ := by
  obtain ⟨hlt, hf⟩ := inv.fresh k hop
  have hzero : m.log.countP Obs.isLateOpen = 0 := by
    by_contra hne
    have := (inv.leaving (by omega)).2
    rw [hnl] at this
    cases this
  have src (o : Obs P R) (hm : o ∈ m.log ++ [.opened k m.done]) : o ∈ m.log ∨ o.source = none := by
    rcases List.mem_append.mp hm with hm | hm
    · exact .inl hm
    · cases List.mem_singleton.mp hm
      exact .inr rfl
  have hcount : (m.log ++ [Obs.opened k m.done]).countP Obs.isLateOpen =
      if m.done then 1 else 0 := by
    rw [List.countP_append, hzero]
    cases m.done <;> rfl
  refine ⟨inv.ctx, inv.old, ?_, ?_, nofun, ?_, ?_, ?_⟩
  · intro j hj
    cases hj
    exact hlt
  · intro o hm j hj
    rcases src o hm with hm | hn
    · exact inv.sources o hm j hj
    · rw [hn] at hj
      cases hj
  · intro n hn o hm
    have hn : n = k := by
      rcases List.mem_append.mp hn with hn | hn
      · exact absurd (List.countP_eq_zero.mp hzero _ hn) (by simp [Obs.isLateOpen])
      · injection List.mem_singleton.mp hn
    subst hn
    rcases src o hm with hm | hs
    · exact hf o hm
    · rw [hs]
      exact nofun
  · show (m.log ++ [Obs.opened k m.done]).countP Obs.isLateOpen ≤ 1
    rw [hcount]
    split <;> omega
  · intro hpos
    refine ⟨?_, rfl⟩
    show m.done = true
    have hpos : 0 < (m.log ++ [Obs.opened k m.done]).countP Obs.isLateOpen := hpos
    rw [hcount] at hpos
    split at hpos
    · assumption
    · cases hpos

/-- The context is stored together with the stream. -/
lemma ReaderInv.storeCtx {m : Mem P R} {r : Reader R} {k : ℕ} (inv : ReaderInv m r)
    (hp : r.pc = .storeCtx k) : ReaderInv { m with ctx := k } ⟨.outer, k, r.lastStatus⟩ where
  ctx := rfl
  old := inv.stored k hp
  stored := nofun
  sources := inv.sources
  fresh := nofun
  lateUnread := inv.lateUnread
  late := inv.late
  leaving := fun hpos => ⟨(inv.leaving hpos).1, rfl⟩

lemma ReaderInv.step {m m' : Mem P R} {r r' : Reader R} {l : ReaderLabel P}
    (inv : ReaderInv m r) (st : ReaderStep κ h m r.stream r.lastStatus r.pc l m' r') :
    ReaderInv m' r' := by
  obtain ⟨pc, n, lst⟩ := r
  have plain {pc' : ReaderPc R} {st' : GrpcStatus} (hst : ∀ k, pc' ≠ .storeCtx k)
      (hop : ∀ k, pc'.opening = some k → pc.opening = some k)
      (hl : m.done = true → pc.leaving = true → pc'.leaving = true) :
      ReaderInv m ⟨pc', n, st'⟩ :=
    inv.plain (e := []) rfl (Nat.le_refl _) id (by simp) (by simp) hst
      (fun k hk => .inl (hop k hk)) hl
  have logged {pc' : ReaderPc R} {st' : GrpcStatus} {o : Obs P R} (hs : o.source = none)
      (ho : ∀ n b, o ≠ .opened n b) (hst : ∀ k, pc' ≠ .storeCtx k) (hop : pc'.opening = none)
      (hl : m.done = true → pc.leaving = true → pc'.leaving = true) :
      ReaderInv (m.observe o) ⟨pc', n, st'⟩ :=
    inv.plain (e := [o]) rfl (Nat.le_refl _) id rfl
      (fun o' hm => List.mem_singleton.mp hm ▸ ⟨hs, ho⟩) hst
      (fun k hk => by simp [hop] at hk) hl
  cases st
  case enter hd => exact inv.reading rfl rfl rfl rfl (by simp [hd]) nofun rfl
  case accept _ ht =>
    obtain ⟨hd, hc, hcr, -, hlog, -⟩ := Mem.take_spec ht
    exact inv.reading hc hcr hlog rfl (fun _ => rfl) nofun rfl
  case skip _ ht =>
    obtain ⟨hd, hc, hcr, -, hlog, -⟩ := Mem.take_spec ht
    exact inv.reading hc hcr hlog rfl (fun _ => rfl) nofun rfl
  case attempt hd =>
    refine inv.plain (e := [.attempt m.created _]) rfl (Nat.le_succ _) id rfl (by simp [Obs.source])
      nofun ?_ (by simp [hd])
    intro k hk
    cases hk
    exact .inr ⟨rfl, Nat.lt_succ_self _⟩
  case opened => exact inv.opened rfl rfl
  case storeCtx => exact inv.storeCtx rfl
  case call => exact logged rfl nofun nofun rfl nofun
  case threw => exact logged rfl nofun nofun rfl nofun
  case report => exact logged rfl nofun nofun rfl nofun
  case finish => exact logged rfl nofun nofun rfl nofun
  case gateRefused => exact logged rfl nofun nofun rfl nofun
  case stubRefused => exact logged rfl nofun nofun rfl nofun
  case exitReport => exact logged rfl nofun nofun rfl nofun
  case gatePassed => exact plain nofun (fun k hk => hk) nofun
  case unexpected hd => exact plain nofun nofun (by simp [hd])
  case exitStore =>
    exact inv.plain (e := []) rfl (Nat.le_refl _) (fun _ => rfl) (by simp) (by simp) nofun nofun
      nofun
  case leave => exact plain nofun nofun (fun _ _ => rfl)
  case exit => exact plain nofun nofun (fun _ _ => rfl)
  all_goals exact plain nofun nofun nofun

/-- What a step of a call does to the memory: it stores `done`, cancels a context or joins. -/
structure CallEffect (exited : Bool) (m m' : Mem P R) : Prop where
  ctx : m'.ctx = m.ctx
  created : m'.created = m.created
  log : m'.log = m.log
  done : m.done = true → m'.done = true
  cancelled : ∀ n, (m.cancelled n).isSome = true → m'.cancelled n = m.cancelled n
  sound : m.joiner.Sound exited → m'.joiner.Sound exited
  joined : m.joiner.Sound exited → m.joiner.joinable = false → m'.joiner.joinable = false

lemma CallStep.effect {exited : Bool} {m m' : Mem P R} {pc pc' : CallPc} {l : CallLabel}
    (st : CallStep exited m pc l m' pc') : CallEffect exited m m' := by
  have try_ (c k : ℕ) : CallEffect exited m (m.tryCancel c k) := by
    obtain ⟨hd, hc, hcr, hj, hl, -, hn⟩ := m.tryCancel_spec c k
    exact ⟨hc, hcr, hl, (hd ▸ ·), hn, (hj ▸ ·), fun _ => (hj ▸ ·)⟩
  have join_ {p q : JoinPc} {j : Joiner} (hj : m.joiner.next exited p = some (j, q)) :
      CallEffect exited m { m with joiner := j } :=
    ⟨rfl, rfl, rfl, id, fun _ _ => rfl, fun hs => (Joiner.next_spec hs hj).1,
      fun hs => (Joiner.next_spec hs hj).2.2.2⟩
  cases st
  case store => exact ⟨rfl, rfl, rfl, fun _ => rfl, fun _ _ => rfl, id, fun _ => id⟩
  case readCtx => exact ⟨rfl, rfl, rfl, id, fun _ _ => rfl, id, fun _ => id⟩
  case tryCancel => exact try_ _ _
  case tryCancelJoin => exact try_ _ _
  case join hj _ => exact join_ hj
  case joined hj => exact join_ hj
  case isDone => exact ⟨rfl, rfl, rfl, id, fun _ _ => rfl, id, fun _ => id⟩

lemma ReaderInv.effect {m m' : Mem P R} {r : Reader R} {b : Bool} (inv : ReaderInv m r)
    (e : CallEffect b m m') : ReaderInv m' r where
  ctx := e.ctx.trans inv.ctx
  old := e.created ▸ inv.old
  stored := fun k hk => e.created ▸ inv.stored k hk
  sources := fun o ho k hk => e.created ▸ inv.sources o (e.log ▸ ho) k hk
  fresh := by
    intro k hk
    obtain ⟨hlt, hf⟩ := inv.fresh k hk
    exact ⟨e.created ▸ hlt, fun o ho => hf o (e.log ▸ ho)⟩
  lateUnread := fun n hn o ho => inv.lateUnread n (e.log ▸ hn) o (e.log ▸ ho)
  late := e.log ▸ inv.late
  leaving := by
    intro hpos
    obtain ⟨h₁, h₂⟩ := inv.leaving (e.log ▸ hpos)
    exact ⟨e.done h₁, h₂⟩

/-- How a call comes to have set `done`, to have read a context, and to have cancelled it. -/
lemma CallStep.target {exited : Bool} {m m' : Mem P R} {pc pc' : CallPc} {l : CallLabel}
    (st : CallStep exited m pc l m' pc') :
    (pc'.stored = true → m'.done = true ∨ pc.stored = true) ∧
    (∀ c, pc'.target = some c → c = m.ctx ∨ pc.target = some c) ∧
    (∀ c, pc'.completed = some c → (m'.cancelled c).isSome = true ∨ pc.completed = some c) ∧
    (∀ c, pc.completed = some c → pc'.completed = some c) := by
  cases st
  case store => exact ⟨fun _ => .inl rfl, nofun, nofun, nofun⟩
  case readCtx =>
    refine ⟨fun _ => .inr rfl, fun c hc => ?_, nofun, nofun⟩
    cases hc
    exact .inl rfl
  case tryCancel c k =>
    refine ⟨fun _ => .inr rfl, fun c' hc => .inr hc, fun c' hc => ?_, nofun⟩
    cases hc
    exact .inl (m.tryCancel_spec c k).2.2.2.2.2.1
  case tryCancelJoin c k =>
    refine ⟨fun _ => .inr rfl, fun c' hc => .inr hc, fun c' hc => ?_, nofun⟩
    cases hc
    exact .inl (m.tryCancel_spec c k).2.2.2.2.2.1
  case join => exact ⟨.inr, fun c hc => .inr hc, fun c hc => .inr hc, fun c hc => hc⟩
  case joined => exact ⟨.inr, fun c hc => .inr hc, fun c hc => .inr hc, fun c hc => hc⟩
  case isDone => exact ⟨nofun, nofun, nofun, nofun⟩

/-- A call returns from the join when the thread is joined. -/
lemma CallStep.joined_spec {exited : Bool} {m m' : Mem P R} {pc pc' : CallPc} {l : CallLabel}
    {c : Option ℕ} (st : CallStep exited m pc l m' pc') (sound : m.joiner.Sound exited)
    (hp : pc' = .joined c) : m'.joiner.joinable = false := by
  cases st
  case joined hj =>
    obtain ⟨hs, hc, -, -⟩ := Joiner.next_spec sound hj
    exact hs.joined (hc rfl)
  all_goals cases hp

/-- The reader enters its loop only while `done` is not set, and changes its stream only outside. -/
lemma ReaderStep.loop {m m' : Mem P R} {n : ℕ} {lst : GrpcStatus} {pc : ReaderPc R}
    {r' : Reader R} {l : ReaderLabel P} (st : ReaderStep κ h m n lst pc l m' r')
    (hl : r'.pc.inLoop = true) : r'.stream = n ∧ (m.done = true → pc.inLoop = true) := by
  cases st
  case enter hd => exact ⟨rfl, by simp [hd]⟩
  all_goals first | exact ⟨rfl, fun _ => rfl⟩ | cases hl

/-- What a step of the reader does to the members that the calls look at. -/
lemma ReaderStep.frame {m m' : Mem P R} {n : ℕ} {lst : GrpcStatus} {pc : ReaderPc R}
    {r' : Reader R} {l : ReaderLabel P} (st : ReaderStep κ h m n lst pc l m' r') :
    (m.done = true → m'.done = true) ∧ m'.joiner = m.joiner ∧ pc.isExited = false ∧
      ∀ k, (m'.cancelled k).isSome = (m.cancelled k).isSome := by
  have take {p : P} (ht : m.take n p = some m') :
      (m.done = true → m'.done = true) ∧ m'.joiner = m.joiner ∧
        ∀ k, (m'.cancelled k).isSome = (m.cancelled k).isSome := by
    obtain ⟨hd, -, -, hj, -, hc⟩ := Mem.take_spec ht
    refine ⟨(hd ▸ ·), hj, fun k => ?_⟩
    rcases hc with ⟨-, hc⟩ | ⟨b, hb, hc⟩
    · rw [hc]
    · rw [hc]
      by_cases hk : k = n
      · subst hk
        simp [hb]
      · rw [Function.update_of_ne hk]
  cases st
  case accept _ ht => exact ⟨(take ht).1, (take ht).2.1, rfl, (take ht).2.2⟩
  case skip _ ht => exact ⟨(take ht).1, (take ht).2.1, rfl, (take ht).2.2⟩
  case exitStore => exact ⟨fun _ => rfl, rfl, rfl, fun _ => rfl⟩
  all_goals exact ⟨id, rfl, rfl, fun _ => rfl⟩

/-- A call begins. -/
lemma CancelInv.begin {s : Sub P R} (inv : CancelInv s) (op : Op) :
    CancelInv { s with calls := s.calls ++ [op.start] } := by
  refine ⟨inv.reader, inv.sound, ?_, ?_, ?_, ?_⟩
  · intro c hc
    rcases List.mem_append.mp hc with hc | hc
    · exact inv.joined c hc
    · cases op <;> cases List.mem_singleton.mp hc
  · intro pc hpc hp
    rcases List.mem_append.mp hpc with hpc | hpc
    · exact inv.done pc hpc hp
    · cases List.mem_singleton.mp hpc
      cases op <;> cases hp
  · intro pc hpc c hp
    rcases List.mem_append.mp hpc with hpc | hpc
    · exact inv.target pc hpc c hp
    · cases List.mem_singleton.mp hpc
      cases op <;> cases hp
  · intro pc hpc c hp
    rcases List.mem_append.mp hpc with hpc | hpc
    · exact inv.cancelled pc hpc c hp
    · cases List.mem_singleton.mp hpc
      cases op <;> cases hp

/-- A call makes a step. -/
lemma CancelInv.call {s : Sub P R} (inv : CancelInv s) {i : ℕ} {pc pc' : CallPc} {l : CallLabel}
    {m' : Mem P R} (hpc : s.calls[i]? = some pc)
    (st : CallStep s.reader.pc.isExited s.mem pc l m' pc') :
    CancelInv { s with mem := m', calls := s.calls.set i pc' } := by
  have hmem : pc ∈ s.calls := List.mem_of_getElem? hpc
  have eff := st.effect
  obtain ⟨hst, htg, hcp, -⟩ := st.target
  refine ⟨inv.reader.effect eff, eff.sound inv.sound, ?_, ?_, ?_, ?_⟩
  · intro c hc
    rcases List.mem_or_eq_of_mem_set hc with hc | hc
    · exact eff.joined inv.sound (inv.joined c hc)
    · exact st.joined_spec inv.sound hc.symm
  · intro q hq hp
    rcases List.mem_or_eq_of_mem_set hq with hq | rfl
    · exact eff.done (inv.done q hq hp)
    · rcases hst hp with hd | hp
      · exact hd
      · exact eff.done (inv.done pc hmem hp)
  · intro q hq c hp hl
    rcases List.mem_or_eq_of_mem_set hq with hq | rfl
    · exact inv.target q hq c hp hl
    · rcases htg c hp with rfl | hp
      · -- the stored context is the one of the stream that is read
        exact inv.reader.ctx
      · exact inv.target pc hmem c hp hl
  · intro q hq c hp
    have keep (hc : (s.mem.cancelled c).isSome = true) : (m'.cancelled c).isSome = true := by
      rw [eff.cancelled c hc]
      exact hc
    rcases List.mem_or_eq_of_mem_set hq with hq | rfl
    · exact keep (inv.cancelled q hq c hp)
    · rcases hcp c hp with hc | hp
      · exact hc
      · exact keep (inv.cancelled pc hmem c hp)

/-- The reader makes a step. -/
lemma CancelInv.readerStep {s : Sub P R} (inv : CancelInv s) {l : ReaderLabel P} {m' : Mem P R}
    {r' : Reader R}
    (st : ReaderStep κ h s.mem s.reader.stream s.reader.lastStatus s.reader.pc l m' r') :
    CancelInv { s with mem := m', reader := r' } := by
  obtain ⟨hd, hj, hx, hc⟩ := st.frame
  refine ⟨inv.reader.step st, ?_, ?_, ?_, ?_, ?_⟩
  · show m'.joiner.Sound _
    rw [hj]
    exact inv.sound.mono fun he => absurd he (by simp [hx])
  · intro c hc
    show m'.joiner.joinable = false
    rw [hj]
    exact inv.joined c hc
  · exact fun pc hpc hp => hd (inv.done pc hpc hp)
  · intro pc hpc c hp hl
    obtain ⟨hs, hin⟩ := st.loop hl
    -- a `Cancel` that has read a context has set `done` before
    have hdone : s.mem.done = true := inv.done pc hpc (CallPc.stored_of_target hp)
    show c = r'.stream
    rw [hs]
    exact inv.target pc hpc c hp (hin hdone)
  · intro pc hpc c hp
    show (m'.cancelled c).isSome = true
    rw [hc]
    exact inv.cancelled pc hpc c hp

lemma CancelInv.step {s t : Sub P R} {a : Action P} (inv : CancelInv s) (st : Step κ h s a t) :
    CancelInv t := by
  cases st with
  | begin => exact inv.begin _
  | call hpc st => exact inv.call hpc st
  | reader st => exact inv.readerStep st

lemma CancelInv.of_reachable {s : Sub P R} (hr : (sys κ h).Reachable s) : CancelInv s := by
  refine hr.invariant (I := CancelInv) ?_ ?_
  · rintro s rfl
    exact cancelInv_start
  · intro s a t _ inv _ hn
    exact inv.step (Step.of_next hn)

/-- How far the reader is from its exit once a `Cancel` has completed; in the read loop every
message that the cancelled stream still delivers takes up to five steps. -/
def ReaderPc.rank (budget : ℕ) : ReaderPc R → ℕ
  | .dispatch _ => 5 * budget + 11
  | .inCallback => 5 * budget + 10
  | .report _ => 5 * budget + 9
  | .inReport => 5 * budget + 8
  | .read => 5 * budget + 7
  | .gate _ _ => 8
  | .stub _ _ => 7
  | .storeCtx _ => 6
  | .sleep _ => 6
  | .finish => 6
  | .outer => 5
  | .postFinish => 5
  | .backoffLoop _ => 5
  | .recheck _ => 5
  | .exitCheck => 4
  | .exitStore => 3
  | .exitReport => 2
  | .inExitReport => 1
  | .exited => 0

def Sub.rank (s : Sub P R) : ℕ :=
  s.reader.pc.rank ((s.mem.cancelled s.reader.stream).getD 0)

lemma ReaderStep.rank_lt {m m' : Mem P R} {n : ℕ} {lst : GrpcStatus} {pc : ReaderPc R}
    {r' : Reader R} {l : ReaderLabel P} (st : ReaderStep κ h m n lst pc l m' r')
    (hd : m.done = true) (hc : pc.inLoop = true → (m.cancelled n).isSome = true) :
    r'.pc.rank ((m'.cancelled r'.stream).getD 0) < pc.rank ((m.cancelled n).getD 0) := by
  have budget {p : P} (ht : m.take n p = some m') (hl : (m.cancelled n).isSome = true) :
      (m'.cancelled n).getD 0 + 1 = (m.cancelled n).getD 0 := by
    obtain ⟨-, -, -, -, -, hk⟩ := Mem.take_spec ht
    rcases hk with ⟨hn, -⟩ | ⟨k, hk, hu⟩
    · simp [hn] at hl
    · simp [hk, hu]
  cases st
  case accept _ ht =>
    have hb := budget ht (hc rfl)
    simp only [ReaderPc.rank]
    omega
  case skip _ ht =>
    have hb := budget ht (hc rfl)
    simp only [ReaderPc.rank]
    omega
  case enter hf => simp [hd] at hf
  case broke hf => simp [hd] at hf
  case wait hf => simp [hd] at hf
  case attempt hf => simp [hd] at hf
  case unexpected hf => simp [hd] at hf
  all_goals
    simp only [ReaderPc.rank, Mem.observe]
    omega

/-- The reader thread is never stuck. -/
lemma readerNext_isSome (m : Mem P R) (r : Reader R) (hx : r.pc.isExited = false) :
    ∃ l, (readerNext κ h m r l).isSome = true := by
  obtain ⟨pc, n, st⟩ := r
  cases pc
  case read => exact ⟨.eos, rfl⟩
  case inCallback => exact ⟨.callback none, rfl⟩
  case inReport => exact ⟨.callback none, rfl⟩
  case finish => exact ⟨.finish ⟨.OK, ""⟩, rfl⟩
  case sleep => exact ⟨.slept, rfl⟩
  case gate => exact ⟨.gate true, rfl⟩
  case stub => exact ⟨.stub true, rfl⟩
  case inExitReport => exact ⟨.callback none, rfl⟩
  case exited => cases hx
  all_goals
    refine ⟨.tau, ?_⟩
    simp only [readerNext]
    try split
  all_goals rfl

lemma readerNext_exited {m : Mem P R} {r : Reader R} (hx : r.pc.isExited = true)
    (l : ReaderLabel P) : readerNext κ h m r l = none := by
  obtain ⟨pc, n, st⟩ := r
  cases pc <;> first | rfl | cases hx

/-- A completed `Cancel` stays one. -/
lemma Step.completed {s t : Sub P R} {a : Action P} (st : Step κ h s a t)
    (hc : s.cancelCompleted) : t.cancelCompleted := by
  obtain ⟨q, hq, hqc⟩ := hc
  cases st with
  | begin => exact ⟨q, List.mem_append_left _ hq, hqc⟩
  | @call i l pc m' pc' hpc st =>
    obtain ⟨c, hc⟩ := Option.isSome_iff_exists.mp hqc
    obtain ⟨j, hj⟩ := List.mem_iff_getElem?.mp hq
    by_cases hij : i = j
    · subst hij
      rw [hpc] at hj
      cases hj
      have hlt := (List.getElem?_eq_some_iff.mp hpc).1
      refine ⟨pc', List.mem_of_getElem? (List.getElem?_set_self hlt), ?_⟩
      rw [st.target.2.2.2 c hc]
      rfl
    · exact ⟨q, List.mem_of_getElem? (by rw [List.getElem?_set_ne hij, hj]), hqc⟩
  | reader => exact ⟨q, hq, hqc⟩

/-- After a completed `Cancel`, `done` is set and the stream in the read loop is cancelled. -/
lemma CancelInv.stopped {s : Sub P R} (inv : CancelInv s) (hc : s.cancelCompleted) :
    s.mem.done = true ∧ (s.reader.pc.inLoop = true →
      (s.mem.cancelled s.reader.stream).isSome = true) := by
  obtain ⟨pc, hpc, hcp⟩ := hc
  obtain ⟨c, hc⟩ := Option.isSome_iff_exists.mp hcp
  have htarget := CallPc.target_of_completed hc
  refine ⟨inv.done pc hpc (CallPc.stored_of_target htarget), fun hl => ?_⟩
  rw [← inv.target pc hpc c htarget hl]
  exact inv.cancelled pc hpc c hc

/-- After a completed `Cancel` every step of the reader brings it closer to its exit. -/
lemma ranked (κ : SubKind P R) (h : Handlers) :
    Lts.Sys.Ranked (sys κ h) (fun s => CancelInv s ∧ s.cancelCompleted) Action.isReader
      Sub.rank := by
  have lt {s t : Sub P R} {l : ReaderLabel P} (hs : CancelInv s ∧ s.cancelCompleted)
      (st : Step κ h s (.reader l) t) : t.rank < s.rank := by
    obtain ⟨hd, hl⟩ := hs.1.stopped hs.2
    cases st with
    | reader st => exact st.rank_lt hd hl
  refine ⟨?_, ?_, ?_⟩
  · intro s a t hs hn
    have st := Step.of_next hn
    exact ⟨hs.1.step st, st.completed hs.2⟩
  · intro s a t hs hn
    have st := Step.of_next hn
    cases st with
    | begin => exact Nat.le_refl _
    | @call i l pc m' pc' hpc st =>
      obtain ⟨-, hl⟩ := hs.1.stopped hs.2
      -- a call may cancel the stream again, which changes nothing in the read loop
      show s.reader.pc.rank _ ≤ s.reader.pc.rank _
      cases hin : s.reader.pc.inLoop with
      | true => rw [st.effect.cancelled _ (hl hin)]
      | false => cases hp : s.reader.pc <;> rw [hp] at hin <;> first | exact Nat.le_refl _ | cases hin
    | reader st => exact Nat.le_of_lt (lt hs (.reader st))
  · intro s a t hs hn hp
    cases a with
    | reader l => exact lt hs (Step.of_next hn)
    | begin => cases hp
    | call => cases hp

lemma CancelInv.held {s : Sub P R} (inv : CancelInv s) : CancelHeld κ h s where
  stopped := fun hc => (inv.stopped hc).2
  lateOnce := inv.reader.late
  lateUnread := inv.reader.lateUnread
  canStep := by
    intro _ hx
    obtain ⟨l, hl⟩ := readerNext_isSome (κ := κ) (h := h) s.mem s.reader hx
    exact ⟨l, by simpa [next] using hl⟩
  bounded := by
    intro hc
    refine ⟨s.rank, fun as t he => ?_⟩
    have hle := (ranked κ h).countP_le ⟨inv, hc⟩ he
    omega
  exits := by
    intro hc ρ h0 fair
    have hs : CancelInv (ρ.st 0) ∧ (ρ.st 0).cancelCompleted := by
      rw [h0]
      exact ⟨inv, hc⟩
    obtain ⟨m, -, hm⟩ := ρ.eventually (ranked κ h)
      (Q := fun s => s.reader.pc.isExited = true) hs fair
    exact ⟨m, hm⟩
  silent := by
    intro c hc l
    have hx := inv.sound.exited (inv.joined c hc)
    simp [next, readerNext_exited hx]

/-- `Cancel` is never lost to a reconnect, in any run of any of the four subscriptions. -/
theorem cancel_is_never_lost {P R : Type} (κ : SubKind P R) (h : Handlers) (s : Sub P R)
    (hr : (sys κ h).Reachable s) : CancelHeld κ h s :=
  (CancelInv.of_reachable hr).held

/-- A `Cancel` that runs while the reader opens a stream again: the stream is opened late. -/
def cancelWhileReopening : List (Action Proto.EventReceive) :=
  [.reader .tau, .reader .eos, .reader (.finish ⟨.UNAVAILABLE, "down"⟩), .reader .tau,
    .reader .tau, .reader .slept, .reader .tau, .reader (.gate true), .begin .cancel,
    .call 0 .tau, .call 0 .tau, .call 0 (.tryCancel 0), .reader (.stub true), .reader .tau,
    .reader .tau, .reader .tau]

theorem cancel_is_never_lost_reopening :
    ∃ s, (sys SubKind.events ⟨true, true⟩).exec start cancelWhileReopening = some s ∧
      CancelHeld SubKind.events ⟨true, true⟩ s ∧ s.reader.pc.isExited = true := by
  refine ⟨_, rfl, cancel_is_never_lost SubKind.events ⟨true, true⟩ _ ?_, rfl⟩
  exact Lts.Sys.Reachable.exec (.init rfl) cancelWhileReopening rfl

end KubeMQ.Subscription
