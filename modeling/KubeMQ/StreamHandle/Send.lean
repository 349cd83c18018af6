import KubeMQ.StreamHandle.Writes

/-!
# Sending on a stream handle

`Send` converts its argument, takes `write_mu` and writes the converted message unless the stream
is done. `traced` is the system of a handle together with the calls as their callers made them,
each with what was known when it began; `encode` is the conversion. `Progress` follows one call,
and `WriteDiscipline` collects what holds of every interleaving.
-/

namespace KubeMQ.StreamHandle

variable {W R E M : Type} {κ : HandleSpec W R E} {encode : M → W}

/-- The public methods with the caller's own arguments. -/
inductive UserOp (M : Type) where
  | send (m : M)
  | close
  | wait
  | isDone
  | set (slot : Slot) (cb : Option ℕ)

/-- The argument of a `Send` is converted before anything else happens. -/
def UserOp.plain (encode : M → W) : UserOp M → Op W
  | .send m => .send (encode m)
  | .close => .close
  | .wait => .wait
  | .isDone => .isDone
  | .set slot cb => .set slot cb

/-- A call, and whether it began after some `Close` had returned or the reader had marked the
stream done. -/
structure Issue (M : Type) where
  op : UserOp M
  afterClose : Bool
  afterDone : Bool

def Issue.late (issue : Issue M) : Bool := issue.afterClose || issue.afterDone

/-- A handle with the calls made on it, in the order in which they began. -/
structure Traced (W R E M : Type) where
  handle : Handle W R E
  issued : List (Issue M)

/-- One action of the traced system. -/
inductive UserAction (M R : Type) where
  | begin (op : UserOp M)
  | call (i : ℕ) (l : CallLabel)
  | reader (l : ReaderLabel R)
  | destroy
  | free

def UserAction.plain (encode : M → W) : UserAction M R → Action W R
  | .begin op => .begin (op.plain encode)
  | .call i l => .call i l
  | .reader l => .reader l
  | .destroy => .destroy
  | .free => .free

def CallPc.isClosed : CallPc W → Bool
  | .closed => true
  | _ => false

/-- What is known about a call that begins now. -/
def Traced.issue (s : Traced W R E M) (op : UserOp M) : Issue M :=
  ⟨op, s.handle.calls.any CallPc.isClosed, s.handle.reader.markedDone⟩

def tracedNext (κ : HandleSpec W R E) (encode : M → W) (s : Traced W R E M)
    (a : UserAction M R) : Option (Traced W R E M) :=
  (next κ s.handle (a.plain encode)).map fun h =>
    match a with
    | .begin op => ⟨h, s.issued ++ [s.issue op]⟩
    | .destroy => ⟨h, s.issued ++ [s.issue .close]⟩
    | _ => ⟨h, s.issued⟩

/-- The system of a handle and its callers. -/
def traced (κ : HandleSpec W R E) (encode : M → W) : Lts.Sys (Traced W R E M) (UserAction M R) where
  init s := ∃ onResult onError, s = ⟨start onResult onError, []⟩
  next := tracedNext κ encode

/-- A call of `Send`. -/
def CallPc.sending : CallPc W → Bool
  | .sendLock _ => true
  | .sendCheck _ => true
  | .sendWrite _ => true
  | .sendUnlock _ => true
  | .sent _ => true
  | _ => false

/-- The status of a `Send` whose `Write` answered `ok`. -/
def sendStatus (κ : HandleSpec W R E) (w : W) (ok : Bool) : Status :=
  if ok then .okStatus else κ.writeError w

/-- Where a call stands and what it has written so far. -/
inductive Progress (κ : HandleSpec W R E) (encode : M → W) (issue : Issue M) :
    CallPc W → List (W × Bool) → Prop where
  | lock {m} :
    issue.op = .send m →
    Progress κ encode issue (.sendLock (encode m)) []
  | check {m} :
    issue.op = .send m →
    Progress κ encode issue (.sendCheck (encode m)) []
  | write {m} :
    issue.op = .send m →
    issue.late = false →
    Progress κ encode issue (.sendWrite (encode m)) []
  | written {m ok pc} :
    issue.op = .send m →
    issue.late = false →
    pc = .sendUnlock (sendStatus κ (encode m) ok) ∨ pc = .sent (sendStatus κ (encode m) ok) →
    Progress κ encode issue pc [(encode m, ok)]
  | refused {m pc} :
    issue.op = .send m →
    pc = .sendUnlock (κ.closedError (encode m)) ∨ pc = .sent (κ.closedError (encode m)) →
    Progress κ encode issue pc []
  | other {pc} :
    (∀ m, issue.op ≠ .send m) →
    pc.sending = false →
    Progress κ encode issue pc []

/-- A call begins without having written anything. -/
lemma Progress.begin (issue : Issue M) :
    Progress κ encode issue (issue.op.plain encode).start [] := by
  cases hop : issue.op with
  | send m => exact .lock hop
  | _ =>
    apply Progress.other
    · rw [hop]
      exact nofun
    · rfl

/-- One step of the call; a call that is late finds the stream done. -/
lemma Progress.step {issue : Issue M} {exited : Bool} {i : ℕ} {mem mem' : Mem W R E}
    {pc pc' : CallPc W} {l : CallLabel} (h : Progress κ encode issue pc (writesBy i mem.log))
    (late : issue.late = true → mem.done = true) (st : CallStep κ exited i mem pc l mem' pc') :
    Progress κ encode issue pc' (writesBy i mem'.log) := by
  generalize hws : writesBy i mem.log = ws at h
  cases h with
  | lock hop =>
    cases st
    rw [hws]
    exact .check hop
  | check hop =>
    cases st with
    | sendDone =>
      rw [hws]
      exact .refused hop (.inl rfl)
    | sendOpen hopen =>
      rw [hws]
      refine .write hop ?_
      cases hl : issue.late with
      | false => rfl
      | true => exact absurd (late hl) (by simp [hopen])
  | @write m hop hlate =>
    cases st with
    | @sendWrite _ ok =>
      have happ : writesBy i (mem.observe (.write i (encode m) ok)).log = [(encode m, ok)] := by
        rw [Mem.observe, writesBy_append, hws]
        simp [writesBy]
      rw [happ]
      exact .written hop hlate (.inl rfl)
  | written hop hlate hpc =>
    rcases hpc with rfl | rfl
    · cases st
      rw [hws]
      exact .written hop hlate (.inr rfl)
    · cases st
  | refused hop hpc =>
    rcases hpc with rfl | rfl
    · cases st
      rw [hws]
      exact .refused hop (.inr rfl)
    · cases st
  | other hop hpc =>
    -- no step leads into a `Send`
    have hlog : writesBy i mem'.log = [] := by
      rcases st.log with h | ⟨w, ok, rfl, -⟩ | ⟨rfl, h⟩
      · rw [h, hws]
      · cases hpc
      · rw [h, writesBy_concat_of_not_write _ _ rfl, hws]
    rw [hlog]
    refine .other hop ?_
    cases st <;> first | rfl | cases hpc

/-- A step of call `i` writes on behalf of no other call. -/
lemma CallStep.writesBy_other {exited : Bool} {i j : ℕ} {mem mem' : Mem W R E}
    {pc pc' : CallPc W} {l : CallLabel} (st : CallStep κ exited i mem pc l mem' pc')
    (hne : j ≠ i) : writesBy j mem'.log = writesBy j mem.log := by
  rcases st.log with h | ⟨w, ok, -, h⟩ | ⟨-, h⟩
  · rw [h]
  · rw [h, writesBy_append]
    simp [writesBy, Ne.symm hne]
  · rw [h, writesBy_concat_of_not_write _ _ rfl]

lemma ReaderStep.writesBy {mem mem' : Mem W R E} {pc pc' : ReaderPc E} {l : ReaderLabel R}
    (st : ReaderStep κ mem pc l mem' pc') (j : ℕ) :
    writesBy j mem'.log = writesBy j mem.log := by
  obtain ⟨-, -, -, h | ⟨o, hw, -, h⟩⟩ := st.writes
  · rw [h]
  · rw [h, writesBy_concat_of_not_write _ _ hw]

/-- The invariant of the traced system. -/
structure TracedInv (κ : HandleSpec W R E) (encode : M → W) (s : Traced W R E M) : Prop where
  handle : Disciplined s.handle
  length : s.issued.length = s.handle.calls.length
  late : ∀ issue ∈ s.issued, issue.late = true → s.handle.mem.done = true
  fresh : ∀ i, s.handle.calls.length ≤ i → writesBy i s.handle.mem.log = []
  progress : ∀ i issue pc, s.issued[i]? = some issue → s.handle.calls[i]? = some pc →
    Progress κ encode issue pc (writesBy i s.handle.mem.log)

/-- A call that begins after a returned `Close` or after the reader's mark finds `done` set. -/
lemma Disciplined.issue_late {s : Traced W R E M} (inv : Disciplined s.handle) (op : UserOp M)
    (h : (s.issue op).late = true) : s.handle.mem.done = true := by
  rcases Bool.or_eq_true_iff.mp h with h | h
  · obtain ⟨pc, hpc, hc⟩ := List.any_eq_true.mp h
    refine inv.exchanged pc hpc ?_
    cases pc <;> first | rfl | cases hc
  · exact inv.marked h

/-- A new call, whichever action makes it. -/
lemma TracedInv.begin {s : Traced W R E M} {h : Handle W R E} (inv : TracedInv κ encode s)
    (op : UserOp M) (disciplined : Disciplined h) (hmem : h.mem = s.handle.mem)
    (hcalls : h.calls = s.handle.calls ++ [(op.plain encode).start]) :
    TracedInv κ encode ⟨h, s.issued ++ [s.issue op]⟩ := by
  refine ⟨disciplined, ?_, ?_, ?_, ?_⟩
  · simp only
    rw [hcalls, List.length_append, List.length_append, inv.length]
    rfl
  · intro issue hi hl
    simp only
    rw [hmem]
    rcases List.mem_append.mp hi with hi | hi
    · exact inv.late issue hi hl
    · rw [List.mem_singleton.mp hi] at hl
      exact inv.handle.issue_late op hl
  · intro i hi
    simp only at hi ⊢
    rw [hcalls, List.length_append] at hi
    rw [hmem]
    exact inv.fresh i (by omega)
  · intro i issue pc hissue hpc
    simp only at hissue hpc ⊢
    rw [hcalls] at hpc
    rw [hmem]
    rcases Lts.getElem?_concat_cases hissue with hissue | ⟨hi, rfl⟩
    · have hlt := (List.getElem?_eq_some_iff.mp hissue).1
      rw [inv.length] at hlt
      rw [List.getElem?_append_left hlt] at hpc
      exact inv.progress i issue pc hissue hpc
    · rw [inv.length] at hi
      rcases Lts.getElem?_concat_cases hpc with hpc | ⟨-, rfl⟩
      · have hlt := (List.getElem?_eq_some_iff.mp hpc).1
        omega
      · rw [inv.fresh i (Nat.le_of_eq hi.symm)]
        exact Progress.begin (s.issue op)

/-- A step that begins no call keeps the callers' records. -/
lemma TracedInv.step {s t : Traced W R E M} {a : UserAction M R} (inv : TracedInv κ encode s)
    (hn : tracedNext κ encode s a = some t) : TracedInv κ encode t := by
  obtain ⟨h, hh, rfl⟩ := Option.map_eq_some_iff.mp hn
  have st := (Step.of_next hh).2
  have disciplined := inv.handle.step st
  cases a with
  | begin op =>
    refine inv.begin op disciplined ?_ ?_
    · cases st
      rfl
    · cases st
      rfl
  | destroy =>
    refine inv.begin .close disciplined ?_ ?_
    · cases st
      rfl
    · cases st
      rfl
  | call i l =>
    cases st with
    | @call _ _ pc m' pc' hpc st =>
      refine ⟨disciplined, ?_, fun issue hi hl => st.done.1 (inv.late issue hi hl), ?_, ?_⟩
      · simp only [List.length_set]
        exact inv.length
      · intro j hj
        simp only [List.length_set] at hj ⊢
        have hlt := (List.getElem?_eq_some_iff.mp hpc).1
        rw [st.writesBy_other (by omega)]
        exact inv.fresh j hj
      · intro j issue q hissue hq
        simp only at hissue hq ⊢
        rcases Lts.getElem?_set_cases hq with ⟨rfl, rfl⟩ | ⟨hne, hq⟩
        · have hmem := List.mem_of_getElem? hissue
          exact (inv.progress j issue pc hissue hpc).step (inv.late issue hmem) st
        · rw [st.writesBy_other hne]
          exact inv.progress j issue q hissue hq
  | reader l =>
    cases st with
    | @reader _ m' pc' st =>
      obtain ⟨-, mono, -⟩ := st.writes
      refine ⟨disciplined, inv.length, fun issue hi hl => mono (inv.late issue hi hl), ?_, ?_⟩
      · intro j hj
        simp only at hj ⊢
        rw [st.writesBy]
        exact inv.fresh j hj
      · intro j issue q hissue hq
        simp only at hissue hq ⊢
        rw [st.writesBy]
        exact inv.progress j issue q hissue hq
  | free =>
    cases st
    exact ⟨disciplined, inv.length, inv.late, inv.fresh, inv.progress⟩

lemma tracedInv_reachable {s : Traced W R E M} (h : (traced κ encode).Reachable s) :
    TracedInv κ encode s := by
  induction h with
  | init hi =>
    obtain ⟨onResult, onError, rfl⟩ := hi
    refine ⟨disciplined_start onResult onError, rfl, ?_, fun _ _ => rfl, ?_⟩
    · intro issue hi
      cases hi
    · intro i issue pc hi
      simp at hi
  | step _ _ hn ih => exact ih.step hn

/-- What holds of the writes in every state. -/
structure WriteDiscipline (κ : HandleSpec W R E) (encode : M → W) (s : Traced W R E M) :
    Prop where
  once : s.handle.mem.log.countP Obs.isWritesDone ≤ 1
  order : NoWriteAfter s.handle.mem.log
  exclusive : ∀ (i j : ℕ) (pc pc' : CallPc W), s.handle.calls[i]? = some pc → s.handle.calls[j]? = some pc' →
    pc.onStream = true → pc'.onStream = true → i = j
  ok : ∀ i issue m st, s.issued[i]? = some issue → issue.op = .send m →
    s.handle.calls[i]? = some (.sent st) → st.ok = true →
    writesBy i s.handle.mem.log = [(encode m, true)]
  error : ∀ i issue m st, s.issued[i]? = some issue → issue.op = .send m →
    s.handle.calls[i]? = some (.sent st) → st.ok = false →
    ∀ w, (w, true) ∉ writesBy i s.handle.mem.log
  late : ∀ i issue m, s.issued[i]? = some issue → issue.op = .send m → issue.late = true →
    writesBy i s.handle.mem.log = [] ∧
      ∀ st, s.handle.calls[i]? = some (.sent st) →
        st = κ.closedError (encode m) ∧ st.code = .kFatal
  /-- A call that has work left waits for nothing but `write_mu`, whose holder can step. -/
  unblocked : ∀ i pc, s.handle.terminated = false → s.handle.calls[i]? = some pc →
    pc.sending = true → pc.returned = false →
    ∃ j l t, (traced κ encode).next s (.call j l) = some t ∧
      (j = i ∨ s.handle.mem.writeMu = some j)

lemma tracedNext_call {s : Traced W R E M} {i : ℕ} {pc : CallPc W} {l : CallLabel}
    {r : Mem W R E × CallPc W} (alive : s.handle.terminated = false)
    (hpc : s.handle.calls[i]? = some pc)
    (hc : callNext κ s.handle.reader.isExited s.handle.mem i pc l = some r) :
    ∃ t, (traced κ encode : Lts.Sys _ (UserAction M R)).next s (.call i l) = some t := by
  refine ⟨⟨{ s.handle with mem := r.1, calls := s.handle.calls.set i r.2 }, s.issued⟩, ?_⟩
  have hn : next κ s.handle (.call i l)
      = some { s.handle with mem := r.1, calls := s.handle.calls.set i r.2 } := by
    simp only [next, alive, liveNext, hpc, Option.bind_some, hc]
    rfl
  simp only [traced, tracedNext, UserAction.plain, hn, Option.map_some]

/-- A `Send` that has not returned can step, or the holder of `write_mu` can. -/
lemma Disciplined.unblocked {s : Traced W R E M} (inv : Disciplined s.handle)
    (alive : s.handle.terminated = false) {i : ℕ} {pc : CallPc W}
    (hpc : s.handle.calls[i]? = some pc) (hs : pc.sending = true) (hr : pc.returned = false) :
    ∃ j l t, (traced κ encode : Lts.Sys _ (UserAction M R)).next s (.call j l) = some t ∧
      (j = i ∨ s.handle.mem.writeMu = some j) := by
  cases hw : pc.writing with
  | true =>
    obtain ⟨l, r, hc⟩ := writing_enabled s.handle.reader.isExited s.handle.mem i hw
    obtain ⟨t, ht⟩ := tracedNext_call alive hpc hc
    exact ⟨i, l, t, ht, .inl rfl⟩
  | false =>
    cases hmu : s.handle.mem.writeMu with
    | none =>
      -- the lock is free
      cases pc with
      | sendLock w =>
        obtain ⟨t, ht⟩ := tracedNext_call (κ := κ) (l := .tau) alive hpc
          (if_pos (by rw [hmu]; rfl))
        exact ⟨i, .tau, t, ht, .inl rfl⟩
      | sent => cases hr
      | _ => first | (cases hs; done) | cases hw
    | some j =>
      obtain ⟨q, hq, hqw⟩ := inv.mutex.held j hmu
      obtain ⟨l, r, hc⟩ := writing_enabled s.handle.reader.isExited s.handle.mem j hqw
      obtain ⟨t, ht⟩ := tracedNext_call alive hq hc
      exact ⟨j, l, t, ht, .inr rfl⟩

lemma sendStatus_ok (w : W) (ok : Bool) : (sendStatus κ w ok).ok = ok := by
  cases ok <;> rfl

/-- Where a returned `Send` stands. -/
lemma Progress.sent {issue : Issue M} {m : M} {st : Status} {ws : List (W × Bool)}
    (h : Progress κ encode issue (.sent st) ws) (hop : issue.op = .send m) :
    (∃ ok, ws = [(encode m, ok)] ∧ st = sendStatus κ (encode m) ok ∧ issue.late = false) ∨
      (ws = [] ∧ st = κ.closedError (encode m)) := by
  cases h with
  | @written m' ok _ hop' hlate hpc =>
    rw [hop] at hop'
    cases hop'
    rcases hpc with hpc | hpc <;> cases hpc
    exact .inl ⟨ok, rfl, rfl, hlate⟩
  | refused hop' hpc =>
    rw [hop] at hop'
    cases hop'
    rcases hpc with hpc | hpc <;> cases hpc
    exact .inr ⟨rfl, rfl⟩
  | other hne _ => exact absurd hop (hne m)

/-- A late `Send` has written nothing. -/
lemma Progress.late {issue : Issue M} {m : M} {pc : CallPc W} {ws : List (W × Bool)}
    (h : Progress κ encode issue pc ws) (hop : issue.op = .send m) (hl : issue.late = true) :
    ws = [] ∧ ∀ st, pc = .sent st → st = κ.closedError (encode m) := by
  constructor
  · cases h with
    | written _ hlate _ => simp [hl] at hlate
    | _ => rfl
  · rintro st rfl
    rcases h.sent hop with ⟨ok, -, -, hlate⟩ | ⟨-, hst⟩
    · simp [hl] at hlate
    · exact hst

/-- Every interleaving of calls, reader steps and the destructor keeps the write discipline. -/
lemma writeDiscipline_reachable {s : Traced W R E M} (h : (traced κ encode).Reachable s) :
    WriteDiscipline κ encode s := by
  have inv := tracedInv_reachable h
  refine ⟨inv.handle.once, inv.handle.order, ?_, ?_, ?_, ?_, ?_⟩
  · intro i j pc pc' hi hj ci cj
    exact inv.handle.exclusive hi ci hj cj
  · intro i issue m st hissue hop hpc hok
    rcases (inv.progress i issue _ hissue hpc).sent hop with ⟨ok, hws, hst, -⟩ | ⟨-, hst⟩
    · rw [hst, sendStatus_ok] at hok
      rw [hws, hok]
    · rw [hst] at hok
      cases hok
  · intro i issue m st hissue hop hpc herr w
    rcases (inv.progress i issue _ hissue hpc).sent hop with ⟨ok, hws, hst, -⟩ | ⟨hws, -⟩
    · rw [hst, sendStatus_ok] at herr
      rw [hws, herr]
      simp
    · rw [hws]
      exact List.not_mem_nil
  · intro i issue m hissue hop hl
    have hlt := (List.getElem?_eq_some_iff.mp hissue).1
    rw [inv.length] at hlt
    have hpc := List.getElem?_eq_getElem hlt
    obtain ⟨hws, hsent⟩ := (inv.progress i issue _ hissue hpc).late hop hl
    refine ⟨hws, ?_⟩
    intro st hst
    rw [hpc] at hst
    have hclosed := hsent st (Option.some.inj hst)
    exact ⟨hclosed, by rw [hclosed]; rfl⟩
  · intro i pc alive hpc hs hr
    exact inv.handle.unblocked alive hpc hs hr

end KubeMQ.StreamHandle
