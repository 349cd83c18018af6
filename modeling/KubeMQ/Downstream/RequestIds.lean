import KubeMQ.Downstream.Poll
import KubeMQ.Downstream.Settlements

/-!
# Request ids on the downstream stream

The server refers to a request by its `RequestID`. Every call generates one for the request that it
writes, so with a generator that does not repeat itself no two requests of a receiver have the same.
-/

namespace KubeMQ.Downstream

open Proto (QueuesDownstreamRequest)

variable {ε : Env} {s t : Receiver} {m m' : Mem} {i j : ℕ} {pc pc' : CallPc} {l : CallLabel}
  {req req' : QueuesDownstreamRequest} {ok : Bool}

/-- The request that a call has made and not written yet. -/
def CallPc.held : CallPc → Option QueuesDownstreamRequest
  | .pollLock _ req => some req
  | .pollWrite _ req => some req
  | .settleLock _ req => some req
  | .settleWrite _ req => some req
  | .closeLock req => some req
  | .closeWrite req => some req
  | _ => none

/-- A step leaves the requests of its call alone, makes one with the next id, or writes it. -/
lemma CallStep.held (st : CallStep ε m i pc l m' pc') :
    (pc'.held = pc.held ∧ pc.writes l = [] ∧ m.uuids ≤ m'.uuids) ∨
      (∃ req, pc'.held = some req ∧ pc.writes l = [] ∧ req.requestID = ε.uuid m.uuids ∧
        m'.uuids = m.uuids + 1) ∨
      ∃ req ok, pc.held = some req ∧ pc'.held = none ∧ pc.writes l = [(req, ok)] ∧
        m'.uuids = m.uuids := by
  cases st with
  | pollCheck => exact .inr (.inl ⟨_, rfl, rfl, rfl, rfl⟩)
  | closeExchange => exact .inr (.inl ⟨_, rfl, rfl, rfl, rfl⟩)
  | @settleWrites q a op req hp =>
    obtain ⟨-, -, -, rfl⟩ := prepareSettle_writes hp
    exact .inr (.inl ⟨_, rfl, rfl, rfl, rfl⟩)
  | @settleAllWrites p a op req hp =>
    obtain ⟨-, -, -, -, rfl⟩ := prepareSettleAll_writes hp
    exact .inr (.inl ⟨_, rfl, rfl, rfl, rfl⟩)
  | pollWrite => exact .inr (.inr ⟨_, _, rfl, rfl, rfl, rfl⟩)
  | pollWriteFailed => exact .inr (.inr ⟨_, _, rfl, rfl, rfl, rfl⟩)
  | settleWrite => exact .inr (.inr ⟨_, _, rfl, rfl, rfl, rfl⟩)
  | closeWrite => exact .inr (.inr ⟨_, _, rfl, rfl, rfl, rfl⟩)
  | pollGot => exact .inl ⟨rfl, rfl, Nat.le_add_right _ _⟩
  | _ => exact .inl ⟨rfl, rfl, Nat.le_refl _⟩

/-- Call `i` has made the request `req`. -/
def Made (s : Receiver) (i : ℕ) (req : QueuesDownstreamRequest) : Prop :=
  (∃ c, s.calls[i]? = some c ∧ c.pc.held = some req) ∨ ∃ ok, (req, ok) ∈ writesOf i s.mem.log

/-- The ids were generated in their order, and different calls have different ones. -/
structure Apart (ε : Env) (s : Receiver) : Prop where
  generated : ∀ i req, Made s i req → ∃ n < s.mem.uuids, req.requestID = ε.uuid n
  apart : ∀ i j req req', Made s i req → Made s j req' → i ≠ j → req.requestID ≠ req'.requestID

lemma apart_start : Apart ε start := by
  have hnone : ∀ i req, ¬Made start i req := by
    rintro i req (⟨c, hc, -⟩ | ⟨ok, h⟩)
    · exact absurd hc (by simp [start])
    · exact absurd h (by simp [start, writesOf])
  exact ⟨fun i req h => absurd h (hnone i req), fun i _ req _ h => absurd h (hnone i req)⟩

/-- What was made after a step was made before, or has the id that the step has generated. -/
lemma Step.made {a : Action} (st : Step ε s a t) :
    s.mem.uuids ≤ t.mem.uuids ∧
      ∃ i, ∀ j req, Made t j req → Made s j req ∨
        (j = i ∧ req.requestID = ε.uuid s.mem.uuids ∧ s.mem.uuids < t.mem.uuids) := by
  cases st with
  | @begin op pc hpc =>
    refine ⟨Nat.le_refl _, 0, ?_⟩
    rintro j req (⟨d, hd, hh⟩ | hw)
    · rcases Lts.getElem?_concat_cases hd with hd | ⟨-, rfl⟩
      · exact .inl (.inl ⟨d, hd, hh⟩)
      · cases Starts.of_startPc hpc <;> cases hh
    · exact .inl (.inr hw)
  | @call i l c m' pc' hc st =>
    have hwrites := st.writesOf
    obtain ⟨hheld, hw, hle⟩ | ⟨req₀, hheld, hw, hid, hsucc⟩ | ⟨req₀, ok, hheld, hheld', hw, heq⟩ :=
      st.held
    · refine ⟨hle, 0, ?_⟩
      rintro j req (⟨d, hd, hh⟩ | ⟨ok, hlog⟩)
      · rcases Lts.getElem?_set_cases hd with ⟨rfl, rfl⟩ | ⟨-, hd⟩
        · exact .inl (.inl ⟨c, hc, hheld ▸ hh⟩)
        · exact .inl (.inl ⟨d, hd, hh⟩)
      · rw [hwrites j, hw, ite_self, List.append_nil] at hlog
        exact .inl (.inr ⟨ok, hlog⟩)
    · have hlt : s.mem.uuids < m'.uuids := hsucc ▸ Nat.lt_succ_self _
      refine ⟨Nat.le_of_lt hlt, i, ?_⟩
      rintro j req (⟨d, hd, hh⟩ | ⟨ok, hlog⟩)
      · rcases Lts.getElem?_set_cases hd with ⟨rfl, rfl⟩ | ⟨-, hd⟩
        · obtain rfl := Option.some.inj (hheld.symm.trans hh)
          exact .inr ⟨rfl, hid, hlt⟩
        · exact .inl (.inl ⟨d, hd, hh⟩)
      · rw [hwrites j, hw, ite_self, List.append_nil] at hlog
        exact .inl (.inr ⟨ok, hlog⟩)
    · refine ⟨Nat.le_of_eq heq.symm, 0, ?_⟩
      rintro j req (⟨d, hd, hh⟩ | ⟨ok', hlog⟩)
      · rcases Lts.getElem?_set_cases hd with ⟨rfl, rfl⟩ | ⟨-, hd⟩
        · exact absurd (hheld'.symm.trans hh) nofun
        · exact .inl (.inl ⟨d, hd, hh⟩)
      · -- the request that is written is the one that the call held
        rw [hwrites j, hw, List.mem_append] at hlog
        rcases hlog with hlog | hlog
        · exact .inl (.inr ⟨ok', hlog⟩)
        · by_cases hij : i = j
          · rw [if_pos hij, List.mem_singleton] at hlog
            obtain ⟨rfl, -⟩ := Prod.mk.inj hlog
            exact .inl (.inl ⟨c, hij ▸ hc, hheld⟩)
          · rw [if_neg hij] at hlog
            cases hlog
  | answer => exact ⟨Nat.le_refl _, 0, fun j req h => .inl h⟩
  | breakStream => exact ⟨Nat.le_refl _, 0, fun j req h => .inl h⟩

lemma Apart.step {a : Action} (hinj : Function.Injective ε.uuid) (inv : Apart ε s)
    (st : Step ε s a t) : Apart ε t := by
  obtain ⟨hle, k, hmade⟩ := st.made
  -- an id that was generated before is not the next one
  have hold : ∀ i req, Made s i req → req.requestID ≠ ε.uuid s.mem.uuids := by
    intro i req h heq
    obtain ⟨n, hn, hid⟩ := inv.generated i req h
    have := hinj (hid.symm.trans heq)
    omega
  constructor
  · intro i req h
    rcases hmade i req h with h | ⟨-, hid, hlt⟩
    · obtain ⟨n, hn, hid⟩ := inv.generated i req h
      exact ⟨n, by omega, hid⟩
    · exact ⟨_, hlt, hid⟩
  · intro i j req req' h h' hij
    rcases hmade i req h with h | ⟨rfl, hid, -⟩
    · rcases hmade j req' h' with h' | ⟨rfl, hid', -⟩
      · exact inv.apart i j req req' h h' hij
      · exact hid' ▸ hold i req h
    · rcases hmade j req' h' with h' | ⟨rfl, -, -⟩
      · exact hid ▸ (hold j req' h').symm
      · exact absurd rfl hij

lemma apart_reachable (hinj : Function.Injective ε.uuid) (h : (sys ε).Reachable s) :
    Apart ε s := by
  apply h.invariant (I := Apart ε)
  · rintro s rfl
    exact apart_start
  · intro s a t _ inv _ hn
    exact inv.step hinj (Step.of_next hn)

lemma writesOf_cons_write {k : ℕ} (log : List Obs) :
    writesOf i (.write k req ok :: log) =
      if k = i then (req, ok) :: writesOf i log else writesOf i log := by
  unfold writesOf
  by_cases h : k = i <;> simp [h]

/-- When no call writes twice, ids that differ between calls are all different. -/
lemma nodup_of_apart {log : List Obs} (once : ∀ i, (writesOf i log).length ≤ 1)
    (apart : ∀ i j req req' ok ok', (req, ok) ∈ writesOf i log → (req', ok') ∈ writesOf j log →
      i ≠ j → req.requestID ≠ req'.requestID) :
    ((requests log).map QueuesDownstreamRequest.requestID).Nodup := by
  induction log with
  | nil => exact .nil
  | cons o log ih =>
    cases o with
    | read k a => exact ih once apart
    | writesDone k => exact ih once apart
    | write k req ok =>
      have hmono : ∀ i x, x ∈ writesOf i log → x ∈ writesOf i (.write k req ok :: log) := by
        intro i x hx
        rw [writesOf_cons_write]
        split
        · exact List.mem_cons_of_mem _ hx
        · exact hx
      have hself : (req, ok) ∈ writesOf k (.write k req ok :: log) := by
        rw [writesOf_cons_write, if_pos rfl]
        exact List.mem_cons_self
      show (req.requestID :: (requests log).map QueuesDownstreamRequest.requestID).Nodup
      rw [List.nodup_cons]
      constructor
      · intro hmem
        obtain ⟨req', hreq', heq⟩ := List.mem_map.mp hmem
        obtain ⟨o, ho, hsome⟩ := List.mem_filterMap.mp hreq'
        cases o with
        | read j a => cases hsome
        | writesDone j => cases hsome
        | write j req'' ok' =>
          obtain rfl := Option.some.inj hsome
          have hw : (req'', ok') ∈ writesOf j log := mem_writesOf.mpr ho
          by_cases hkj : k = j
          · -- call `k` would have written twice
            subst hkj
            have hle := once k
            rw [writesOf_cons_write, if_pos rfl, List.length_cons] at hle
            have hpos := List.length_pos_of_mem hw
            omega
          · exact apart k j req req'' ok ok' hself (hmono j _ hw) hkj heq.symm
      · apply ih
        · intro i
          have hle := once i
          rw [writesOf_cons_write] at hle
          split at hle
          · rw [List.length_cons] at hle
            omega
          · exact hle
        · intro i j req₁ req₂ ok₁ ok₂ h₁ h₂
          exact apart i j req₁ req₂ ok₁ ok₂ (hmono i _ h₁) (hmono j _ h₂)

/-- No two requests of a receiver have the same id. -/
theorem requestIDs_nodup (ε : Env) (hinj : Function.Injective ε.uuid) (s : Receiver)
    (h : (sys ε).Reachable s) :
    ((requests s.mem.log).map QueuesDownstreamRequest.requestID).Nodup := by
  have hapart := apart_reachable hinj h
  apply nodup_of_apart
  · exact writesOf_length_le h
  · intro i j req req' ok ok' hi hj
    exact hapart.apart i j req req' (.inr ⟨ok, hi⟩) (.inr ⟨ok', hj⟩)

lemma unaryUuids_injective : Function.Injective unaryUuids.uuid := by
  intro a b h
  have hlen := congrArg String.length h
  simp only [unaryUuids, String.length_ofList, List.length_replicate] at hlen
  omega

theorem requestIDs_nodup_twice :
    ∃ s, (sys unaryUuids).exec start settleTwice = some s ∧ (requests s.mem.log).length = 3 ∧
      ((requests s.mem.log).map QueuesDownstreamRequest.requestID).Nodup := by
  refine ⟨_, rfl, rfl, ?_⟩
  exact requestIDs_nodup unaryUuids unaryUuids_injective _
    (Lts.Sys.Reachable.exec (.init rfl) settleTwice rfl)

end KubeMQ.Downstream
