import Mathlib.Algebra.GroupWithZero.Nat
import Mathlib.Algebra.Order.BigOperators.Group.List
import Mathlib.Algebra.Order.Group.Nat
import Mathlib.Logic.Function.Basic
import KubeMQ.Lts.Basic
import KubeMQ.Lts.Lock
import KubeMQ.Lts.History

/-!
# The metrics of the burn-in

`PatternMetrics` and `AggregateMetrics` of `burnin/engine/metrics.{h,cc}`. The workers add to the
counters without a lock, each `fetch_add` being one step. `GetPattern`, `Snapshot` and `Reset` hold
`mu_`; under it a `Snapshot` loads one counter at a time, first all counters of every pattern and then
`sent`, `received` and `errors` once more for the totals, and a `Reset` stores one zero at a time.

A counter is the number that it has counted to since its last reset; the atomic holds it modulo 2^64,
which is what a load returns (`Reading.value`). The times of `MarkStart` and `MarkStop` are left out.
`observed` puts every state on record, so that the moment of a load can be named.
-/

namespace KubeMQ.Burnin

/-- The fields of `PatternMetrics`, in the order of its `Snapshot`. -/
inductive Counter where
  | sent | received | errors | lost | duplicated | corrupted | outOfOrder | bytesSent | bytesReceived
  | rpcSuccess | rpcTimeout | rpcError | reconnections
  deriving DecidableEq

def Counter.all : List Counter :=
  [.sent, .received, .errors, .lost, .duplicated, .corrupted, .outOfOrder, .bytesSent,
    .bytesReceived, .rpcSuccess, .rpcTimeout, .rpcError, .reconnections]

/-- The counters of which there are totals. -/
def Counter.totals : List Counter := [.sent, .received, .errors]

/-- `PatternMetrics`. -/
abbrev Counters := Counter → ℕ

/-- The map `patterns_`, in the order of its names. -/
abbrev Patterns := List (String × Counters)

/-- A counter of a pattern. -/
abbrev Key := String × Counter

/-- One load of a counter. -/
structure Reading where
  key : Key
  count : ℕ
  deriving DecidableEq

/-- What the load returns. -/
def Reading.value (r : Reading) : ℕ := r.count % 2 ^ 64

namespace Patterns

/-- The counter, zero when the pattern is not there. -/
def count (ps : Patterns) (k : Key) : ℕ :=
  match ps.lookup k.1 with
  | some counters => counters k.2
  | none => 0

/-- `patterns_[name]`: a pattern that is not there yet is inserted. -/
def get (name : String) : Patterns → Patterns
  | [] => [(name, fun _ => 0)]
  | p :: ps =>
    if p.1 = name then p :: ps
    else if name < p.1 then (name, fun _ => 0) :: p :: ps
    else p :: get name ps

/-- A counter of one pattern becomes `f` of what it was. -/
def update (ps : Patterns) (k : Key) (f : ℕ → ℕ) : Patterns :=
  ps.map fun p => if p.1 = k.1 then (p.1, Function.update p.2 k.2 (f (p.2 k.2))) else p

/-- The counters of all patterns, pattern by pattern. -/
def keys (ps : Patterns) (counters : List Counter) : List Key :=
  ps.flatMap fun p => counters.map fun c => (p.1, c)

end Patterns

/-- The methods that take `mu_`. -/
inductive MetricsOp where
  | getPattern (name : String)
  | snapshot
  | reset
  deriving DecidableEq

/-- What a `Snapshot` has read, for the patterns and for the totals; `before` and `after` are the
patterns when it took the lock and when it had read everything. -/
structure Snapshot where
  before : Patterns
  patterns : List Reading
  totals : List Reading
  after : Patterns

/-- Where a call stands. -/
inductive MetricsPc where
  | wants (op : MetricsOp)
  | inserting (name : String)
  | loading (before : Patterns) (todo : List Key) (patterns : List Reading)
  | summing (before : Patterns) (todo : List Key) (patterns totals : List Reading)
  | storing (todo : List Key)
  | leaving (result : Option Snapshot)
  | returned (result : Option Snapshot)

structure AggregateMetrics where
  patterns : Patterns
  mu : Option ℕ
  calls : List MetricsPc

inductive MetricsAction where
  | begin (op : MetricsOp)
  | call (i : ℕ)
  | fetchAdd (k : Key) (n : ℕ)

namespace AggregateMetrics

/-- What a method does first when it has the lock. -/
def enter (ps : Patterns) : MetricsOp → MetricsPc
  | .getPattern name => .inserting name
  | .snapshot => .loading ps (ps.keys Counter.all) []
  | .reset => .storing (ps.keys Counter.all)

/-- One step of call `i`. -/
def callNext (ps : Patterns) (mu : Option ℕ) (i : ℕ) :
    MetricsPc → Option (Patterns × Option ℕ × MetricsPc)
  | .wants op => if mu = none then some (ps, some i, enter ps op) else none
  | .inserting name => some (ps.get name, mu, .leaving none)
  | .loading before [] patterns =>
    some (ps, mu, .summing before (ps.keys Counter.totals) patterns [])
  | .loading before (k :: todo) patterns =>
    some (ps, mu, .loading before todo (patterns ++ [⟨k, ps.count k⟩]))
  | .summing before [] patterns totals => some (ps, mu, .leaving (some ⟨before, patterns, totals, ps⟩))
  | .summing before (k :: todo) patterns totals =>
    some (ps, mu, .summing before todo patterns (totals ++ [⟨k, ps.count k⟩]))
  | .storing [] => some (ps, mu, .leaving none)
  | .storing (k :: todo) => some (ps.update k fun _ => 0, mu, .storing todo)
  | .leaving result => some (ps, none, .returned result)
  | .returned _ => none

def next (s : AggregateMetrics) : MetricsAction → Option AggregateMetrics
  | .begin op => some { s with calls := s.calls ++ [.wants op] }
  | .call i =>
    s.calls[i]?.bind fun pc =>
      (callNext s.patterns s.mu i pc).map fun r => ⟨r.1, r.2.1, s.calls.set i r.2.2⟩
  -- a worker has the reference that `GetPattern` returned
  | .fetchAdd k n =>
    if s.patterns.any (·.1 = k.1) then some { s with patterns := s.patterns.update k (· + n) } else none

/-- Metrics without patterns. -/
def new : AggregateMetrics := ⟨[], none, []⟩

def sys : Lts.Sys AggregateMetrics MetricsAction := ⟨(· = new), next⟩

end AggregateMetrics

namespace Patterns

variable {ps qs : Patterns} {k : Key} {f : ℕ → ℕ}

lemma map_fst_update (ps : Patterns) (k : Key) (f : ℕ → ℕ) :
    (ps.update k f).map Prod.fst = ps.map Prod.fst := by
  unfold update
  rw [List.map_map]
  apply List.map_congr_left
  intro p _
  simp only [Function.comp_apply]
  split <;> rfl

lemma lookup_update (ps : Patterns) (k : Key) (f : ℕ → ℕ) (name : String) :
    (ps.update k f).lookup name = (ps.lookup name).map fun counters =>
      if name = k.1 then Function.update counters k.2 (f (counters k.2)) else counters := by
  induction ps with
  | nil => rfl
  | cons p ps ih =>
    obtain ⟨n, counters⟩ := p
    have htail := ih
    unfold update at htail ⊢
    rw [List.map_cons]
    by_cases hn : name = n
    · subst hn
      by_cases hk : name = k.1
      · simp [hk]
      · simp [hk]
    · by_cases hk : n = k.1
      · simp only [hk, if_true, List.lookup_cons] at hn ⊢
        simp only [beq_eq_false_iff_ne.mpr hn]
        exact htail
      · simp only [hk, if_false, List.lookup_cons, beq_eq_false_iff_ne.mpr hn]
        exact htail

/-- Adding to a counter lowers none. -/
lemma count_le_add (ps : Patterns) (k : Key) (n : ℕ) (k' : Key) :
    ps.count k' ≤ (ps.update k (· + n)).count k' := by
  unfold count
  rw [lookup_update]
  cases ps.lookup k'.1 with
  | none => exact Nat.le_refl _
  | some counters =>
    simp only [Option.map_some]
    split
    · rw [Function.update_apply]
      split
      · next hc =>
        rw [hc]
        exact Nat.le_add_right _ _
      · exact Nat.le_refl _
    · exact Nat.le_refl _

/-- Which keys there are is a matter of the names. -/
lemma keys_congr (h : qs.map Prod.fst = ps.map Prod.fst) (counters : List Counter) :
    qs.keys counters = ps.keys counters := by
  have hkeys (rs : Patterns) :
      rs.keys counters = (rs.map Prod.fst).flatMap fun n => counters.map fun c => (n, c) := by
    unfold keys
    rw [List.flatMap_map]
  rw [hkeys, hkeys, h]

/-- The keys of one counter. -/
lemma keys_filter {c : Counter} {counters : List Counter}
    (hc : counters.filter (· = c) = [c]) (ps : Patterns) :
    (ps.keys counters).filter (fun k => decide (k.2 = c)) = ps.map fun p => (p.1, c) := by
  induction ps with
  | nil => rfl
  | cons p ps ih =>
    have hhead : (counters.map fun c' => (p.1, c')).filter (fun k => decide (k.2 = c)) = [(p.1, c)] := by
      rw [List.filter_map, show ((fun k : Key => decide (k.2 = c)) ∘ fun c' => (p.1, c'))
        = fun c' => decide (c' = c) from rfl, hc]
      rfl
    unfold keys at ih ⊢
    rw [List.flatMap_cons, List.filter_append, ih, hhead]
    rfl

/-- The same patterns, with counters that have only grown. -/
structure Grown (ps qs : Patterns) : Prop where
  names : qs.map Prod.fst = ps.map Prod.fst
  le : ∀ k, ps.count k ≤ qs.count k

lemma Grown.refl (ps : Patterns) : Grown ps ps :=
  ⟨rfl, fun _ => Nat.le_refl _⟩

lemma Grown.add (h : Grown ps qs) (k : Key) (n : ℕ) : Grown ps (qs.update k (· + n)) :=
  ⟨(map_fst_update qs k _).trans h.names, fun k' => Nat.le_trans (h.le k') (count_le_add qs k n k')⟩

end Patterns

/-- Every reading lies between the counter before and after. -/
def Between (before after : Patterns) (rs : List Reading) : Prop :=
  ∀ r ∈ rs, before.count r.key ≤ r.count ∧ r.count ≤ after.count r.key

/-- Of two readings of one counter the later one is no smaller. -/
def Rising (rs : List Reading) : Prop :=
  rs.Pairwise fun r r' => r.key = r'.key → r.count ≤ r'.count

section Readings

variable {before ps : Patterns} {rs : List Reading}

lemma Between.add (h : Between before ps rs) (k : Key) (n : ℕ) :
    Between before (ps.update k (· + n)) rs := by
  intro r hr
  exact ⟨(h r hr).1, Nat.le_trans (h r hr).2 (ps.count_le_add k n r.key)⟩

/-- One more counter is loaded. -/
lemma Between.load (h : Between before ps rs) (g : Patterns.Grown before ps) (k : Key) :
    Between before ps (rs ++ [⟨k, ps.count k⟩]) := by
  intro r hr
  rcases List.mem_append.mp hr with hr | hr
  · exact h r hr
  · rw [List.mem_singleton.mp hr]
    exact ⟨g.le k, Nat.le_refl _⟩

lemma Rising.load (h : Rising rs) (hb : Between before ps rs) (k : Key) :
    Rising (rs ++ [⟨k, ps.count k⟩]) := by
  unfold Rising
  rw [List.pairwise_append]
  refine ⟨h, List.pairwise_singleton _ _, ?_⟩
  intro r hr r' hr' hkey
  rw [List.mem_singleton.mp hr'] at hkey ⊢
  have hle := (hb r hr).2
  rwa [hkey] at hle

end Readings

/-- A snapshot shows every pattern with every counter, no reading is outside of what the counter was
between taking the lock and reading the last one, and what the totals add up was read later. -/
structure Snapshot.Consistent (x : Snapshot) : Prop where
  names : x.after.map Prod.fst = x.before.map Prod.fst
  patterns : x.patterns.map Reading.key = x.before.keys Counter.all
  totals : x.totals.map Reading.key = x.before.keys Counter.totals
  between : Between x.before x.after (x.patterns ++ x.totals)
  rising : Rising (x.patterns ++ x.totals)

/-- What is known of a call. -/
def MetricsPc.Sound (ps : Patterns) : MetricsPc → Prop
  | .loading before todo patterns =>
    before.Grown ps ∧ before.keys Counter.all = patterns.map Reading.key ++ todo ∧
      Between before ps patterns ∧ Rising patterns
  | .summing before todo patterns totals =>
    before.Grown ps ∧ before.keys Counter.all = patterns.map Reading.key ∧
      before.keys Counter.totals = totals.map Reading.key ++ todo ∧
      Between before ps (patterns ++ totals) ∧ Rising (patterns ++ totals)
  | .leaving (some x) | .returned (some x) => x.Consistent
  | _ => True

/-- The call holds `mu_`. -/
def MetricsPc.holds : MetricsPc → Bool
  | .wants _ => false
  | .returned _ => false
  | _ => true

namespace AggregateMetrics

/-- The steps of a call. -/
inductive CallStep (ps : Patterns) (mu : Option ℕ) (i : ℕ) :
    MetricsPc → Patterns → Option ℕ → MetricsPc → Prop where
  | acquire {op} :
    mu = none →
    CallStep ps mu i (.wants op) ps (some i) (enter ps op)
  | insert {name} :
    CallStep ps mu i (.inserting name) (ps.get name) mu (.leaving none)
  | load {before k todo patterns} :
    CallStep ps mu i (.loading before (k :: todo) patterns) ps mu
      (.loading before todo (patterns ++ [⟨k, ps.count k⟩]))
  | loaded {before patterns} :
    CallStep ps mu i (.loading before [] patterns) ps mu
      (.summing before (ps.keys Counter.totals) patterns [])
  | sum {before k todo patterns totals} :
    CallStep ps mu i (.summing before (k :: todo) patterns totals) ps mu
      (.summing before todo patterns (totals ++ [⟨k, ps.count k⟩]))
  | summed {before patterns totals} :
    CallStep ps mu i (.summing before [] patterns totals) ps mu
      (.leaving (some ⟨before, patterns, totals, ps⟩))
  | store {k todo} :
    CallStep ps mu i (.storing (k :: todo)) (ps.update k fun _ => 0) mu (.storing todo)
  | stored :
    CallStep ps mu i (.storing []) ps mu (.leaving none)
  | release {result} :
    CallStep ps mu i (.leaving result) ps none (.returned result)

/-- The steps of the system. -/
inductive Step (s : AggregateMetrics) : MetricsAction → AggregateMetrics → Prop where
  | begin {op} :
    Step s (.begin op) { s with calls := s.calls ++ [.wants op] }
  | call {i pc ps mu pc'} :
    s.calls[i]? = some pc →
    CallStep s.patterns s.mu i pc ps mu pc' →
    Step s (.call i) ⟨ps, mu, s.calls.set i pc'⟩
  | fetchAdd {k n} :
    Step s (.fetchAdd k n) { s with patterns := s.patterns.update k (· + n) }

lemma CallStep.of_next {ps ps' : Patterns} {mu mu' : Option ℕ} {i : ℕ} {pc pc' : MetricsPc}
    (h : callNext ps mu i pc = some (ps', mu', pc')) : CallStep ps mu i pc ps' mu' pc' := by
  unfold callNext at h
  split at h
  case h_1 =>
    split at h
    · next hmu =>
      cases h
      exact .acquire hmu
    · cases h
  all_goals
    cases h
    try constructor

lemma Step.of_next {s t : AggregateMetrics} {a : MetricsAction} (h : s.next a = some t) :
    Step s a t := by
  cases a with
  | begin op =>
    cases h
    exact .begin
  | call i =>
    obtain ⟨pc, hpc, h⟩ := Option.bind_eq_some_iff.mp h
    obtain ⟨⟨ps, mu, pc'⟩, hn, rfl⟩ := Option.map_eq_some_iff.mp h
    exact .call hpc (.of_next hn)
  | fetchAdd k n =>
    simp only [next] at h
    split at h
    · cases h
      exact .fetchAdd
    · cases h

/-- What a step means for the lock. -/
lemma CallStep.mu {ps ps' : Patterns} {mu mu' : Option ℕ} {i : ℕ} {pc pc' : MetricsPc}
    (st : CallStep ps mu i pc ps' mu' pc') :
    (mu = none ∧ mu' = some i ∧ pc'.holds = true) ∨
      (pc.holds = true ∧ pc'.holds = false ∧ mu' = none) ∨ (mu' = mu ∧ pc'.holds = pc.holds) := by
  cases st with
  | @acquire op hmu =>
    refine .inl ⟨hmu, rfl, ?_⟩
    cases op <;> rfl
  | release => exact .inr (.inl ⟨rfl, rfl, rfl⟩)
  | _ => exact .inr (.inr ⟨rfl, rfl⟩)

/-- A step of the call that holds the lock, or takes it. -/
lemma CallStep.sound {ps ps' : Patterns} {mu mu' : Option ℕ} {i : ℕ} {pc pc' : MetricsPc}
    (st : CallStep ps mu i pc ps' mu' pc') (h : pc.Sound ps) : pc'.Sound ps' := by
  cases st with
  | @acquire op hmu =>
    cases op with
    | snapshot => exact ⟨.refl ps, rfl, by simp [Between], .nil⟩
    | _ => trivial
  | @load before k todo patterns =>
    obtain ⟨hg, hkeys, hbetween, hrising⟩ := h
    refine ⟨hg, ?_, hbetween.load hg k, hrising.load hbetween k⟩
    rw [hkeys, List.map_append, List.append_assoc]
    rfl
  | @loaded before patterns =>
    obtain ⟨hg, hkeys, hbetween, hrising⟩ := h
    refine ⟨hg, ?_, ?_, ?_, ?_⟩
    · rwa [List.append_nil] at hkeys
    · exact (Patterns.keys_congr hg.names _).symm
    · rwa [List.append_nil]
    · rwa [List.append_nil]
  | @sum before k todo patterns totals =>
    obtain ⟨hg, hkeys, htotals, hbetween, hrising⟩ := h
    refine ⟨hg, hkeys, ?_, ?_, ?_⟩
    · rw [htotals, List.map_append, List.append_assoc]
      rfl
    · rw [← List.append_assoc]
      exact hbetween.load hg k
    · rw [← List.append_assoc]
      exact hrising.load hbetween k
  | summed =>
    obtain ⟨hg, hkeys, htotals, hbetween, hrising⟩ := h
    rw [List.append_nil] at htotals
    exact ⟨hg.names, hkeys.symm, htotals.symm, hbetween, hrising⟩
  | @release result =>
    cases result with
    | none => trivial
    | some x => exact h
  | _ => trivial

/-- Who steps holds the lock already or finds it free. -/
lemma CallStep.alone {ps ps' : Patterns} {mu mu' : Option ℕ} {i : ℕ} {pc pc' : MetricsPc}
    (st : CallStep ps mu i pc ps' mu' pc') : mu = none ∨ pc.holds = true := by
  cases st with
  | acquire hmu => exact .inl hmu
  | _ => exact .inr rfl

/-- A call that does not hold the lock knows nothing of the counters. -/
lemma sound_of_not_holds {ps ps' : Patterns} {pc : MetricsPc} (hpc : pc.holds = false)
    (h : pc.Sound ps) : pc.Sound ps' := by
  cases pc with
  | wants op => trivial
  | returned result =>
    cases result with
    | none => trivial
    | some x => exact h
  | _ => cases hpc

/-- Adding to a counter is seen by readings still to come. -/
lemma sound_add {ps : Patterns} {pc : MetricsPc} (h : pc.Sound ps) (k : Key) (n : ℕ) :
    pc.Sound (ps.update k (· + n)) := by
  cases pc with
  | loading before todo patterns =>
    obtain ⟨hg, hkeys, hbetween, hrising⟩ := h
    exact ⟨hg.add k n, hkeys, hbetween.add k n, hrising⟩
  | summing before todo patterns totals =>
    obtain ⟨hg, hkeys, htotals, hbetween, hrising⟩ := h
    exact ⟨hg.add k n, hkeys, htotals, hbetween.add k n, hrising⟩
  | leaving result =>
    cases result with
    | none => trivial
    | some x => exact h
  | returned result =>
    cases result with
    | none => trivial
    | some x => exact h
  | _ => trivial

/-- The invariant: one call at a time is under the lock, and what is known of it. -/
structure Inv (s : AggregateMetrics) : Prop where
  mutex : Lts.Mutex MetricsPc.holds s.mu s.calls
  sound : ∀ (i : ℕ) (pc : MetricsPc), s.calls[i]? = some pc → pc.Sound s.patterns

lemma Inv.step {s t : AggregateMetrics} {a : MetricsAction} (inv : Inv s) (st : Step s a t) :
    Inv t := by
  cases st with
  | begin =>
    refine ⟨inv.mutex.append rfl, ?_⟩
    intro i pc hpc
    rcases Lts.getElem?_concat_cases hpc with hpc | ⟨-, rfl⟩
    · exact inv.sound i pc hpc
    · trivial
  | @call i pc ps mu pc' hpc st =>
    have hmutex := inv.mutex.step hpc st.mu
    refine ⟨hmutex, ?_⟩
    intro j q hq
    rcases Lts.getElem?_set_cases hq with ⟨-, rfl⟩ | ⟨hji, hq⟩
    · exact st.sound (inv.sound i pc hpc)
    · cases hqh : q.holds with
      | false => exact sound_of_not_holds hqh (inv.sound j q hq)
      | true =>
        -- another call holds the lock, so this one can do nothing
        have hheld := inv.mutex.locked j q hq hqh
        rcases st.alone with hmu | hholds
        · rw [hmu] at hheld
          cases hheld
        · exact absurd (inv.mutex.locked.unique hq hqh hpc hholds) hji
  | fetchAdd =>
    refine ⟨inv.mutex, ?_⟩
    intro i pc hpc
    exact sound_add (inv.sound i pc hpc) _ _

lemma inv_reachable {s : AggregateMetrics} (h : sys.Reachable s) : Inv s := by
  apply h.invariant (I := Inv)
  · rintro s rfl
    exact ⟨.nil, by simp [new]⟩
  · intro s a t _ inv _ hn
    exact inv.step (.of_next hn)

/-- The system with every state that it has left on record. -/
def observed : Lts.Sys (Lts.Recorded AggregateMetrics AggregateMetrics) MetricsAction :=
  sys.recording fun s _ => [s]

end AggregateMetrics

/-- What a call has loaded. -/
def MetricsPc.readings : MetricsPc → List Reading
  | .loading _ _ patterns => patterns
  | .summing _ _ patterns totals => patterns ++ totals
  | .leaving (some x) | .returned (some x) => x.patterns ++ x.totals
  | _ => []

/-- The counter was at the value that call `i` has read in a state in which the call held `mu_`. -/
def Reading.Seen (past : List AggregateMetrics) (i : ℕ) (r : Reading) : Prop :=
  ∃ u ∈ past, u.mu = some i ∧ u.patterns.count r.key = r.count

namespace AggregateMetrics

/-- A step loads nothing, or one counter under the lock. -/
lemma CallStep.readings {ps ps' : Patterns} {mu mu' : Option ℕ} {i : ℕ} {pc pc' : MetricsPc}
    (st : CallStep ps mu i pc ps' mu' pc') :
    (∀ r ∈ pc'.readings, r ∈ pc.readings) ∨
      ∃ k, pc'.readings = pc.readings ++ [⟨k, ps.count k⟩] ∧ pc.holds = true ∧ ps' = ps ∧
        mu' = mu := by
  cases st with
  | @acquire op hmu =>
    left
    intro r hr
    cases op <;> cases hr
  | load => exact .inr ⟨_, rfl, rfl, rfl, rfl⟩
  | loaded =>
    left
    intro r hr
    rwa [MetricsPc.readings, List.append_nil] at hr
  | sum => exact .inr ⟨_, (List.append_assoc _ _ _).symm, rfl, rfl, rfl⟩
  | @release result =>
    left
    intro r hr
    cases result with
    | none => cases hr
    | some x => exact hr
  | _ => exact .inl fun r hr => hr

lemma seen_step {v w : Lts.Recorded AggregateMetrics AggregateMetrics} {a : MetricsAction}
    (inv : Inv v.state) (hn : observed.next v a = some w)
    (h : ∀ (i : ℕ) (pc : MetricsPc), v.state.calls[i]? = some pc →
      ∀ r ∈ pc.readings, r.Seen v.record i)
    (i : ℕ) (pc : MetricsPc) (hpc : w.state.calls[i]? = some pc) (r : Reading)
    (hr : r ∈ pc.readings) : r.Seen w.record i := by
  obtain ⟨t, ht, rfl⟩ := Lts.Sys.recording_next.mp hn
  -- what was on record stays there
  have hold (pc : MetricsPc) (hpc : v.state.calls[i]? = some pc) (hr : r ∈ pc.readings) :
      r.Seen (v.record ++ [v.state]) i := by
    obtain ⟨u, hu, hseen⟩ := h i pc hpc r hr
    exact ⟨u, List.mem_append_left _ hu, hseen⟩
  have hstep := Step.of_next ht
  show r.Seen (v.record ++ [v.state]) i
  cases hstep with
  | begin =>
    rcases Lts.getElem?_concat_cases hpc with hpc | ⟨-, rfl⟩
    · exact hold pc hpc hr
    · cases hr
  | fetchAdd => exact hold pc hpc hr
  | @call j q ps mu q' hq st =>
    rcases Lts.getElem?_set_cases hpc with ⟨rfl, rfl⟩ | ⟨-, hpc⟩
    · rcases st.readings with hsub | ⟨k, hload, hholds, rfl, rfl⟩
      · exact hold q hq (hsub r hr)
      · rw [hload] at hr
        rcases List.mem_append.mp hr with hr | hr
        · exact hold q hq hr
        · rw [List.mem_singleton.mp hr]
          exact ⟨v.state, List.mem_append_right _ List.mem_cons_self,
            inv.mutex.locked _ q hq hholds, rfl⟩
    · exact hold pc hpc hr

lemma seen_reachable {v : Lts.Recorded AggregateMetrics AggregateMetrics}
    (h : observed.Reachable v) :
    ∀ (i : ℕ) (pc : MetricsPc), v.state.calls[i]? = some pc →
      ∀ r ∈ pc.readings, r.Seen v.record i := by
  apply h.invariant
  · rintro ⟨s, record⟩ ⟨rfl, rfl⟩ i pc hpc
    cases hpc
  · intro v a w hr ih _ hn
    exact seen_step (inv_reachable (Lts.Sys.Reachable.of_recording hr)) hn ih

end AggregateMetrics

/-- The readings of one counter. -/
def readingsOf (c : Counter) (rs : List Reading) : List Reading :=
  rs.filter fun r => decide (r.key.2 = c)

/-- What is loaded of one counter, added up. -/
def Snapshot.sum (x : Snapshot) (c : Counter) : ℕ := ((readingsOf c x.patterns).map Reading.value).sum

/-- The member of `_totals`: the sum is a `uint64_t`. -/
def Snapshot.total (x : Snapshot) (c : Counter) : ℕ :=
  ((readingsOf c x.totals).map Reading.value).sum % 2 ^ 64

/-- What all patterns together have counted to. -/
def Patterns.sum (ps : Patterns) (c : Counter) : ℕ :=
  ((ps.map Prod.fst).map fun name => ps.count (name, c)).sum

section Totals

variable {c : Counter} {ps : Patterns} {rs rs' : List Reading}

lemma map_key_readingsOf {counters : List Counter} (hc : counters.filter (· = c) = [c])
    (h : rs.map Reading.key = ps.keys counters) :
    (readingsOf c rs).map Reading.key = ps.map fun p => (p.1, c) := by
  rw [← Patterns.keys_filter hc, ← h, List.filter_map]
  rfl

/-- Readings of the same counters, one list taken after the other. -/
lemma sum_count_le (hkeys : rs.map Reading.key = rs'.map Reading.key)
    (h : ∀ r ∈ rs, ∀ r' ∈ rs', r.key = r'.key → r.count ≤ r'.count) :
    (rs.map Reading.count).sum ≤ (rs'.map Reading.count).sum := by
  induction rs generalizing rs' with
  | nil => exact Nat.zero_le _
  | cons r rs ih =>
    cases rs' with
    | nil => cases hkeys
    | cons r' rs' =>
      simp only [List.map_cons, List.cons.injEq] at hkeys
      have hhead := h r List.mem_cons_self r' List.mem_cons_self hkeys.1
      have htail := ih hkeys.2 fun x hx x' hx' =>
        h x (List.mem_cons_of_mem r hx) x' (List.mem_cons_of_mem r' hx')
      simp only [List.map_cons, List.sum_cons]
      omega

/-- Readings of all the patterns do not exceed what these have counted to. -/
lemma sum_count_le_sum {before : Patterns} (hkeys : rs.map Reading.key = before.map fun p => (p.1, c))
    (names : ps.map Prod.fst = before.map Prod.fst) (h : ∀ r ∈ rs, r.count ≤ ps.count r.key) :
    (rs.map Reading.count).sum ≤ ps.sum c := by
  have hnow : ps.sum c = ((before.map fun p => (p.1, c)).map fun k => ps.count k).sum := by
    unfold Patterns.sum
    rw [names, List.map_map, List.map_map]
    rfl
  rw [hnow, ← hkeys]
  clear hnow hkeys names
  induction rs with
  | nil => exact Nat.le_refl _
  | cons r rs ih =>
    have hhead := h r List.mem_cons_self
    have htail := ih fun x hx => h x (List.mem_cons_of_mem r hx)
    simp only [List.map_cons, List.sum_cons]
    omega

/-- Loads of counters that have not come to 2^64 return them as they are. -/
lemma map_value_eq (h : (rs.map Reading.count).sum < 2 ^ 64) :
    rs.map Reading.value = rs.map Reading.count := by
  apply List.map_congr_left
  intro r hr
  have hle := List.le_sum_of_mem (List.mem_map_of_mem (f := Reading.count) hr)
  exact Nat.mod_eq_of_lt (Nat.lt_of_le_of_lt hle h)

end Totals

/-- The totals of a snapshot are never behind its patterns, as long as they fit their type, and they
are the sums of the patterns when no counter has moved meanwhile. -/
lemma Snapshot.Consistent.total {x : Snapshot} (h : x.Consistent) {c : Counter}
    (hc : c ∈ Counter.totals) (hfit : x.after.sum c < 2 ^ 64) :
    x.sum c ≤ x.total c ∧ x.total c ≤ x.after.sum c ∧ (x.after = x.before → x.total c = x.sum c) := by
  have hall : Counter.all.filter (· = c) = [c] := by cases c <;> rfl
  have htot : Counter.totals.filter (· = c) = [c] := by
    cases c with
    | sent => rfl
    | received => rfl
    | errors => rfl
    | _ => simp [Counter.totals] at hc
  have hkeys := map_key_readingsOf hall h.patterns
  have hkeys' := map_key_readingsOf htot h.totals
  have hmem : ∀ {rs : List Reading}, ∀ r ∈ readingsOf c rs, r ∈ rs := fun r hr => (List.mem_filter.mp hr).1
  have hle : ((readingsOf c x.patterns).map Reading.count).sum
      ≤ ((readingsOf c x.totals).map Reading.count).sum := by
    apply sum_count_le (hkeys.trans hkeys'.symm)
    intro r hr r' hr'
    exact (List.pairwise_append.mp h.rising).2.2 r (hmem r hr) r' (hmem r' hr')
  have hup : ((readingsOf c x.totals).map Reading.count).sum ≤ x.after.sum c := by
    apply sum_count_le_sum hkeys' h.names
    intro r hr
    exact (h.between r (List.mem_append_right _ (hmem r hr))).2
  unfold Snapshot.total Snapshot.sum
  rw [map_value_eq (by omega), map_value_eq (by omega), Nat.mod_eq_of_lt (by omega)]
  refine ⟨hle, hup, ?_⟩
  intro hquiet
  apply Nat.le_antisymm _ hle
  apply sum_count_le (hkeys'.trans hkeys.symm)
  intro r' hr' r hr hkey
  have hhigh := (h.between r' (List.mem_append_right _ (hmem r' hr'))).2
  have hlow := (h.between r (List.mem_append_left _ (hmem r hr))).1
  rw [hquiet, hkey] at hhigh
  omega

/-- Every snapshot, whatever is counted, registered and reset beside it: it shows each pattern that
was there with its thirteen counters, every value was the counter's at some time while the lock was
held, and its totals are at least the sums of its patterns. -/
theorem snapshots_consistent {v : Lts.Recorded AggregateMetrics AggregateMetrics}
    (h : AggregateMetrics.observed.Reachable v) {i : ℕ} {x : Snapshot}
    (hx : v.state.calls[i]? = some (.returned (some x))) :
    x.Consistent ∧ (∀ r ∈ x.patterns ++ x.totals, r.Seen v.record i) ∧
      ∀ c ∈ Counter.totals, x.after.sum c < 2 ^ 64 →
        x.sum c ≤ x.total c ∧ x.total c ≤ x.after.sum c ∧
          (x.after = x.before → x.total c = x.sum c) := by
  have hreach : AggregateMetrics.sys.Reachable v.state := h.of_recording
  have hcons : x.Consistent := (AggregateMetrics.inv_reachable hreach).sound i _ hx
  exact ⟨hcons, AggregateMetrics.seen_reachable h i _ hx, fun c hc hfit => hcons.total hc hfit⟩

/-- A message is counted between the two loads of `sent`. -/
def countedBetween : List MetricsAction :=
  [.begin (.getPattern "events"), .call 0, .call 0, .call 0, .begin .snapshot]
    ++ List.replicate 14 (.call 1) ++ .fetchAdd ("events", .sent) 1 :: List.replicate 6 (.call 1)

theorem snapshots_consistent_between :
    ∃ v x, AggregateMetrics.observed.exec ⟨.new, []⟩ countedBetween = some v ∧
      v.state.calls[1]? = some (.returned (some x)) ∧ x.sum .sent = 0 ∧ x.total .sent = 1 ∧
      x.sum .sent ≤ x.total .sent := by
  have hcall : ((AggregateMetrics.observed.exec ⟨.new, []⟩ countedBetween).bind fun v =>
      v.state.calls[1]?.bind fun
        | .returned (some x) => some (x.sum .sent, x.total .sent, x.after.sum .sent)
        | _ => none) = some (0, 1, 1) := by decide +kernel
  obtain ⟨v, hv, hcall⟩ := Option.bind_eq_some_iff.mp hcall
  obtain ⟨pc, hpc, hx⟩ := Option.bind_eq_some_iff.mp hcall
  have hinit : AggregateMetrics.observed.init ⟨.new, []⟩ := ⟨rfl, rfl⟩
  split at hx
  · next x =>
    simp only [Option.some.injEq, Prod.mk.injEq] at hx
    obtain ⟨-, -, htotal⟩ := snapshots_consistent (.exec (.init hinit) countedBetween hv) hpc
    have hle := (htotal .sent (by decide) (by rw [hx.2.2]; decide)).1
    exact ⟨v, x, hv, hpc, hx.1, hx.2.1, hle⟩
  · cases hx

end KubeMQ.Burnin
