import KubeMQ.Json.Value
import KubeMQ.Num.Checked

/-!
# Records in JSON

How records of C++ are written to `nlohmann::json` and read from it: a map of the standard library,
an object built from an initializer list, an `int`, a member that may be absent. `reparsed` is what
`dump` and `parse` make of a value, and `find?_reparsed` what a member becomes.
-/

namespace Json

/-- `std::map` with string keys. -/
abbrev StringMap (A : Type) := Std.ExtTreeMap String A compare

namespace StringMap

variable {A : Type}

/-- Entries inserted one after the other; a key that is there already is kept. -/
def ofEntries (entries : List (String × A)) : StringMap A :=
  entries.foldl (fun m e => m.insertIfNew e.1 e.2) ∅

lemma getElem?_foldl_insertIfNew (entries : List (String × A)) (m : StringMap A) (key : String) :
    (entries.foldl (fun m e => m.insertIfNew e.1 e.2) m)[key]? =
      m[key]?.or (entries.lookup key) := by
  induction entries generalizing m with
  | nil => simp
  | cons e entries ih =>
    obtain ⟨k, a⟩ := e
    rw [List.foldl_cons, ih, Std.ExtTreeMap.getElem?_insertIfNew, List.lookup_cons]
    by_cases hk : k = key
    · subst hk
      by_cases hm : k ∈ m
      · simp [hm]
      · simp [hm]
    · have hcmp : compare k key ≠ .eq := fun e => hk (Std.LawfulEqCmp.eq_of_compare e)
      have hbeq : (key == k) = false := beq_eq_false_iff_ne.mpr (Ne.symm hk)
      simp [hcmp, hbeq]

lemma getElem?_ofEntries (entries : List (String × A)) (key : String) :
    (ofEntries entries)[key]? = entries.lookup key := by
  unfold ofEntries
  rw [getElem?_foldl_insertIfNew, Std.ExtTreeMap.getElem?_empty, Option.none_or]

/-- Where keys are distinct the entry with a key is the one that is found. -/
lemma lookup_of_mem {entries : List (String × A)} {key : String} {a : A}
    (h : entries.Pairwise fun e e' => ¬compare e.1 e'.1 = .eq) (hmem : (key, a) ∈ entries) :
    entries.lookup key = some a := by
  obtain ⟨before, after, rfl⟩ := List.append_of_mem hmem
  apply List.lookup_eq_some_iff.mpr
  refine ⟨before, after, rfl, ?_⟩
  intro e he
  obtain ⟨-, -, hne⟩ := List.pairwise_append.mp h
  have hcmp := hne e he _ List.mem_cons_self
  apply bne_iff_ne.mpr
  rintro rfl
  exact hcmp Std.ReflCmp.compare_self

lemma lookup_toList (m : StringMap A) (key : String) : m.toList.lookup key = m[key]? := by
  cases hm : m[key]? with
  | some a =>
    have hmem : (key, a) ∈ m.toList := Std.ExtTreeMap.mem_toList_iff_getElem?_eq_some.mpr hm
    exact lookup_of_mem Std.ExtTreeMap.distinct_keys_toList hmem
  | none =>
    apply List.lookup_eq_none_iff.mpr
    rintro ⟨k, a⟩ he
    have hk := Std.ExtTreeMap.mem_toList_iff_getElem?_eq_some.mp he
    apply bne_iff_ne.mpr
    rintro rfl
    exact absurd (hm.symm.trans hk) nofun

lemma ofEntries_toList (m : StringMap A) : ofEntries m.toList = m := by
  apply Std.ExtTreeMap.ext_getElem?
  intro key
  rw [getElem?_ofEntries, lookup_toList]

end StringMap

namespace Value

/-- An object from an initializer list. -/
def record (fields : List (String × Value)) : Value :=
  .object (StringMap.ofEntries fields).toList

def ofMap {A : Type} (f : A → Value) (m : StringMap A) : Value :=
  .object (m.toList.map fun e => (e.1, f e.2))

def ofInt (n : Int32) : Value := .integer n.toInt64

@[simp] lemma find?_record (fields : List (String × Value)) (key : String) :
    (record fields).find? key = fields.lookup key :=
  (StringMap.lookup_toList _ key).trans (StringMap.getElem?_ofEntries fields key)

mutual

/-- The value that `parse` gives for the `dump` of a value: a number without a sign is read as an
unsigned one. -/
def reparsed : Value → Value
  | .integer n => if 0 ≤ n.toInt then .unsigned (UInt64.ofNat n.toInt.toNat) else .integer n
  | .array items => .array (reparsedItems items)
  | .object fields => .object (reparsedFields fields)
  | j => j

def reparsedItems : List Value → List Value
  | [] => []
  | j :: items => j.reparsed :: reparsedItems items

def reparsedFields : List (String × Value) → List (String × Value)
  | [] => []
  | (key, j) :: fields => (key, j.reparsed) :: reparsedFields fields

end

lemma reparsedFields_eq (fields : List (String × Value)) :
    reparsedFields fields = fields.map fun e => (e.1, e.2.reparsed) := by
  induction fields with
  | nil => rw [reparsedFields]; rfl
  | cons e fields ih => rw [reparsedFields, ih]; rfl

lemma lookup_map {A B : Type} (f : A → B) (entries : List (String × A)) (key : String) :
    (entries.map fun e => (e.1, f e.2)).lookup key = (entries.lookup key).map f := by
  induction entries with
  | nil => rfl
  | cons e entries ih =>
    rw [List.map_cons, List.lookup_cons, List.lookup_cons, ih]
    cases key == e.1 <;> rfl

@[simp] lemma find?_reparsed (j : Value) (key : String) :
    j.reparsed.find? key = (j.find? key).map reparsed := by
  cases j with
  | object fields =>
    rw [reparsed]
    show (reparsedFields fields).lookup key = (fields.lookup key).map reparsed
    rw [reparsedFields_eq, lookup_map]
  | integer n =>
    rw [reparsed]
    split <;> rfl
  | array items => rw [reparsed]; rfl
  | _ => rfl

end Value

namespace Reader

variable {A : Type}

/-- The read of a value that may be absent, in which case the field keeps what it has. -/
def optional (r : Reader A) (j : Option Value) (default : A) : Except Fault A :=
  match j with
  | none => .ok default
  | some v => r.get v

def optionalVerdict (r : Reader A) : Option Value → Verdict
  | none => .exact
  | some v => r.verdict v

def Optional (r : Reader A) (j : Option Value) (default a : A) : Prop :=
  match j with
  | none => a = default
  | some v => r.Is v a

lemma tracks_optional (r : Reader A) (j : Option Value) (default : A) :
    Tracks (r.Optional j default) (r.optional j default) (r.optionalVerdict j) := by
  cases j with
  | none => exact .exact rfl
  | some v => exact r.tracks v

/-- A member that is left out keeps the default. -/
lemma Nested.of_none {r : Reader A} {j : Value} {key : String} {default a : A}
    (h : r.Nested j key default a) (hj : j.find? key = none) : a = default := by
  unfold Nested at h
  rw [hj] at h
  exact h

lemma Nested.of_some {r : Reader A} {j v : Value} {key : String} {default a : A}
    (h : r.Nested j key default a) (hj : j.find? key = some v) : r.Is v a := by
  unfold Nested at h
  rw [hj] at h
  exact h

/-- No value is read as another. -/
def Plain (r : Reader A) : Prop := ∀ j, r.verdict j ≠ .altered

lemma all_ne_altered {vs : List Verdict} (h : ∀ v ∈ vs, v ≠ .altered) :
    Verdict.all vs ≠ .altered := by
  induction vs with
  | nil => exact nofun
  | cons v vs ih =>
    have hv : v ≠ .altered := h v List.mem_cons_self
    have hrest : Verdict.all vs ≠ .altered := ih fun w hw => h w (List.mem_cons_of_mem _ hw)
    show v.andThen (Verdict.all vs) ≠ .altered
    cases v with
    | exact => exact hrest
    | altered => exact absurd rfl hv
    | mistyped => exact nofun
    | undefined => exact nofun

lemma Plain.optional {r : Reader A} (h : r.Plain) (j : Option Value) :
    r.optionalVerdict j ≠ .altered := by
  cases j with
  | none => exact nofun
  | some v => exact h v

lemma Plain.nested {r : Reader A} (h : r.Plain) (j : Value) (key : String) :
    r.nestedVerdict j key ≠ .altered :=
  h.optional (j.find? key)

lemma plain_ofString : ofString.Plain := by
  intro j
  cases j <;> exact nofun

lemma plain_ofBoolean : ofBoolean.Plain := by
  intro j
  cases j <;> exact nofun

/-- `get<std::map<std::string, …>>`, as assumed of the library: it takes objects only, and reads every
member. -/
def ofMap (r : Reader A) : Reader (StringMap A) where
  get
    | .object fields => do
      let values ← (fields.map Prod.snd).mapM r.get
      return StringMap.ofEntries ((fields.map Prod.fst).zip values)
    | j => .error (typeError "302" ("type must be object, but is " ++ j.typeName))
  verdict
    | .object fields => .all ((fields.map Prod.snd).map r.verdict)
    | _ => .mistyped
  Is j m := ∃ fields values, j = .object fields ∧
    List.Forall₂ r.Is (fields.map Prod.snd) values ∧
    m = StringMap.ofEntries ((fields.map Prod.fst).zip values)
  tracks j := by
    cases j with
    | object fields =>
      have hbind := (r.tracks_mapM (fields.map Prod.snd)).bind fun values =>
        Tracks.pure (StringMap.ofEntries ((fields.map Prod.fst).zip values))
      rw [Verdict.andThen_exact] at hbind
      apply hbind.congr
      intro m
      constructor
      · rintro ⟨values, hvalues, rfl⟩
        exact ⟨fields, values, rfl, hvalues, rfl⟩
      · rintro ⟨fields', values, heq, hvalues, rfl⟩
        cases heq
        exact ⟨values, hvalues, rfl⟩
    | _ =>
      apply Tracks.mistyped
      rintro m ⟨fields, values, heq, -⟩
      cases heq

lemma Plain.ofMap {r : Reader A} (h : r.Plain) : r.ofMap.Plain := by
  intro j
  cases j with
  | object fields =>
    apply all_ne_altered
    intro v hv
    obtain ⟨x, -, rfl⟩ := List.mem_map.mp hv
    exact h x
  | _ => exact nofun

/-- What a number or a truth value is converted to. -/
inductive IsInt : Value → Int32 → Prop where
  | unsigned {n : UInt64} :
    IsInt (.unsigned n) (Int32.ofInt n.toNat)
  | integer {n : Int64} :
    IsInt (.integer n) (Int32.ofInt n.toInt)
  | float {x : Rat} :
    Checked.int.Fits (x.num.tdiv x.den) →
    IsInt (.float x) (Int32.ofInt (x.num.tdiv x.den))
  | boolean {b : Bool} :
    IsInt (.boolean b) (if b then 1 else 0)

/-- `get<int>`, as assumed of the library: it casts any number or truth value; of a double that is
undefined when the truncated number does not fit. -/
def ofInt : Reader Int32 where
  get
    | .unsigned n => .ok (Int32.ofInt n.toNat)
    | .integer n => .ok (Int32.ofInt n.toInt)
    | .float x =>
      if Checked.int.Fits (x.num.tdiv x.den) then .ok (Int32.ofInt (x.num.tdiv x.den))
      else .error .undefined
    | .boolean b => .ok (if b then 1 else 0)
    | j => .error (typeError "302" ("type must be number, but is " ++ j.typeName))
  verdict
    | .unsigned _ => .exact
    | .integer _ => .exact
    | .float x => if Checked.int.Fits (x.num.tdiv x.den) then .exact else .undefined
    | .boolean _ => .exact
    | _ => .mistyped
  Is := IsInt
  tracks j := by
    cases j with
    | unsigned n => exact .exact .unsigned
    | integer n => exact .exact .integer
    | boolean b => exact .exact .boolean
    | float x =>
      dsimp only
      by_cases h : Checked.int.Fits (x.num.tdiv x.den)
      · rw [if_pos h, if_pos h]
        exact .exact (.float h)
      · rw [if_neg h, if_neg h]
        apply Tracks.undefined
        intro n hn
        cases hn with
        | float hfits => exact h hfits
    | _ => exact .mistyped nofun

lemma plain_ofInt : ofInt.Plain := by
  intro j
  cases j with
  | float x =>
    show (if Checked.int.Fits (x.num.tdiv x.den) then Verdict.exact else .undefined) ≠ .altered
    split <;> exact nofun
  | _ => exact nofun

/-- An `int` that was written is read back. -/
lemma get_reparsed_ofInt (n : Int32) : ofInt.get (Value.ofInt n).reparsed = .ok n := by
  have hlt := n.toInt_lt
  unfold Value.ofInt
  rw [Value.reparsed, Int32.toInt_toInt64]
  by_cases h : 0 ≤ n.toInt
  · have hsize : n.toInt.toNat < UInt64.size := by
      show _ < 18446744073709551616
      omega
    rw [if_pos h]
    show Except.ok (Int32.ofInt (UInt64.ofNat n.toInt.toNat).toNat) = _
    rw [UInt64.toNat_ofNat_of_lt' hsize, Int.toNat_of_nonneg h, Int32.ofInt_toInt]
  · rw [if_neg h]
    show Except.ok (Int32.ofInt n.toInt64.toInt) = _
    rw [Int32.toInt_toInt64, Int32.ofInt_toInt]

lemma get_reparsed_string (s : String) : ofString.get (Value.string s).reparsed = .ok s := by
  rw [Value.reparsed]
  · rfl
  all_goals nofun

lemma get_reparsed_boolean (b : Bool) : ofBoolean.get (Value.boolean b).reparsed = .ok b := by
  rw [Value.reparsed]
  · rfl
  all_goals nofun

/-- A member of a record that was written is read back. -/
lemma nested_reparsed {r : Reader A} {fields : List (String × Value)} {key : String} {v : Value}
    {a : A} (hv : fields.lookup key = some v) (ha : r.get v.reparsed = .ok a) (default : A) :
    r.nested (Value.record fields).reparsed key default = .ok a := by
  unfold nested
  rw [Value.find?_reparsed, Value.find?_record, hv]
  exact ha

lemma mapM_get (r : Reader A) {f : A → Value} (h : ∀ a, r.get (f a) = .ok a) (as : List A) :
    (as.map f).mapM r.get = .ok as := by
  induction as with
  | nil => rfl
  | cons a as ih =>
    rw [List.map_cons, List.mapM_cons, h, ih]
    rfl

/-- A map that was written is read back when its values are. -/
lemma get_reparsed_ofMap (r : Reader A) {f : A → Value} (h : ∀ a, r.get (f a).reparsed = .ok a)
    (m : StringMap A) : r.ofMap.get (Value.ofMap f m).reparsed = .ok m := by
  unfold Value.ofMap
  rw [Value.reparsed, Value.reparsedFields_eq]
  have hkeys : ((m.toList.map fun e => (e.1, f e.2)).map
      fun e => (e.1, e.2.reparsed)).map Prod.fst = m.toList.map Prod.fst := by
    rw [List.map_map, List.map_map]
    rfl
  have hvalues : ((m.toList.map fun e => (e.1, f e.2)).map
      fun e => (e.1, e.2.reparsed)).map Prod.snd
        = (m.toList.map Prod.snd).map fun a => (f a).reparsed := by
    rw [List.map_map, List.map_map, List.map_map]
    rfl
  show ((List.map Prod.snd _).mapM r.get >>= fun values => Except.ok _) = _
  rw [hvalues, hkeys, r.mapM_get h]
  show Except.ok (StringMap.ofEntries ((m.toList.map Prod.fst).zip (m.toList.map Prod.snd))) = _
  rw [← List.zip_of_prod rfl rfl, StringMap.ofEntries_toList]

/-- What a map holds under a key is what the object has there. -/
lemma ofMap_getElem? (r : Reader A) {j : Value} {m : StringMap A} (h : r.ofMap.Is j m)
    (key : String) :
    match j.find? key with
    | none => m[key]? = none
    | some v => ∃ a, m[key]? = some a ∧ r.Is v a := by
  obtain ⟨fields, values, rfl, hvalues, rfl⟩ := h
  rw [StringMap.getElem?_ofEntries]
  show match fields.lookup key with
    | none => _
    | some v => _
  induction fields generalizing values with
  | nil => rfl
  | cons e fields ih =>
    obtain ⟨k, v⟩ := e
    cases hvalues with
    | @cons _ a _ values ha hrest =>
      rw [List.map_cons, List.zip_cons_cons, List.lookup_cons, List.lookup_cons]
      cases key == k with
      | true => exact ⟨a, rfl, ha⟩
      | false => exact ih values hrest

end Reader

end Json
