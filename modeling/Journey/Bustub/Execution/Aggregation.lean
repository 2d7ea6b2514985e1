import Journey.Lib.Machine
import Journey.Bustub.Type.Hash

/-!
# Journey.Bustub.Execution.Aggregation — the groups of an aggregation

`SimpleAggregationHashTable` is a `std::unordered_map` from group-by values to running aggregates.

* `AggregateKey.equal`, `AggregateKey.hash`: `operator==` and `std::hash`.
* `lookupOrInsert`: `InsertCombine` up to the call of `CombineAggregateValues`, which is not written yet.
* `equal_eq`: keys are equal if they are the same and have no NULL.
* `groups_iff`: over any sequence of keys, there is one entry for each group exactly if no key has a NULL.
-/

namespace Journey.Execution

open SqlType

/-! ## Keys -/

section Keys

/-- `AggregateKey`: its `group_bys_`. -/
abbrev AggregateKey := List Value

/-- `AggregateValue`: its `aggregates_`. -/
abbrev AggregateValue := List Value

/-- `AggregationType`. -/
inductive AggregationType
  | countStarAggregate
  | countAggregate
  | sumAggregate
  | minAggregate
  | maxAggregate
deriving DecidableEq, Repr

namespace AggregateKey

/-- `operator==`: the loop runs over the values of the other key. -/
def equal : AggregateKey → AggregateKey → Except Fault Bool
  | _, [] => .ok true
  | [], _ :: _ => .error .outOfBounds
  | v :: key, w :: other => do
    if (← v.compareEquals w) ≠ .cmpTrue then return false
    equal key other

/-- One round of `std::hash<AggregateKey>`. -/
def addHash (currHash : UInt64) (key : Value) : Except Fault UInt64 :=
  if !key.isNull then do return HashUtil.combineHashes currHash (← HashUtil.hashValue key)
  else .ok currHash

/-- `std::hash<AggregateKey>`. -/
def hash (aggKey : AggregateKey) : Except Fault UInt64 := aggKey.foldlM addHash 0

end AggregateKey

end Keys

/-! ## The table -/

section Table

/-- `ht_`: the entries of a `std::unordered_map`, in some order. -/
abbrev HashTable := List (AggregateKey × AggregateValue)

/-- `GenerateInitialAggregateValue`. -/
def generateInitialAggregateValue (aggTypes : List AggregationType) : AggregateValue :=
  aggTypes.map fun
    | .countStarAggregate => .integer 0
    | .countAggregate | .sumAggregate | .minAggregate | .maxAggregate => .integer int32Null

namespace HashTable

/-- `find`: an entry with the hash of the key, and equal to it. -/
def find (aggKey : AggregateKey) : HashTable → Except Fault (Option AggregateValue)
  | [] => .ok none
  | (key, value) :: ht => do
    if (← key.hash) = (← aggKey.hash) then
      if ← aggKey.equal key then return some value
    find aggKey ht

/-- `count`. -/
def count (ht : HashTable) (aggKey : AggregateKey) : Except Fault ℕ := do
  match ← find aggKey ht with
  | some _ => return 1
  | none => return 0

/-- `insert`: nothing if there is an entry already. -/
def insert (ht : HashTable) (aggKey : AggregateKey) (value : AggregateValue) : Except Fault HashTable := do
  match ← find aggKey ht with
  | some _ => return ht
  | none => return (aggKey, value) :: ht

/-- `operator[]`: the table then, and the value that the reference refers to.  A key without an entry is given an empty
value. -/
def index (ht : HashTable) (aggKey : AggregateKey) : Except Fault (HashTable × AggregateValue) := do
  match ← find aggKey ht with
  | some value => return (ht, value)
  | none => return ((aggKey, []) :: ht, [])

/-- `InsertCombine`, up to the call of `CombineAggregateValues`: its argument `&ht_[agg_key]` is the last that is
evaluated. -/
def lookupOrInsert (aggTypes : List AggregationType) (ht : HashTable) (aggKey : AggregateKey) :
    Except Fault HashTable := do
  let ht ← if (← ht.count aggKey) = 0 then ht.insert aggKey (generateInitialAggregateValue aggTypes) else pure ht
  let (ht, _) ← ht.index aggKey
  return ht

end HashTable

end Table

/-! ## Values of a column -/

section Columns

open Value

variable {v w : Value}

/-- Strings as they are made: with a terminator, and of a length that an `int` holds. -/
def Terminated : Value → Prop
  | .varchar (some data) => data.1.getLast? = some 0 ∧ data.1.length ≤ 2 ^ 31
  | _ => True

theorem number_inj (hexact : isExact v.getTypeId = true) (hstring : v.getTypeId ≠ .varchar)
    (htype : w.getTypeId = v.getTypeId) (h : v.number = w.number) : v = w := by
  cases v with
  | boolean i =>
    cases w <;> cases htype
    exact congrArg _ (Int8.toInt_inj.mp h)
  | tinyint i =>
    cases w <;> cases htype
    exact congrArg _ (Int8.toInt_inj.mp h)
  | smallint i =>
    cases w <;> cases htype
    exact congrArg _ (Int16.toInt_inj.mp h)
  | integer i =>
    cases w <;> cases htype
    exact congrArg _ (Int32.toInt_inj.mp h)
  | bigint i =>
    cases w <;> cases htype
    exact congrArg _ (Int64.toInt_inj.mp h)
  | varchar data => exact absurd rfl hstring
  | _ => cases hexact

theorem checkComparable_same (hexact : isExact v.getTypeId = true) (htype : w.getTypeId = v.getTypeId) :
    v.checkComparable w = true := by
  unfold checkComparable
  rw [htype]
  cases v <;> first | rfl | cases hexact

/-- Values of one type, neither of them null, are ordered, and as equal only if they are the same. -/
theorem exactOrder_same (hexact : isExact v.getTypeId = true) (htype : w.getTypeId = v.getTypeId)
    (hv : v.isNull = false) (hw : w.isNull = false) (hvt : Terminated v) (hwt : Terminated w) :
    ∃ o, exactOrder v w = .ok o ∧ (o = .eq ↔ v = w) := by
  by_cases hstring : v.getTypeId = .varchar
  · cases v with
    | varchar data =>
      cases w with
      | varchar data' =>
        cases data with
        | none => cases hv
        | some l =>
          cases data' with
          | none => cases hw
          | some r =>
            obtain ⟨hlast, hlen⟩ := hvt
            obtain ⟨hlast', hlen'⟩ := hwt
            have hl : l.1 ≠ [] := by
              intro h
              rw [h] at hlast
              cases hlast
            have hr : r.1 ≠ [] := by
              intro h
              rw [h] at hlast'
              cases hlast'
            have hpos := List.length_pos_of_ne_nil hl
            have hpos' := List.length_pos_of_ne_nil hr
            refine ⟨List.compareLex compare l.1.dropLast r.1.dropLast, if_pos ⟨hpos, hlen, hpos', hlen'⟩, ?_⟩
            rw [show List.compareLex compare l.1.dropLast r.1.dropLast = .eq ↔ l.1.dropLast = r.1.dropLast from
              Std.LawfulEqOrd.compare_eq_iff_eq (α := List UInt8), varchar.injEq, Option.some.injEq, ← Subtype.coe_inj]
            constructor
            · intro hsame
              rw [List.getLast?_eq_getLast_of_ne_nil hl] at hlast
              rw [List.getLast?_eq_getLast_of_ne_nil hr] at hlast'
              rw [← List.dropLast_append_getLast hl, ← List.dropLast_append_getLast hr, hsame,
                Option.some.inj (hlast.trans hlast'.symm)]
            · intro hsame
              rw [hsame]
      | _ => cases htype
    | _ => cases hstring
  · have hstring' : w.getTypeId ≠ .varchar := by rwa [htype]
    refine ⟨_, exactOrder_number hexact (by rwa [htype]) hstring hstring' (checkComparable_same hexact htype), ?_⟩
    rw [Std.LawfulEqOrd.compare_eq_iff_eq]
    exact ⟨number_inj hexact hstring htype, fun h => congrArg number h⟩

/-- **Equality of the values of a column**: it is that of the values, and with a NULL there is none. -/
theorem compareEquals_same (hexact : isExact v.getTypeId = true) (htype : w.getTypeId = v.getTypeId)
    (hvt : Terminated v) (hwt : Terminated w) :
    ∃ c, v.compareEquals w = .ok c ∧ (c = .cmpTrue ↔ v.isNull = false ∧ v = w) := by
  have hexact' : isExact w.getTypeId = true := by rwa [htype]
  have hcheck := checkComparable_same hexact htype
  unfold compareEquals
  rw [compare_eq_ordering hexact hexact']
  unfold ordering
  rw [hcheck]
  by_cases hnull : (v.isNull || w.isNull) = true
  · refine ⟨.cmpNull, by simp [hnull, ComparisonType.answer, Except.map], nofun, ?_⟩
    rintro ⟨hv, rfl⟩
    simp [hv] at hnull
  · have hnulls : v.isNull = false ∧ w.isNull = false := by simpa using hnull
    obtain ⟨o, ho, heq⟩ := exactOrder_same hexact htype hnulls.1 hnulls.2 hvt hwt
    refine ⟨getCmpBool (o == .eq), by simp [hnulls, ho, ComparisonType.answer, ComparisonType.holds, Except.map], ?_⟩
    rw [← heq]
    cases o <;> simp [getCmpBool, hnulls]

end Columns

/-! ## Keys of a query -/

section Groups

variable {types : List TypeId} {a b c : AggregateKey}

/-- The keys that a query groups by: values of the given types. -/
structure GroupKey (types : List TypeId) (key : AggregateKey) : Prop where
  typed : key.map Value.getTypeId = types
  exact : ∀ type ∈ types, isExact type = true
  terminated : ∀ v ∈ key, Terminated v

/-- No value of the key is NULL. -/
def NoNull (key : AggregateKey) : Prop := ∀ v ∈ key, v.isNull = false

instance : DecidablePred NoNull := fun key => inferInstanceAs (Decidable (∀ v ∈ key, v.isNull = false))

/-- Two keys, column by column. -/
theorem GroupKey.uncons {type : TypeId} {v w : Value} (ha : GroupKey (type :: types) (v :: a))
    (hb : GroupKey (type :: types) (w :: b)) :
    (v.getTypeId = type ∧ w.getTypeId = type) ∧ isExact v.getTypeId = true ∧ Terminated v ∧ Terminated w ∧
      GroupKey types a ∧ GroupKey types b := by
  obtain ⟨hv, ha'⟩ := List.cons.inj ha.typed
  obtain ⟨hw, hb'⟩ := List.cons.inj hb.typed
  obtain ⟨hvt, hat⟩ := List.forall_mem_cons.mp ha.terminated
  obtain ⟨hwt, hbt⟩ := List.forall_mem_cons.mp hb.terminated
  obtain ⟨htype, hexact⟩ := List.forall_mem_cons.mp ha.exact
  rw [← hv] at htype
  exact ⟨⟨hv, hw⟩, htype, hvt, hwt, ⟨ha', hexact, hat⟩, ⟨hb', hexact, hbt⟩⟩

/-- **Keys are equal if they are the same and have no NULL.** -/
theorem equal_eq : ∀ {types : List TypeId} {a b : AggregateKey}, GroupKey types a → GroupKey types b →
    a.equal b = .ok (decide (a = b ∧ NoNull a))
  | [], [], [], _, _ => rfl
  | [], _ :: _, _, ha, _ => by cases ha.typed
  | [], _, _ :: _, _, hb => by cases hb.typed
  | _ :: _, [], _, ha, _ => by cases ha.typed
  | _ :: _, _, [], _, hb => by cases hb.typed
  | type :: types, v :: a, w :: b, ha, hb => by
    obtain ⟨⟨hv, hw⟩, hexact, hvt, hwt, ha', hb'⟩ := ha.uncons hb
    obtain ⟨cmp, hcmp, hiff⟩ := compareEquals_same hexact (hw.trans hv.symm) hvt hwt
    have hrest := equal_eq ha' hb'
    rw [AggregateKey.equal, hcmp, ok_bind, hrest]
    have hcons : (v :: a = w :: b ∧ NoNull (v :: a)) ↔ (v.isNull = false ∧ v = w) ∧ a = b ∧ NoNull a := by
      unfold NoNull
      rw [List.cons.injEq, List.forall_mem_cons]
      tauto
    by_cases htrue : cmp = .cmpTrue
    · rw [if_neg (not_not.mpr htrue)]
      refine congrArg Except.ok (decide_eq_decide.mpr ?_)
      rw [hcons, and_iff_right (hiff.mp htrue)]
    · rw [if_pos htrue]
      refine congrArg Except.ok (decide_eq_false ?_).symm
      rw [hcons]
      exact fun h => htrue (hiff.mpr h.1)

theorem hashValue_ok {v : Value} (hexact : isExact v.getTypeId = true) (hnull : v.isNull = false) :
    ∃ h, HashUtil.hashValue v = .ok h := by
  cases v with
  | varchar data =>
    cases data with
    | none => cases hnull
    | some data => exact ⟨_, rfl⟩
  | boolean i | tinyint i | smallint i | integer i | bigint i => exact ⟨_, rfl⟩
  | _ => cases hexact

/-- The hash of a key is always there: NULLs are left out. -/
theorem hash_ok (ha : GroupKey types a) : ∃ h, a.hash = .ok h := by
  have hloop : ∀ (key : AggregateKey) (currHash : UInt64), (∀ v ∈ key, isExact v.getTypeId = true) →
      ∃ h, key.foldlM AggregateKey.addHash currHash = .ok h := by
    intro key
    induction key with
    | nil => exact fun currHash _ => ⟨currHash, rfl⟩
    | cons v key ih =>
      intro currHash hexact
      have hstep : ∃ h, AggregateKey.addHash currHash v = .ok h := by
        unfold AggregateKey.addHash
        split_ifs with hnull
        · obtain ⟨h, hh⟩ := hashValue_ok (hexact v (List.mem_cons_self ..)) (by simpa using hnull)
          rw [hh]
          exact ⟨_, rfl⟩
        · exact ⟨_, rfl⟩
      obtain ⟨h, hh⟩ := hstep
      rw [List.foldlM_cons, hh]
      exact ih h fun x hx => hexact x (List.mem_cons_of_mem _ hx)
  refine hloop a 0 ?_
  intro v hv
  refine ha.exact _ ?_
  rw [← ha.typed]
  exact List.mem_map_of_mem hv

/-- `operator==` and `std::hash` on the keys of a query: an equivalence, and equal keys have equal hashes. -/
structure KeyLaws (keys : List AggregateKey) : Prop where
  refl : ∀ a ∈ keys, a.equal a = .ok true
  symm : ∀ a ∈ keys, ∀ b ∈ keys, a.equal b = .ok true → b.equal a = .ok true
  trans : ∀ a ∈ keys, ∀ b ∈ keys, ∀ c ∈ keys, a.equal b = .ok true → b.equal c = .ok true → a.equal c = .ok true
  hash : ∀ a ∈ keys, ∀ b ∈ keys, a.equal b = .ok true → ∃ h, a.hash = .ok h ∧ b.hash = .ok h

theorem keyLaws_iff {keys : List AggregateKey} (hkeys : ∀ key ∈ keys, GroupKey types key) :
    KeyLaws keys ↔ ∀ key ∈ keys, NoNull key := by
  have hequal : ∀ a ∈ keys, ∀ b ∈ keys, (a.equal b = .ok true ↔ a = b ∧ NoNull a) := by
    intro a ha b hb
    rw [equal_eq (hkeys a ha) (hkeys b hb), Except.ok.injEq, decide_eq_true_iff]
  constructor
  · intro h key hkey
    exact ((hequal key hkey key hkey).mp (h.refl key hkey)).2
  · intro h
    constructor
    · intro a ha
      exact (hequal a ha a ha).mpr ⟨rfl, h a ha⟩
    · intro a ha b hb hab
      obtain ⟨rfl, hnull⟩ := (hequal a ha b hb).mp hab
      exact hab
    · intro a ha b hb c hc hab hbc
      obtain ⟨rfl, -⟩ := (hequal a ha b hb).mp hab
      exact hbc
    · intro a ha b hb hab
      obtain ⟨rfl, -⟩ := (hequal a ha b hb).mp hab
      obtain ⟨hash, hhash⟩ := hash_ok (hkeys a ha)
      exact ⟨hash, hhash, hhash⟩

end Groups

/-! ## Runs -/

section Runs

variable {types : List TypeId} {aggTypes : List AggregationType} {ht : HashTable} {key : AggregateKey}

/-- The key has an entry that is found. -/
def Found (ht : HashTable) (key : AggregateKey) : Prop := key ∈ ht.map Prod.fst ∧ NoNull key

instance : Decidable (Found ht key) := inferInstanceAs (Decidable (_ ∧ _))

/-- What `find` finds: a key with a NULL, nothing. -/
theorem find_eq (hkey : GroupKey types key) : ∀ {ht : HashTable}, (∀ e ∈ ht, GroupKey types e.1) →
    ∃ found, ht.find key = .ok found ∧ (found = none ↔ ¬Found ht key)
  | [], _ => ⟨none, rfl, by simp [Found]⟩
  | (key', value) :: ht, hht => by
    have hkey' := hht (key', value) (List.mem_cons_self ..)
    obtain ⟨h, hh⟩ := hash_ok hkey
    obtain ⟨h', hh'⟩ := hash_ok hkey'
    obtain ⟨found, hfound, hnone⟩ := find_eq hkey fun e he => hht e (List.mem_cons_of_mem _ he)
    have hequal := equal_eq hkey hkey'
    rw [HashTable.find, hh, hh', ok_bind, ok_bind, hequal, hfound]
    by_cases hsame : key = key' ∧ NoNull key
    · obtain ⟨rfl, hnull⟩ := hsame
      rw [hh] at hh'
      cases hh'
      refine ⟨some value, by simp [hnull]; rfl, ?_⟩
      simp [Found, hnull]
    · refine ⟨found, ?_, ?_⟩
      · split_ifs <;> simp [hsame]
      · unfold Found at hnone ⊢
        rw [hnone, List.map_cons, List.mem_cons]
        refine not_congr (and_congr_left fun hnull => ?_)
        exact (or_iff_right fun h => hsame ⟨h, hnull⟩).symm

theorem count_eq (hkey : GroupKey types key) (hht : ∀ e ∈ ht, GroupKey types e.1) :
    ht.count key = .ok (if Found ht key then 1 else 0) := by
  obtain ⟨found, hfound, hnone⟩ := find_eq hkey hht
  unfold HashTable.count
  rw [hfound, ok_bind]
  cases found with
  | none => rw [if_neg (hnone.mp rfl)]; rfl
  | some value => rw [if_pos (not_not.mp (mt hnone.mpr nofun))]; rfl

theorem insert_eq (hkey : GroupKey types key) (hht : ∀ e ∈ ht, GroupKey types e.1) (value : AggregateValue) :
    ht.insert key value = .ok (if Found ht key then ht else (key, value) :: ht) := by
  obtain ⟨found, hfound, hnone⟩ := find_eq hkey hht
  unfold HashTable.insert
  rw [hfound, ok_bind]
  cases found with
  | none => rw [if_neg (hnone.mp rfl)]; rfl
  | some value => rw [if_pos (not_not.mp (mt hnone.mpr nofun))]; rfl

theorem index_eq (hkey : GroupKey types key) (hht : ∀ e ∈ ht, GroupKey types e.1) :
    ∃ value, ht.index key = .ok (if Found ht key then ht else (key, []) :: ht, value) := by
  obtain ⟨found, hfound, hnone⟩ := find_eq hkey hht
  unfold HashTable.index
  rw [hfound, ok_bind]
  cases found with
  | none => exact ⟨[], by rw [if_neg (hnone.mp rfl)]; rfl⟩
  | some value => exact ⟨value, by rw [if_pos (not_not.mp (mt hnone.mpr nofun))]; rfl⟩

/-- **The entries after one step.**  A key without NULLs has one; a key with a NULL is entered by `insert` and again by
`operator[]`, whatever the table holds. -/
theorem lookupOrInsert_eq (hkey : GroupKey types key) (hht : ∀ e ∈ ht, GroupKey types e.1) :
    HashTable.lookupOrInsert aggTypes ht key = .ok
      (if Found ht key then ht
      else if NoNull key then (key, generateInitialAggregateValue aggTypes) :: ht
      else (key, []) :: (key, generateInitialAggregateValue aggTypes) :: ht) := by
  unfold HashTable.lookupOrInsert
  rw [count_eq hkey hht, ok_bind]
  by_cases hfound : Found ht key
  · obtain ⟨value, hindex⟩ := index_eq hkey hht
    rw [if_pos hfound, if_pos hfound, if_neg one_ne_zero]
    simp only [pure_bind, hindex, ok_bind, if_pos hfound]
    rfl
  · have hht' : ∀ e ∈ (key, generateInitialAggregateValue aggTypes) :: ht, GroupKey types e.1 := by
      rintro e (_ | ⟨_, he⟩)
      · exact hkey
      · exact hht e he
    obtain ⟨value, hindex⟩ := index_eq hkey hht'
    have hfound' : Found ((key, generateInitialAggregateValue aggTypes) :: ht) key ↔ NoNull key := by
      simp [Found]
    simp only [hfound'] at hindex
    rw [if_neg hfound, if_neg hfound, if_pos rfl, insert_eq hkey hht, if_neg hfound, ok_bind]
    dsimp only
    rw [hindex]
    rfl

/-- The table has what the keys seen so far put in: one entry for a key without NULLs, two or more for any other. -/
structure Entered (seen : List AggregateKey) (ht : HashTable) : Prop where
  entries : ∀ e ∈ ht, e.1 ∈ seen
  once : ∀ key ∈ seen, NoNull key → (ht.map Prod.fst).count key = 1
  twice : ∀ key ∈ seen, ¬NoNull key → 2 ≤ (ht.map Prod.fst).count key

theorem Entered.step (aggTypes : List AggregationType) {seen : List AggregateKey} (h : Entered seen ht)
    (hseen : ∀ k ∈ seen, GroupKey types k) (hkey : GroupKey types key) :
    ∃ ht', HashTable.lookupOrInsert aggTypes ht key = .ok ht' ∧ Entered (key :: seen) ht' := by
  have hht : ∀ e ∈ ht, GroupKey types e.1 := fun e he => hseen e.1 (h.entries e he)
  refine ⟨_, lookupOrInsert_eq hkey hht, ?_⟩
  -- the keys of new entries are the one that was looked up
  have hnew : ∀ (new : HashTable), (∀ e ∈ new, e.1 = key) → (NoNull key → (new.map Prod.fst).count key = 1) →
      (¬NoNull key → 2 ≤ (new.map Prod.fst).count key) → (NoNull key → key ∉ seen) →
      Entered (key :: seen) (new ++ ht) := by
    intro new hnew honce htwice hfresh
    have hcount : ∀ k, ((new ++ ht).map Prod.fst).count k =
        (new.map Prod.fst).count k + (ht.map Prod.fst).count k := by
      intro k
      rw [List.map_append, List.count_append]
    have hothers : ∀ k, k ≠ key → (new.map Prod.fst).count k = 0 := by
      intro k hk
      rw [List.count_eq_zero]
      intro hmem
      obtain ⟨e, he, rfl⟩ := List.mem_map.mp hmem
      exact hk (hnew e he)
    constructor
    · intro e he
      rcases List.mem_append.mp he with he | he
      · rw [hnew e he]
        exact List.mem_cons_self ..
      · exact List.mem_cons_of_mem _ (h.entries e he)
    · intro k hk hnull
      rw [hcount]
      by_cases heq : k = key
      · subst heq
        have hzero : (ht.map Prod.fst).count k = 0 := by
          rw [List.count_eq_zero]
          intro hmem
          obtain ⟨e, he, hek⟩ := List.mem_map.mp hmem
          exact hfresh hnull (hek ▸ h.entries e he)
        rw [honce hnull, hzero]
      · rw [hothers k heq, h.once k ((List.mem_cons.mp hk).resolve_left heq) hnull]
    · intro k hk hnull
      rw [hcount]
      by_cases heq : k = key
      · subst heq
        exact le_trans (htwice hnull) (Nat.le_add_right _ _)
      · exact le_trans (h.twice k ((List.mem_cons.mp hk).resolve_left heq) hnull) (Nat.le_add_left _ _)
  split_ifs with hfound hnull
  · -- nothing is new
    obtain ⟨hmem, hnull⟩ := hfound
    obtain ⟨e, he, rfl⟩ := List.mem_map.mp hmem
    have hin := h.entries e he
    refine ⟨fun e' he' => List.mem_cons_of_mem _ (h.entries e' he'), ?_, ?_⟩
    · rintro k (_ | ⟨_, hk⟩)
      · exact h.once e.1 hin
      · exact h.once k hk
    · rintro k (_ | ⟨_, hk⟩)
      · exact h.twice e.1 hin
      · exact h.twice k hk
  · refine hnew [(key, _)] (by simp) (by simp) (fun hn => absurd hnull hn) ?_
    intro _ hin
    have hone := h.once key hin hnull
    exact hfound ⟨List.count_pos_iff.mp (by omega), hnull⟩
  · exact hnew [(key, _), (key, _)] (by simp) (fun hn => absurd hn hnull) (by simp) (fun hn => absurd hn hnull)

/-- A run of lookups. -/
theorem Entered.run (aggTypes : List AggregationType) : ∀ {keys seen : List AggregateKey} {ht : HashTable},
    Entered seen ht →
    (∀ k ∈ seen, GroupKey types k) → (∀ k ∈ keys, GroupKey types k) →
    ∃ ht', keys.foldlM (HashTable.lookupOrInsert aggTypes) ht = .ok ht' ∧ Entered (keys.reverse ++ seen) ht'
  | [], _, ht, h, _, _ => ⟨ht, rfl, h⟩
  | key :: keys, seen, ht, h, hseen, hkeys => by
    have hkey := hkeys key (List.mem_cons_self ..)
    obtain ⟨ht1, hstep, h1⟩ := h.step aggTypes hseen hkey
    have hseen' : ∀ k ∈ key :: seen, GroupKey types k := by
      rintro k (_ | ⟨_, hk⟩)
      · exact hkey
      · exact hseen k hk
    obtain ⟨ht2, hrun, h2⟩ := h1.run aggTypes hseen' fun k hk => hkeys k (List.mem_cons_of_mem _ hk)
    refine ⟨ht2, ?_, by simpa using h2⟩
    rw [List.foldlM_cons, hstep]
    exact hrun

/-- Two keys are of one group: their values are equal, a NULL to a NULL. -/
def sameGroup : AggregateKey → AggregateKey → Bool
  | [], [] => true
  | v :: a, w :: b => v.compareExactlyEquals w = .ok true && sameGroup a b
  | _, _ => false

theorem null_unique {v w : Value} (hexact : isExact v.getTypeId = true) (htype : w.getTypeId = v.getTypeId)
    (hv : v.isNull = true) (hw : w.isNull = true) : v = w := by
  have hlen : ∀ {p : Prop} [Decidable p], ((if p then valueNull else 0) == valueNull) = true → p := by
    intro p _ h
    by_contra hp
    rw [if_neg hp] at h
    cases h
  have hdata : ∀ {data : Option Varlen}, (Value.varlenLen data == valueNull) = true → data = none := by
    rintro (_ | data) h
    · rfl
    · exact absurd (beq_iff_eq.mp h) (varlenLen_ne_null data)
  cases v with
  | boolean i =>
    cases w <;> cases htype
    exact congrArg _ ((hlen hv).trans (hlen hw).symm)
  | tinyint i =>
    cases w <;> cases htype
    exact congrArg _ ((hlen hv).trans (hlen hw).symm)
  | smallint i =>
    cases w <;> cases htype
    exact congrArg _ ((hlen hv).trans (hlen hw).symm)
  | integer i =>
    cases w <;> cases htype
    exact congrArg _ ((hlen hv).trans (hlen hw).symm)
  | bigint i =>
    cases w <;> cases htype
    exact congrArg _ ((hlen hv).trans (hlen hw).symm)
  | varchar data =>
    cases w <;> cases htype
    exact congrArg _ ((hdata hv).trans (hdata hw).symm)
  | _ => cases hexact

/-- Values of a column are exactly equal if they are the same. -/
theorem compareExactlyEquals_iff {v w : Value} (hexact : isExact v.getTypeId = true)
    (htype : w.getTypeId = v.getTypeId) (hvt : Terminated v) (hwt : Terminated w) :
    v.compareExactlyEquals w = .ok true ↔ v = w := by
  obtain ⟨c, hc, hiff⟩ := compareEquals_same hexact htype hvt hwt
  unfold Value.compareExactlyEquals
  by_cases hnull : (v.isNull && w.isNull) = true
  · rw [if_pos hnull]
    rw [Bool.and_eq_true] at hnull
    exact iff_of_true rfl (null_unique hexact htype hnull.1 hnull.2)
  · rw [if_neg hnull, hc, ok_bind]
    show Except.ok (c == .cmpTrue) = .ok true ↔ _
    rw [Except.ok.injEq, beq_iff_eq, hiff]
    refine ⟨fun h => h.2, ?_⟩
    rintro rfl
    exact ⟨by simpa using hnull, rfl⟩

theorem sameGroup_iff : ∀ {types : List TypeId} {a b : AggregateKey}, GroupKey types a → GroupKey types b →
    (sameGroup a b = true ↔ a = b)
  | _, [], [], _, _ => by simp [sameGroup]
  | _, [], _ :: _, ha, hb => by
    rw [← ha.typed] at hb
    cases hb.typed
  | _, _ :: _, [], ha, hb => by
    rw [← hb.typed] at ha
    cases ha.typed
  | [], _ :: _, _ :: _, ha, _ => by cases ha.typed
  | type :: types, v :: a, w :: b, ha, hb => by
    obtain ⟨⟨hv, hw⟩, hexact, hvt, hwt, ha', hb'⟩ := ha.uncons hb
    rw [sameGroup, Bool.and_eq_true, decide_eq_true_iff, compareExactlyEquals_iff hexact (hw.trans hv.symm) hvt hwt,
      sameGroup_iff ha' hb', List.cons.injEq]

/-- **One entry for each group**: every entry is of a group of the keys, and every key has exactly one entry of its
group. -/
structure OneEntryEach (keys : List AggregateKey) (ht : HashTable) : Prop where
  entries : ∀ e ∈ ht, ∃ key ∈ keys, sameGroup e.1 key = true
  one : ∀ key ∈ keys, ht.countP (fun e => sameGroup e.1 key) = 1

/-- **Grouping.**  For every sequence of keys of the same types (the integer types, `BOOLEAN` and `VARCHAR`): equality
is an equivalence with equal hashes exactly if no key has a NULL; and the lookups all return, and leave one entry for
each group exactly if no key has a NULL. -/
theorem groups_iff (aggTypes : List AggregationType) {keys : List AggregateKey}
    (hkeys : ∀ key ∈ keys, GroupKey types key) :
    (KeyLaws keys ↔ ∀ key ∈ keys, NoNull key) ∧
    ∃ ht, keys.foldlM (HashTable.lookupOrInsert aggTypes) [] = .ok ht ∧
      (OneEntryEach keys ht ↔ ∀ key ∈ keys, NoNull key) := by
  refine ⟨keyLaws_iff hkeys, ?_⟩
  have hstart : Entered [] [] := ⟨by simp, by simp, by simp⟩
  obtain ⟨ht, hrun, hentered⟩ := hstart.run aggTypes (by simp) hkeys
  rw [List.append_nil] at hentered
  have hht : ∀ e ∈ ht, e.1 ∈ keys := fun e he => List.mem_reverse.mp (hentered.entries e he)
  have hcount : ∀ key ∈ keys, ht.countP (fun e => sameGroup e.1 key) = (ht.map Prod.fst).count key := by
    intro key hkey
    rw [List.count, List.countP_map]
    refine List.countP_congr ?_
    intro e he
    rw [sameGroup_iff (hkeys e.1 (hht e he)) (hkeys key hkey)]
    simp
  refine ⟨ht, hrun, ?_, ?_⟩
  · intro h key hkey
    by_contra hnull
    have htwice := hentered.twice key (List.mem_reverse.mpr hkey) hnull
    rw [← hcount key hkey, h.one key hkey] at htwice
    omega
  · intro hnull
    constructor
    · intro e he
      have hin := hht e he
      exact ⟨e.1, hin, (sameGroup_iff (hkeys e.1 hin) (hkeys e.1 hin)).mpr rfl⟩
    · intro key hkey
      rw [hcount key hkey]
      exact hentered.once key (List.mem_reverse.mpr hkey) (hnull key hkey)

/-- `(1, 'a')` twice and `(2, 'a')`. -/
def pairKeys : List AggregateKey :=
  [[.integer 1, stringValue (ascii "a")], [.integer 1, stringValue (ascii "a")], [.integer 2, stringValue (ascii "a")]]

theorem groups_iff_pairs :
    ∃ ht, pairKeys.foldlM (HashTable.lookupOrInsert [.countStarAggregate]) [] = .ok ht ∧ OneEntryEach pairKeys ht := by
  have hkey : ∀ i : Int32, GroupKey [.integer, .varchar] [.integer i, stringValue (ascii "a")] := by
    intro i
    refine ⟨rfl, by decide, ?_⟩
    rintro v (_ | ⟨_, _ | ⟨_, hv⟩⟩)
    · trivial
    · show _ ∧ _
      decide
    · cases hv
  have hkeys : ∀ key ∈ pairKeys, GroupKey [.integer, .varchar] key := by
    rintro key (_ | ⟨_, _ | ⟨_, _ | ⟨_, hk⟩⟩⟩)
    · exact hkey 1
    · exact hkey 1
    · exact hkey 2
    · cases hk
  obtain ⟨ht, hrun, hiff⟩ := (groups_iff [.countStarAggregate] hkeys).2
  exact ⟨ht, hrun, hiff.mpr (by decide +kernel)⟩

/-- The key NULL is not equal to itself, and one lookup of it leaves two entries. -/
theorem null_group_entered_twice : ¬ ∀ (types : List TypeId) (keys : List AggregateKey),
    (∀ key ∈ keys, GroupKey types key) → KeyLaws keys ∧
      ∃ ht, keys.foldlM (HashTable.lookupOrInsert [.countStarAggregate]) [] = .ok ht ∧ OneEntryEach keys ht := by
  intro hclaim
  obtain ⟨-, ht, hrun, hone⟩ := hclaim [.integer] [[.integer int32Null]] (by
    rintro key (_ | ⟨_, hk⟩)
    · refine ⟨rfl, by decide, ?_⟩
      rintro v (_ | ⟨_, hv⟩)
      · trivial
      · cases hv
    · cases hk)
  have htwo : [[.integer int32Null]].foldlM (HashTable.lookupOrInsert [.countStarAggregate]) [] =
      .ok [([.integer int32Null], []), ([.integer int32Null], [.integer 0])] := by decide +kernel
  rw [htwo] at hrun
  cases hrun
  exact absurd (hone.one _ (List.mem_cons_self ..)) (by decide +kernel)

end Runs

end Journey.Execution
