import Journey.Bustub.Storage.KeyOrder

/-!
# Journey.Bustub.Storage.IndexMap — an index over a standard container as a map

* `splitEntries_eq_ok`, `filterEntries_spec`: what a search in a container comes to.
* `compareKeys`: the comparator on the values of two keys; a column with a NULL counts as equal.
* `Index.Typed`: the keys were made from values, NULLs among them.  `insertEntry_typed`: an insertion keeps the
  order; `find_highest`: an entry with NULLs answers for keys without.
* `Index.Holds`: the index holds a map from values without NULLs to RIDs; `insertEntry_holds` and
  `scanKey_holds` say what the two containers do to it.
* `FoundIn`: when a key with NULLs is found in such a map.
-/

namespace Journey.Storage

open SqlType Catalog

/-! ## Searching a container -/

section Searching

variable {keySize : ℕ} {data front back : Entries keySize}

/-- `before` can be asked about every entry. -/
def Answers (before : GenericKey keySize → Except Fault Bool) (data : Entries keySize) : Prop :=
  ∀ e ∈ data, ∃ b, before e.1 = .ok b

variable {before : GenericKey keySize → Except Fault Bool}

theorem Answers.of_cons {e : GenericKey keySize × RID} (h : Answers before (e :: data)) :
    (∃ b, before e.1 = .ok b) ∧ Answers before data :=
  ⟨h e (List.mem_cons_self ..), fun e' he' => h e' (List.mem_cons_of_mem _ he')⟩

theorem anyEntry_spec : ∀ {data : Entries keySize}, Answers before data →
    ∃ b, anyEntry before data = .ok b ∧ (b = false ↔ ∀ e ∈ data, before e.1 = .ok false)
  | [], _ => ⟨false, rfl, by simp⟩
  | e :: data, h => by
    obtain ⟨⟨b, hb⟩, htail⟩ := h.of_cons
    obtain ⟨b', hb', hiff⟩ := anyEntry_spec htail
    rw [anyEntry, hb, ok_bind]
    cases b with
    | true => exact ⟨true, rfl, by simp [hb]⟩
    | false => exact ⟨b', hb', by simp [hb, hiff]⟩

/-- An entry before the bound belongs to the front, whatever comes behind it. -/
theorem splitEntries_cons_true {e : GenericKey keySize × RID} {data front back : Entries keySize}
    (he : before e.1 = .ok true) : splitEntries before (e :: data) = .ok (front, back) ↔
      ∃ front', front = e :: front' ∧ splitEntries before data = .ok (front', back) := by
  rw [splitEntries, he, ok_bind]
  constructor
  · intro hok
    obtain ⟨⟨front', back'⟩, hsplit, hret⟩ := bind_eq_ok.mp hok
    cases hret
    exact ⟨front', rfl, hsplit⟩
  · rintro ⟨front', rfl, hsplit⟩
    simp only [if_true, hsplit, ok_bind]
    rfl

/-- At an entry that is not before the bound the search ends, if nothing behind the entry is before the bound. -/
theorem splitEntries_cons_false {e : GenericKey keySize × RID} {data front back : Entries keySize}
    (he : before e.1 = .ok false) (h : Answers before data) : splitEntries before (e :: data) = .ok (front, back) ↔
      front = [] ∧ back = e :: data ∧ ∀ e' ∈ data, before e'.1 = .ok false := by
  obtain ⟨any, hany, hiff⟩ := anyEntry_spec h
  rw [splitEntries, he, ok_bind]
  simp only [Bool.false_eq_true, if_false, hany, ok_bind]
  constructor
  · intro hok
    cases any with
    | true => cases hok
    | false =>
      cases hok
      exact ⟨rfl, rfl, hiff.mp rfl⟩
  · rintro ⟨rfl, rfl, hback⟩
    rw [hiff.mpr hback]
    rfl

/-- **A search ends where it can end in any tree**: behind all entries before the bound, and they come first. -/
theorem splitEntries_eq_ok : ∀ {data front back : Entries keySize}, Answers before data →
    (splitEntries before data = .ok (front, back) ↔
      data = front ++ back ∧ (∀ e ∈ front, before e.1 = .ok true) ∧ ∀ e ∈ back, before e.1 = .ok false)
  | [], front, back, _ => by
    constructor
    · rintro h
      cases h
      simp
    · rintro ⟨h, -, -⟩
      obtain ⟨rfl, rfl⟩ := List.append_eq_nil_iff.mp h.symm
      rfl
  | e :: data, front, back, h => by
    obtain ⟨⟨b, hb⟩, htail⟩ := h.of_cons
    cases b with
    | true =>
      rw [splitEntries_cons_true hb]
      constructor
      · rintro ⟨front, rfl, hsplit⟩
        obtain ⟨hdata, hfront, hback⟩ := (splitEntries_eq_ok htail).mp hsplit
        exact ⟨congrArg (e :: ·) hdata, List.forall_mem_cons.mpr ⟨hb, hfront⟩, hback⟩
      · rintro ⟨hdata, hfront, hback⟩
        cases front with
        | nil =>
          obtain rfl : e :: data = back := hdata
          have hfalse := hback e (List.mem_cons_self ..)
          rw [hb] at hfalse
          cases hfalse
        | cons e' front =>
          obtain ⟨rfl, hrest⟩ := List.cons.inj hdata
          exact ⟨front, rfl, (splitEntries_eq_ok htail).mpr ⟨hrest, (List.forall_mem_cons.mp hfront).2, hback⟩⟩
    | false =>
      rw [splitEntries_cons_false hb htail]
      constructor
      · rintro ⟨rfl, rfl, hback⟩
        exact ⟨rfl, by simp, List.forall_mem_cons.mpr ⟨hb, hback⟩⟩
      · rintro ⟨hdata, hfront, hback⟩
        cases front with
        | nil =>
          obtain rfl : e :: data = back := hdata
          exact ⟨rfl, rfl, (List.forall_mem_cons.mp hback).2⟩
        | cons e' front =>
          obtain ⟨rfl, -⟩ := List.cons.inj hdata
          have htrue := hfront e (List.mem_cons_self ..)
          rw [hb] at htrue
          cases htrue

/-- Entries of which those before the bound come first can be split. -/
theorem exists_split_of_pairwise : ∀ {data : Entries keySize}, Answers before data →
    data.Pairwise (fun a b => before b.1 = .ok true → before a.1 = .ok true) →
    ∃ front back, splitEntries before data = .ok (front, back)
  | [], _, _ => ⟨[], [], rfl⟩
  | e :: data, h, hpair => by
    obtain ⟨⟨b, hb⟩, htail⟩ := h.of_cons
    obtain ⟨hhead, hpair⟩ := List.pairwise_cons.mp hpair
    cases b with
    | true =>
      obtain ⟨front, back, hsplit⟩ := exists_split_of_pairwise htail hpair
      refine ⟨e :: front, back, ?_⟩
      rw [splitEntries, hb, ok_bind, if_pos rfl, hsplit]
      rfl
    | false =>
      refine ⟨[], e :: data, (splitEntries_eq_ok h).mpr ⟨rfl, by simp, ?_⟩⟩
      intro e' he'
      rcases List.mem_cons.mp he' with rfl | he'
      · exact hb
      · obtain ⟨b', hb'⟩ := htail e' he'
        cases b' with
        | false => exact hb'
        | true =>
          have htrue := hhead e' he' hb'
          rw [hb] at htrue
          cases htrue

theorem filterEntries_spec {same : GenericKey keySize → Except Fault Bool} : ∀ {data : Entries keySize},
    Answers same data → ∃ found, filterEntries same data = .ok found ∧ found.Sublist data ∧
      ∀ e, e ∈ found ↔ e ∈ data ∧ same e.1 = .ok true
  | [], _ => ⟨[], rfl, .slnil, by simp⟩
  | e :: data, h => by
    obtain ⟨⟨b, hb⟩, htail⟩ := h.of_cons
    obtain ⟨rest, hrest, hsub, hmem⟩ := filterEntries_spec htail
    rw [filterEntries, hrest, ok_bind, hb, ok_bind]
    cases b with
    | true =>
      refine ⟨e :: rest, rfl, hsub.cons_cons e, ?_⟩
      intro e'
      rw [List.mem_cons, List.mem_cons, hmem]
      constructor
      · rintro (rfl | ⟨he', hs⟩)
        · exact ⟨.inl rfl, hb⟩
        · exact ⟨.inr he', hs⟩
      · rintro ⟨rfl | he', hs⟩
        · exact .inl rfl
        · exact .inr ⟨he', hs⟩
    | false =>
      refine ⟨rest, rfl, hsub.cons e, ?_⟩
      intro e'
      rw [List.mem_cons, hmem]
      constructor
      · rintro ⟨he', hs⟩
        exact ⟨.inr he', hs⟩
      · rintro ⟨rfl | he', hs⟩
        · rw [hb] at hs
          cases hs
        · exact ⟨he', hs⟩

end Searching

/-! ## The comparator on values -/

section Values

variable {keySize : ℕ} {keyCols : List Column} {values values' : List Value} {key key' : GenericKey keySize}

/-- **The comparator on the values of two keys.**  A column with a NULL counts as equal. -/
def compareKeys (values values' : List Value) : Ordering := lexGaps (ranks values) (ranks values')

theorem compareKeys_swap (values values' : List Value) :
    compareKeys values' values = (compareKeys values values').swap :=
  lexGaps_swap ..

theorem meet_of_integers : ∀ {values values' : List Value}, (∀ v ∈ values, isInteger v.getTypeId = true) →
    Meet values values'
  | [], _, _ => trivial
  | _ :: _, [], _ => trivial
  | v :: values, w :: values', h => by
    refine ⟨?_, fun _ => meet_of_integers fun v' hv' => h v' (List.mem_cons_of_mem _ hv')⟩
    have hint := h v (List.mem_cons_self ..)
    cases v <;> first | exact trivial | cases hint

theorem IntegerKey.integers (hk : IntegerKey keySize keyCols) (hwt : WellTyped keyCols values) :
    ∀ v ∈ values, isInteger v.getTypeId = true := by
  intro v hv
  have htype : v.getTypeId ∈ keyCols.map Column.type := hwt ▸ List.mem_map_of_mem hv
  obtain ⟨c, hc, heq⟩ := List.mem_map.mp htype
  rw [← heq]
  exact hk.integer c hc

theorem comparator_typed (hk : IntegerKey keySize keyCols) (hwt : WellTyped keyCols values)
    (hwt' : WellTyped keyCols values') (he : Encodes keyCols values key) (he' : Encodes keyCols values' key') :
    genericComparator (.create keyCols) key key' = .ok (signOf (compareKeys values values')) :=
  genericComparator_ranks (hk.fitsKey hwt) (hk.fitsKey hwt') he he' (meet_of_integers (hk.integers hwt))

theorem less_typed (hk : IntegerKey keySize keyCols) (hwt : WellTyped keyCols values)
    (hwt' : WellTyped keyCols values') (he : Encodes keyCols values key) (he' : Encodes keyCols values' key') :
    stlComparatorWrapper (.create keyCols) key key' = .ok (decide (compareKeys values values' = .lt)) := by
  unfold stlComparatorWrapper
  rw [comparator_typed hk hwt hwt' he he', ok_bind]
  cases compareKeys values values' <;> rfl

theorem less_iff (hk : IntegerKey keySize keyCols) (hwt : WellTyped keyCols values)
    (hwt' : WellTyped keyCols values') (he : Encodes keyCols values key) (he' : Encodes keyCols values' key') :
    (stlComparatorWrapper (.create keyCols) key key' = .ok true ↔ compareKeys values values' = .lt) ∧
      (stlComparatorWrapper (.create keyCols) key key' = .ok false ↔ compareKeys values values' ≠ .lt) := by
  simp [less_typed hk hwt hwt' he he']

theorem equal_typed (hk : IntegerKey keySize keyCols) (hwt : WellTyped keyCols values)
    (hwt' : WellTyped keyCols values') (he : Encodes keyCols values key) (he' : Encodes keyCols values' key') :
    stlEqualWrapper (.create keyCols) key key' = .ok (decide (compareKeys values values' = .eq)) := by
  unfold stlEqualWrapper
  rw [comparator_typed hk hwt hwt' he he', ok_bind]
  cases compareKeys values values' <;> rfl

/-- Without NULLs it is the order of the numbers. -/
theorem compareKeys_eq (hk : IntegerKey keySize keyCols) (hv : KeyValues keyCols values)
    (hv' : KeyValues keyCols values') : compareKeys values values' = compare (numbers values) (numbers values') := by
  obtain ⟨t, hof, key, hkey, -⟩ := hk.encodes hv.typed
  obtain ⟨t', hof', key', hkey', -⟩ := hk.encodes hv'.typed
  have hsame := genericComparator_eq hk hv hv' ⟨t, hof, hkey⟩ ⟨t', hof', hkey'⟩
  rw [comparator_typed hk hv.typed hv'.typed ⟨t, hof, hkey⟩ ⟨t', hof', hkey'⟩] at hsame
  cases h : compareKeys values values' <;> cases h' : compare (numbers values) (numbers values') <;>
    first | rfl | simp [h, h', signOf] at hsame

theorem compareKeys_eq_eq (hk : IntegerKey keySize keyCols) (hv : KeyValues keyCols values)
    (hv' : KeyValues keyCols values') : compareKeys values values' = .eq ↔ values = values' := by
  rw [compareKeys_eq hk hv hv']
  exact compare_numbers_eq hk hv.typed hv'.typed

theorem compareKeys_trans (hk : IntegerKey keySize keyCols) {values'' : List Value} (hv : KeyValues keyCols values)
    (hv' : KeyValues keyCols values') (hv'' : KeyValues keyCols values'') (h : compareKeys values values' = .lt)
    (h' : compareKeys values' values'' = .lt) : compareKeys values values'' = .lt := by
  rw [compareKeys_eq hk hv hv'] at h
  rw [compareKeys_eq hk hv' hv''] at h'
  rw [compareKeys_eq hk hv hv'']
  exact Std.TransCmp.lt_trans h h'

/-- The greatest integer of a type. -/
def maxOf : TypeId → Value
  | .tinyint => .tinyint 127
  | .smallint => .smallint 32767
  | .integer => .integer 2147483647
  | .bigint => .bigint 9223372036854775807
  | _ => .invalid

/-- The key with the greatest integers in place of its NULLs. -/
def highest (values : List Value) : List Value := values.map fun v => if v.isNull then maxOf v.getTypeId else v

theorem gapCompare_of_le {m n : Int} (h : m ≤ n) : gapCompare (some [m]) (some [n]) ≠ .gt := by
  show compare [m] [n] ≠ .gt
  rw [List.compare_cons_cons]
  rcases Int.lt_or_eq_of_le h with h | rfl
  · rw [compare_lt_iff_lt.mpr h]
    nofun
  · rw [compare_eq_iff_eq.mpr rfl]
    nofun

theorem rank_maxOf {v : Value} (hint : isInteger v.getTypeId = true) :
    (maxOf v.getTypeId).getTypeId = v.getTypeId ∧ (maxOf v.getTypeId).isNull = false ∧
      ∀ u : Value, u.getTypeId = v.getTypeId → gapCompare (rank u) (rank (maxOf v.getTypeId)) ≠ .gt := by
  refine ⟨?_, ?_, ?_⟩
  · cases v <;> first | rfl | cases hint
  · cases v <;> first | rfl | cases hint
  · intro u htype
    by_cases hnull : u.isNull = true
    · rw [rank_null hnull]
      nofun
    have hintU : isInteger u.getTypeId = true := by rw [htype]; exact hint
    have hrank : rank u = some [u.intValue] := by
      unfold rank
      rw [if_neg hnull]
      cases u <;> first | rfl | cases hintU
    rw [hrank, ← htype]
    cases u with
    | tinyint i =>
      have hlt := i.toInt_lt
      exact gapCompare_of_le (show i.toInt ≤ 127 by omega)
    | smallint i =>
      have hlt := i.toInt_lt
      exact gapCompare_of_le (show i.toInt ≤ 32767 by omega)
    | integer i =>
      have hlt := i.toInt_lt
      exact gapCompare_of_le (show i.toInt ≤ 2147483647 by omega)
    | bigint i =>
      have hlt := i.toInt_lt
      exact gapCompare_of_le (show i.toInt ≤ 9223372036854775807 by omega)
    | _ => cases hintU

theorem highest_keyValues (hk : IntegerKey keySize keyCols) (hwt : WellTyped keyCols values) :
    KeyValues keyCols (highest values) := by
  have hint := hk.integers hwt
  constructor
  · unfold WellTyped highest
    rw [List.map_map, ← hwt]
    refine List.map_congr_left ?_
    intro v hv
    show (if v.isNull then maxOf v.getTypeId else v).getTypeId = v.getTypeId
    split_ifs
    · exact (rank_maxOf (hint v hv)).1
    · rfl
  · intro w hw
    obtain ⟨v, hv, rfl⟩ := List.mem_map.mp hw
    split_ifs with hnull
    · exact (rank_maxOf (hint v hv)).2.1
    · simpa using hnull

/-- A key agrees with the highest one, and what is less than it is less than the highest one. -/
theorem compareKeys_highest : ∀ {us vs : List Value}, (∀ v ∈ vs, isInteger v.getTypeId = true) →
    us.map Value.getTypeId = vs.map Value.getTypeId →
    compareKeys (highest vs) vs = .eq ∧ (compareKeys us vs = .lt → compareKeys us (highest vs) = .lt)
  | [], [], _, _ => ⟨rfl, nofun⟩
  | u :: us, v :: vs, hint, htypes => by
    obtain ⟨htype, htypes⟩ := List.cons.inj htypes
    obtain ⟨hself, hless⟩ := compareKeys_highest (fun v' hv' => hint v' (List.mem_cons_of_mem _ hv')) htypes
    obtain ⟨-, -, hmax⟩ := rank_maxOf (hint v (List.mem_cons_self ..))
    show (gapCompare (rank (if v.isNull then maxOf v.getTypeId else v)) (rank v)).then (compareKeys (highest vs) vs) = .eq ∧
      ((gapCompare (rank u) (rank v)).then (compareKeys us vs) = .lt →
        (gapCompare (rank u) (rank (if v.isNull then maxOf v.getTypeId else v))).then (compareKeys us (highest vs)) = .lt)
    by_cases hnull : v.isNull = true
    · rw [if_pos hnull, rank_null hnull, hself]
      have hnone : ∀ x : Option (List Int), gapCompare x none = .eq := by
        intro x
        cases x <;> rfl
      rw [hnone, hnone]
      refine ⟨rfl, fun h => ?_⟩
      have hne := hmax u htype
      cases hord : gapCompare (rank u) (rank (maxOf v.getTypeId)) with
      | lt => rfl
      | eq => exact hless h
      | gt => exact absurd hord hne
    · rw [if_neg hnull, hself]
      have heq : gapCompare (rank v) (rank v) = .eq := by
        cases rank v with
        | none => rfl
        | some a =>
          show compare a a = .eq
          exact Std.ReflOrd.compare_self
      rw [heq]
      refine ⟨rfl, fun h => ?_⟩
      cases hord : gapCompare (rank u) (rank v) with
      | lt => rfl
      | eq =>
        rw [hord] at h
        exact hless h
      | gt =>
        rw [hord] at h
        cases h

end Values

/-! ## Keys made from values -/

section Typed

variable {keySize : ℕ} {keyCols : List Column} {values vs : List Value} {key : GenericKey keySize}
  {data front back : Entries keySize} {rid : RID}

/-- The keys were made from values of the columns' types. -/
def TypedEntries (keyCols : List Column) (data : Entries keySize) : Prop :=
  ∀ e ∈ data, ∃ vs, WellTyped keyCols vs ∧ Encodes keyCols vs e.1

/-- Each key is less than those behind it. -/
def SortedEntries (keySchema : Schema) (data : Entries keySize) : Prop :=
  data.Pairwise fun a b => stlComparatorWrapper keySchema a.1 b.1 = .ok true

theorem answers_lower (hk : IntegerKey keySize keyCols) (ht : TypedEntries keyCols data)
    (hwt : WellTyped keyCols values) (he : Encodes keyCols values key) :
    Answers (fun key' => stlComparatorWrapper (.create keyCols) key' key) data := by
  intro e hmem
  obtain ⟨vs, hvs, henc⟩ := ht e hmem
  exact ⟨_, less_typed hk hvs hwt henc he⟩

theorem lowerBound_eq_ok (hk : IntegerKey keySize keyCols) (ht : TypedEntries keyCols data)
    (hwt : WellTyped keyCols values) (he : Encodes keyCols values key) :
    lowerBound (.create keyCols) key data = .ok (front, back) ↔ data = front ++ back ∧
      (∀ e ∈ front, stlComparatorWrapper (.create keyCols) e.1 key = .ok true) ∧
      ∀ e ∈ back, stlComparatorWrapper (.create keyCols) e.1 key = .ok false :=
  splitEntries_eq_ok (answers_lower hk ht hwt he)

theorem not_ok_iff {x : Except Fault Bool} {b : Bool} : (do return !(← x)) = Except.ok b ↔ x = .ok !b := by
  cases x with
  | error e => simp
  | ok c => cases b <;> cases c <;> simp [pure, Except.pure]

theorem answers_upper (hk : IntegerKey keySize keyCols) (ht : TypedEntries keyCols data)
    (hwt : WellTyped keyCols values) (he : Encodes keyCols values key) :
    Answers (fun key' => do return !(← stlComparatorWrapper (.create keyCols) key key')) data := by
  intro e hmem
  obtain ⟨vs, hvs, henc⟩ := ht e hmem
  refine ⟨!decide (compareKeys values vs = .lt), not_ok_iff.mpr ?_⟩
  rw [Bool.not_not]
  exact less_typed hk hwt hvs he henc

theorem upperBound_eq_ok (hk : IntegerKey keySize keyCols) (ht : TypedEntries keyCols data)
    (hwt : WellTyped keyCols values) (he : Encodes keyCols values key) :
    upperBound (.create keyCols) key data = .ok (front, back) ↔ data = front ++ back ∧
      (∀ e ∈ front, stlComparatorWrapper (.create keyCols) key e.1 = .ok false) ∧
      ∀ e ∈ back, stlComparatorWrapper (.create keyCols) key e.1 = .ok true := by
  unfold upperBound
  rw [splitEntries_eq_ok (answers_upper hk ht hwt he)]
  simp only [not_ok_iff, Bool.not_true, Bool.not_false]

/-- What a search answers that ends before `back`. -/
def FoundAt (keySchema : Schema) (indexKey : GenericKey keySize) : Entries keySize → Option RID → Prop
  | [], o => o = none
  | e :: _, o => stlComparatorWrapper keySchema indexKey e.1 = .ok o.isNone ∧ ∀ rid, o = some rid → rid = e.2

/-- **A search of the `std::map`**: the entries that are less come first, and the next one is the answer. -/
theorem STLOrderedIndex.find_eq_ok {index : STLOrderedIndex keySize}
    (hschema : index.metadata.keySchema = .create keyCols)
    (hk : IntegerKey keySize keyCols) (ht : TypedEntries keyCols index.data) (hwt : WellTyped keyCols values)
    (he : Encodes keyCols values key) {o : Option RID} :
    index.find key = .ok o ↔ ∃ front back, lowerBound (.create keyCols) key index.data = .ok (front, back) ∧
      FoundAt (.create keyCols) key back o := by
  have hback : ∀ front back, lowerBound (.create keyCols) key index.data = .ok (front, back) →
      ∀ e ∈ back, ∃ b, stlComparatorWrapper (.create keyCols) key e.1 = .ok b := by
    intro front back hsplit e hmem
    obtain ⟨vs, hvs, henc⟩ := ht e (by
      rw [((lowerBound_eq_ok hk ht hwt he).mp hsplit).1]
      exact List.mem_append_right _ hmem)
    exact ⟨_, less_typed hk hwt hvs he henc⟩
  unfold STLOrderedIndex.find
  rw [hschema]
  rcases hsplit : lowerBound (.create keyCols) key index.data with e | ⟨front, back⟩
  · simp
  rw [ok_bind]
  have hanswers := hback front back hsplit
  simp only [Except.ok.injEq, Prod.mk.injEq]
  rcases back with - | ⟨⟨key', rid⟩, rest⟩
  · constructor
    · intro h
      cases h
      exact ⟨front, [], ⟨rfl, rfl⟩, rfl⟩
    · rintro ⟨front', back', ⟨rfl, rfl⟩, rfl⟩
      rfl
  · obtain ⟨b, hb⟩ := hanswers (key', rid) (List.mem_cons_self ..)
    dsimp only at hb ⊢
    rw [hb, ok_bind]
    constructor
    · intro h
      refine ⟨front, _, ⟨rfl, rfl⟩, ?_⟩
      cases b with
      | true =>
        cases h
        exact ⟨hb, nofun⟩
      | false =>
        cases h
        exact ⟨hb, fun rid' h => (Option.some.inj h).symm⟩
    · rintro ⟨front', back', ⟨rfl, rfl⟩, hfound, hrid⟩
      rw [hb] at hfound
      cases o with
      | none =>
        obtain rfl : b = true := Except.ok.inj hfound
        rfl
      | some rid' =>
        obtain rfl : b = false := Except.ok.inj hfound
        obtain rfl := hrid rid' rfl
        rfl

/-- The keys of the `std::unordered_map` that a key is equal to. -/
theorem same_typed (hashFn : GenericKey keySize → UInt64) (hk : IntegerKey keySize keyCols)
    {key' : GenericKey keySize} (hwt : WellTyped keyCols values) (hvs : WellTyped keyCols vs)
    (he : Encodes keyCols values key) (he' : Encodes keyCols vs key') :
    STLUnorderedIndex.same (.create keyCols) hashFn key key' =
      .ok (decide (hashFn key' = hashFn key ∧ compareKeys vs values = .eq)) := by
  unfold STLUnorderedIndex.same
  rw [equal_typed hk hvs hwt he' he]
  split_ifs with hhash
  · simp [hhash]
    rfl
  · simp [not_not.mp hhash]

theorem STLUnorderedIndex.matching_spec {index : STLUnorderedIndex keySize}
    (hschema : index.metadata.keySchema = .create keyCols) (hk : IntegerKey keySize keyCols)
    (ht : TypedEntries keyCols index.data) (hwt : WellTyped keyCols values) (he : Encodes keyCols values key) :
    ∃ found, index.matching key = .ok found ∧ found.Sublist index.data ∧
      ∀ e, e ∈ found ↔ e ∈ index.data ∧ STLUnorderedIndex.same (.create keyCols) index.hashFn key e.1 = .ok true := by
  unfold STLUnorderedIndex.matching
  rw [hschema]
  refine filterEntries_spec ?_
  intro e hmem
  obtain ⟨vs, hvs, henc⟩ := ht e hmem
  exact ⟨_, same_typed index.hashFn hk hwt hvs he henc⟩

end Typed

/-! ## Insertions, with NULLs or without -/

section Insertions

variable {keySize : ℕ} {keyCols : List Column} {values vs : List Value} {key : GenericKey keySize}
  {data front back front' back' : Entries keySize} {rid : RID} {t : Tuple}

/-- Where the key is not found, the two bounds are one, and the key keeps the order. -/
theorem sortedEntries_insert (hdata : data = front ++ back) (hdata' : data = front' ++ back')
    (hsorted : SortedEntries (.create keyCols) data)
    (hlower : ∀ e ∈ front, stlComparatorWrapper (.create keyCols) e.1 key = .ok true)
    (hnone : FoundAt (.create keyCols) key back none)
    (hupper : ∀ e ∈ front', stlComparatorWrapper (.create keyCols) key e.1 = .ok false)
    (hgreater : ∀ e ∈ back', stlComparatorWrapper (.create keyCols) key e.1 = .ok true) :
    SortedEntries (.create keyCols) (front' ++ (key, rid) :: back') := by
  have hfront : ∀ e ∈ front', e ∈ front := by
    intro e he
    rcases List.append_eq_append_iff.mp (hdata.symm.trans hdata') with ⟨mid, rfl, rfl⟩ | ⟨mid, rfl, -⟩
    · cases mid with
      | nil => simpa using he
      | cons e' mid =>
        -- the first entry of the back is greater than the key, so it is not before the upper bound
        have hless := hupper e' (by simp)
        rw [hnone.1] at hless
        cases hless
    · exact List.mem_append_left _ he
  unfold SortedEntries at hsorted ⊢
  rw [hdata', List.pairwise_append] at hsorted
  obtain ⟨hleft, hright, hcross⟩ := hsorted
  refine List.pairwise_append.mpr ⟨hleft, List.pairwise_cons.mpr ⟨hgreater, hright⟩, ?_⟩
  intro a ha b hb
  rcases List.mem_cons.mp hb with rfl | hb
  · exact hlower a (hfront a ha)
  · exact hcross a ha b hb

namespace Index

/-- What the container of the index holds. -/
def entries : Index keySize → Entries keySize
  | stlOrdered index => index.data
  | stlUnordered index => index.data
  | bPlusTree _ => []

/-- The index compares with the columns `keyCols`, and its keys were made from values of their types; those of a
`std::map` are sorted. -/
def Typed (keyCols : List Column) : Index keySize → Prop
  | stlOrdered index => index.metadata.keySchema = .create keyCols ∧ TypedEntries keyCols index.data ∧
      SortedEntries (.create keyCols) index.data
  | stlUnordered index => index.metadata.keySchema = .create keyCols ∧ TypedEntries keyCols index.data
  | bPlusTree _ => False

variable {index index' : Index keySize} {done : Bool}

/-- **What `InsertEntry` does, with NULLs or without**: nothing, or it puts the entry where it belongs. -/
theorem insertEntry_typed (hk : IntegerKey keySize keyCols) (ht : index.Typed keyCols)
    (hwt : WellTyped keyCols values) (hof : Tuple.ofValues values (.create keyCols) = .ok t)
    (hins : index.insertEntry t rid = .ok (done, index')) :
    index'.Typed keyCols ∧ (∀ e ∈ index.entries, e ∈ index'.entries) ∧
      (done = true → ∃ key, Encodes keyCols values key ∧ (key, rid) ∈ index'.entries) := by
  obtain ⟨t', hof', key, hkey, -⟩ := hk.encodes hwt
  rw [hof] at hof'
  cases hof'
  have he : Encodes keyCols values key := ⟨t, hof, hkey⟩
  have htyped : ∀ {data data' : Entries keySize}, TypedEntries keyCols data → (∀ e ∈ data', e = (key, rid) ∨ e ∈ data) →
      TypedEntries keyCols data' := by
    intro data data' hdata hmem e hin
    rcases hmem e hin with rfl | hin
    · exact ⟨values, hwt, he⟩
    · exact hdata e hin
  cases index with
  | stlOrdered ix =>
    obtain ⟨hschema, hte, hsorted⟩ := ht
    simp only [insertEntry, STLOrderedIndex.insertEntry, hkey, ok_bind, hschema] at hins
    obtain ⟨o, hfind, hins⟩ := bind_eq_ok.mp (by simpa only [bind_assoc] using hins)
    cases o with
    | some rid' =>
      cases hins
      exact ⟨⟨hschema, hte, hsorted⟩, fun _ h => h, fun hdone => by cases hdone⟩
    | none =>
      simp only [Option.isSome_none, Bool.false_eq_true, if_false] at hins
      obtain ⟨⟨front', back'⟩, hupper, hret⟩ := bind_eq_ok.mp (by simpa only [bind_assoc] using hins)
      cases hret
      obtain ⟨front, back, hlower, hnone⟩ := (STLOrderedIndex.find_eq_ok hschema hk hte hwt he).mp hfind
      obtain ⟨hdata, hless, -⟩ := (lowerBound_eq_ok hk hte hwt he).mp hlower
      obtain ⟨hdata', hupper, hgreater⟩ := (upperBound_eq_ok hk hte hwt he).mp hupper
      refine ⟨⟨hschema, htyped hte ?_, ?_⟩, ?_, fun _ => ⟨key, he, ?_⟩⟩
      · intro e hin
        rw [hdata']
        simp only [List.mem_append, List.mem_cons] at hin ⊢
        tauto
      · exact sortedEntries_insert hdata hdata' hsorted hless hnone hupper hgreater
      · intro e hin
        rw [entries, hdata'] at hin
        simp only [entries, List.mem_append, List.mem_cons] at hin ⊢
        tauto
      · simp [entries]
  | stlUnordered ix =>
    obtain ⟨hschema, hte⟩ := ht
    obtain ⟨found, hfound, -, -⟩ := STLUnorderedIndex.matching_spec hschema hk hte hwt he
    simp only [insertEntry, STLUnorderedIndex.insertEntry, hkey, ok_bind, hfound] at hins
    cases found with
    | nil =>
      cases hins
      refine ⟨⟨hschema, htyped hte ?_⟩, fun e hin => List.mem_cons_of_mem _ hin, fun _ => ⟨key, he, ?_⟩⟩
      · intro e hin
        exact List.mem_cons.mp hin
      · exact List.mem_cons_self ..
    | cons e found =>
      cases hins
      exact ⟨⟨hschema, hte⟩, fun _ h => h, fun hdone => by cases hdone⟩
  | bPlusTree _ => exact ht.elim

end Index

/-- **In a `std::map`, an entry is found by the highest key that agrees with it.** -/
theorem STLOrderedIndex.find_highest {index : STLOrderedIndex keySize}
    (hschema : index.metadata.keySchema = .create keyCols)
    (hk : IntegerKey keySize keyCols) (ht : TypedEntries keyCols index.data)
    (hsorted : SortedEntries (.create keyCols) index.data) (hvs : WellTyped keyCols vs)
    {stored : GenericKey keySize} (henc : Encodes keyCols vs stored) (hmem : (stored, rid) ∈ index.data)
    (he : Encodes keyCols (highest vs) key) {o : Option RID} (hfind : index.find key = .ok o) : o = some rid := by
  have hwt := (highest_keyValues hk hvs).typed
  obtain ⟨hagrees, -⟩ := @compareKeys_highest vs vs (hk.integers hvs) rfl
  obtain ⟨front, back, hlower, hfound⟩ := (find_eq_ok hschema hk ht hwt he).mp hfind
  obtain ⟨hdata, hless, hnotLess⟩ := (lowerBound_eq_ok hk ht hwt he).mp hlower
  have hagrees' : compareKeys vs (highest vs) = .eq := by
    rw [compareKeys_swap, hagrees]
    rfl
  have hback : (stored, rid) ∈ back := by
    rw [hdata] at hmem
    rcases List.mem_append.mp hmem with hin | hin
    · have hlt := (less_iff hk hvs hwt henc he).1.mp (hless _ hin)
      rw [hagrees'] at hlt
      cases hlt
    · exact hin
  rcases back with - | ⟨e, rest⟩
  · cases hback
  obtain ⟨hanswer, hrid⟩ := hfound
  -- an entry before it would be less than it, and so than the highest key
  have hhead : e = (stored, rid) := by
    rcases List.mem_cons.mp hback with heq | hin
    · exact heq.symm
    · obtain ⟨us, hus, hencE⟩ := ht e (by rw [hdata]; simp)
      have hpair := (List.pairwise_cons.mp (List.pairwise_append.mp (hdata ▸ hsorted)).2.1).1 _ hin
      have hlt := (less_iff hk hus hvs hencE henc).1.mp hpair
      have htypes : us.map Value.getTypeId = vs.map Value.getTypeId := by
        rw [show us.map Value.getTypeId = _ from hus, show vs.map Value.getTypeId = _ from hvs]
      have hlt' := (compareKeys_highest (hk.integers hvs) htypes).2 hlt
      exact absurd hlt' ((less_iff hk hus hwt hencE he).2.mp (hnotLess e (List.mem_cons_self ..)))
  subst hhead
  have hfalse := (less_iff hk hwt hvs he henc).2.mpr (by rw [hagrees]; nofun)
  rw [hfalse] at hanswer
  cases o with
  | none => cases hanswer
  | some rid' => rw [hrid rid' rfl]

end Insertions

/-! ## An index as a map -/

section Maps

variable {keySize : ℕ} {keyCols : List Column} {values : List Value} {key : GenericKey keySize}
  {data : Entries keySize} {m : List Value → Option RID} {rid : RID}

/-- The container holds the map `m` from values to RIDs. -/
structure Represents (keyCols : List Column) (data : Entries keySize) (m : List Value → Option RID) : Prop where
  keys : ∀ values rid, m values = some rid → KeyValues keyCols values
  entries : ∀ key rid, (key, rid) ∈ data ↔ ∃ values, Encodes keyCols values key ∧ m values = some rid
  nodup : data.Nodup

theorem represents_nil (keyCols : List Column) : Represents keyCols ([] : Entries keySize) fun _ => none :=
  ⟨fun _ _ h => by simp at h, fun _ _ => by simp, .nil⟩

theorem Represents.typed (hr : Represents keyCols data m) : TypedEntries keyCols data := by
  intro e he
  obtain ⟨vs, henc, hm⟩ := (hr.entries e.1 e.2).mp he
  exact ⟨vs, (hr.keys vs e.2 hm).typed, henc⟩

theorem Encodes.values_eq (hk : IntegerKey keySize keyCols) (hv : KeyValues keyCols values) {values' : List Value}
    (hv' : KeyValues keyCols values') (he : Encodes keyCols values key) (he' : Encodes keyCols values' key) :
    values = values' := by
  have hself : compareKeys values values = .eq := lexGaps_self _
  refine (compareKeys_eq_eq hk hv hv').mp ?_
  have hsame := comparator_typed hk hv.typed hv.typed he he
  rw [comparator_typed hk hv.typed hv'.typed he he', hself] at hsame
  cases h : compareKeys values values' <;> first | rfl | simp [h, signOf] at hsame

/-- An entry more, wherever it is put. -/
theorem Represents.insert (hk : IntegerKey keySize keyCols) (hr : Represents keyCols data m)
    (hv : KeyValues keyCols values)
    (he : Encodes keyCols values key) (hnone : m values = none) {data' : Entries keySize}
    (hdata : data'.Perm ((key, rid) :: data)) :
    Represents keyCols data' (Function.update m values (some rid)) := by
  have hnew : (key, rid) ∉ data := by
    intro hin
    obtain ⟨values', he', hm⟩ := (hr.entries key rid).mp hin
    rw [← he.values_eq hk hv (hr.keys values' rid hm) he', hnone] at hm
    cases hm
  constructor
  · intro values' rid' h
    by_cases heq : values' = values
    · rw [heq]
      exact hv
    · rw [Function.update_of_ne heq] at h
      exact hr.keys values' rid' h
  · intro key' rid'
    rw [hdata.mem_iff, List.mem_cons, hr.entries]
    constructor
    · rintro (hnew | ⟨values', he', hm⟩)
      · cases hnew
        exact ⟨values, he, Function.update_self ..⟩
      · have hne : values' ≠ values := by
          rintro rfl
          rw [hnone] at hm
          cases hm
        exact ⟨values', he', by rw [Function.update_of_ne hne, hm]⟩
    · rintro ⟨values', he', hm⟩
      by_cases heq : values' = values
      · subst heq
        rw [Function.update_self] at hm
        cases hm
        exact .inl (by rw [he'.unique he])
      · rw [Function.update_of_ne heq] at hm
        exact .inr ⟨values', he', hm⟩
  · exact hdata.nodup_iff.mpr (List.nodup_cons.mpr ⟨hnew, hr.nodup⟩)

/-- The entries with other keys. -/
theorem Represents.remove (hr : Represents keyCols data m) (hk : IntegerKey keySize keyCols)
    (hv : KeyValues keyCols values) (he : Encodes keyCols values key) {data' : Entries keySize} (hnodup : data'.Nodup)
    (hdata : ∀ e, e ∈ data' ↔ e ∈ data ∧ e.1 ≠ key) : Represents keyCols data' (Function.update m values none) := by
  refine ⟨?_, ?_, hnodup⟩
  · intro values' rid hm
    by_cases heq : values' = values
    · rw [heq, Function.update_self] at hm
      cases hm
    · rw [Function.update_of_ne heq] at hm
      exact hr.keys values' rid hm
  · intro key' rid
    rw [hdata, hr.entries]
    constructor
    · rintro ⟨⟨values', henc, hm⟩, hne⟩
      have hother : values' ≠ values := by
        rintro rfl
        exact hne (henc.unique he)
      exact ⟨values', henc, by rw [Function.update_of_ne hother, hm]⟩
    · rintro ⟨values', henc, hm⟩
      have hother : values' ≠ values := by
        rintro rfl
        rw [Function.update_self] at hm
        cases hm
      rw [Function.update_of_ne hother] at hm
      refine ⟨⟨values', henc, hm⟩, ?_⟩
      rintro rfl
      exact hother (henc.values_eq hk (hr.keys values' rid hm) hv he)

/-- The entry of a key of the map. -/
theorem Represents.entry (hr : Represents keyCols data m) (hk : IntegerKey keySize keyCols) (hm : m values = some rid) :
    ∃ key, Encodes keyCols values key ∧ (key, rid) ∈ data := by
  obtain ⟨t, hof, key, hkey, -⟩ := hk.encodes (hr.keys values rid hm).typed
  exact ⟨key, ⟨t, hof, hkey⟩, (hr.entries key rid).mpr ⟨values, ⟨t, hof, hkey⟩, hm⟩⟩

/-- Sorted entries can be searched for a key if the entries that are less come first. -/
theorem Represents.lowerBound_ok (hr : Represents keyCols data m) (hk : IntegerKey keySize keyCols)
    (hsorted : SortedEntries (.create keyCols) data) (hwt : WellTyped keyCols values)
    (he : Encodes keyCols values key)
    (hfirst : ∀ a b, KeyValues keyCols a → KeyValues keyCols b → m a ≠ none → m b ≠ none → compareKeys a b = .lt →
      compareKeys b values = .lt → compareKeys a values = .lt) :
    ∃ front back, lowerBound (.create keyCols) key data = .ok (front, back) := by
  refine exists_split_of_pairwise (answers_lower hk hr.typed hwt he) (List.Pairwise.imp_of_mem ?_ hsorted)
  intro a b ha hb hab hless
  obtain ⟨va, hva, hma⟩ := (hr.entries a.1 a.2).mp ha
  obtain ⟨vb, hvb, hmb⟩ := (hr.entries b.1 b.2).mp hb
  have hka := hr.keys va a.2 hma
  have hkb := hr.keys vb b.2 hmb
  refine (less_iff hk hka.typed hwt hva he).1.mpr (hfirst va vb hka hkb (by simp [hma]) (by simp [hmb]) ?_ ?_)
  · exact (less_iff hk hka.typed hkb.typed hva hvb).1.mp hab
  · exact (less_iff hk hkb.typed hwt hvb he).1.mp hless

/-- **Which RID is found in a map without NULLs**: that of a key that agrees, if the keys of the map that are less are
those that are less than it. -/
def FoundIn (m : List Value → Option RID) (values : List Value) (rid : RID) : Prop :=
  ∃ r, m r = some rid ∧ compareKeys r values = .eq ∧
    ∀ s, m s ≠ none → (compareKeys s values = .lt ↔ compareKeys s r = .lt)

/-- The bound of a key that agrees is its entry. -/
theorem head_of_agrees (hr : Represents keyCols data m) (hk : IntegerKey keySize keyCols)
    (hsorted : SortedEntries (.create keyCols) data) {r : List Value} {kr : GenericKey keySize}
    (hkr : KeyValues keyCols r) (hencR : Encodes keyCols r kr) {front rest : Entries keySize}
    {e : GenericKey keySize × RID}
    (hdata : data = front ++ e :: rest) (hmem : (kr, rid) ∈ e :: rest)
    (hnotLess : ∀ s, m s = some e.2 → Encodes keyCols s e.1 → compareKeys s r ≠ .lt) : e = (kr, rid) := by
  rcases List.mem_cons.mp hmem with heq | hin
  · exact heq.symm
  · obtain ⟨s, hencS, hms⟩ := (hr.entries e.1 e.2).mp (by rw [hdata]; simp)
    have hpair := (List.pairwise_cons.mp (List.pairwise_append.mp (hdata ▸ hsorted)).2.1).1 _ hin
    exact absurd ((less_iff hk (hr.keys s e.2 hms).typed hkr.typed hencS hencR).1.mp hpair) (hnotLess s hms hencS)

namespace STLOrderedIndex

variable {index : STLOrderedIndex keySize}

theorem foundIn_of_find (hschema : index.metadata.keySchema = .create keyCols) (hk : IntegerKey keySize keyCols)
    (hr : Represents keyCols index.data m) (hsorted : SortedEntries (.create keyCols) index.data)
    (hwt : WellTyped keyCols values) (he : Encodes keyCols values key) (hfind : index.find key = .ok (some rid)) :
    FoundIn m values rid := by
  obtain ⟨front, back, hlower, hfound⟩ := (find_eq_ok hschema hk hr.typed hwt he).mp hfind
  obtain ⟨hdata, hless, hnotLess⟩ := (lowerBound_eq_ok hk hr.typed hwt he).mp hlower
  rcases back with - | ⟨e, rest⟩
  · cases hfound
  obtain rfl := hfound.2 rid rfl
  have hsorted' := List.pairwise_append.mp (hdata ▸ hsorted)
  obtain ⟨r, hencR, hmr⟩ := (hr.entries e.1 e.2).mp (by rw [hdata]; simp)
  have hkr := hr.keys r e.2 hmr
  have hge := (less_iff hk hkr.typed hwt hencR he).2.mp (hnotLess e (List.mem_cons_self ..))
  have hle := (less_iff hk hwt hkr.typed he hencR).2.mp hfound.1
  refine ⟨r, hmr, ?_, ?_⟩
  · rw [compareKeys_swap r values] at hle
    cases h : compareKeys r values with
    | lt => exact absurd h hge
    | eq => rfl
    | gt => exact absurd (by rw [h]; rfl) hle
  · intro s hms
    obtain ⟨rid', hms⟩ := Option.ne_none_iff_exists'.mp hms
    have hks := hr.keys s rid' hms
    obtain ⟨ks, hencS, hmem⟩ := hr.entry hk hms
    rw [hdata] at hmem
    rcases List.mem_append.mp hmem with hin | hin
    · -- before the bound
      refine iff_of_true ?_ ?_
      · exact (less_iff hk hks.typed hwt hencS he).1.mp (hless _ hin)
      · exact (less_iff hk hks.typed hkr.typed hencS hencR).1.mp (hsorted'.2.2 _ hin e (List.mem_cons_self ..))
    · refine iff_of_false ((less_iff hk hks.typed hwt hencS he).2.mp (hnotLess _ hin)) ?_
      rcases List.mem_cons.mp hin with heq | hin
      · have hencS' : Encodes keyCols s e.1 := (congrArg Prod.fst heq : ks = e.1) ▸ hencS
        rw [hencS'.values_eq hk hks hkr hencR, show compareKeys r r = .eq from lexGaps_self _]
        nofun
      · have hgt := (less_iff hk hkr.typed hks.typed hencR hencS).1.mp ((List.pairwise_cons.mp hsorted'.2.1).1 _ hin)
        rw [compareKeys_swap, hgt]
        nofun

theorem find_of_foundIn (hschema : index.metadata.keySchema = .create keyCols) (hk : IntegerKey keySize keyCols)
    (hr : Represents keyCols index.data m) (hsorted : SortedEntries (.create keyCols) index.data)
    (hwt : WellTyped keyCols values) (he : Encodes keyCols values key) (hfound : FoundIn m values rid) :
    index.find key = .ok (some rid) := by
  obtain ⟨r, hmr, hagrees, hless⟩ := hfound
  have hkr := hr.keys r rid hmr
  obtain ⟨front, back, hlower⟩ := hr.lowerBound_ok hk hsorted hwt he (by
    intro a b hka hkb ha hb hab hbv
    exact (hless a ha).mpr (compareKeys_trans hk hka hkb hkr hab ((hless b hb).mp hbv)))
  obtain ⟨hdata, hfront, hback⟩ := (lowerBound_eq_ok hk hr.typed hwt he).mp hlower
  obtain ⟨kr, hencR, hmem⟩ := hr.entry hk hmr
  have hin : (kr, rid) ∈ back := by
    rw [hdata] at hmem
    rcases List.mem_append.mp hmem with hin | hin
    · have hlt := (less_iff hk hkr.typed hwt hencR he).1.mp (hfront _ hin)
      rw [hagrees] at hlt
      cases hlt
    · exact hin
  rcases back with - | ⟨e, rest⟩
  · cases hin
  -- nothing at the bound is less than the key that agrees
  obtain rfl := head_of_agrees hr hk hsorted hkr hencR hdata hin (by
    intro s hms hencS hlt
    exact (less_iff hk (hr.keys s e.2 hms).typed hwt hencS he).2.mp (hback e (List.mem_cons_self ..))
      ((hless s (by simp [hms])).mpr hlt))
  refine (find_eq_ok hschema hk hr.typed hwt he).mpr ⟨front, _, hlower, ?_, ?_⟩
  · refine (less_iff hk hwt hkr.typed he hencR).2.mpr ?_
    rw [compareKeys_swap, hagrees]
    nofun
  · rintro rid' h
    exact (Option.some.inj h).symm

/-- A key without NULLs is looked up in the map. -/
theorem find_holds (hschema : index.metadata.keySchema = .create keyCols) (hk : IntegerKey keySize keyCols)
    (hr : Represents keyCols index.data m) (hsorted : SortedEntries (.create keyCols) index.data)
    (hv : KeyValues keyCols values) (he : Encodes keyCols values key) : index.find key = .ok (m values) := by
  cases hm : m values with
  | some rid =>
    refine find_of_foundIn hschema hk hr hsorted hv.typed he ⟨values, hm, lexGaps_self _, ?_⟩
    intro s _
    rfl
  | none =>
    obtain ⟨front, back, hlower⟩ := hr.lowerBound_ok hk hsorted hv.typed he (by
      intro a b hka hkb _ _ hab hbv
      exact compareKeys_trans hk hka hkb hv hab hbv)
    obtain ⟨hdata, -, -⟩ := (lowerBound_eq_ok hk hr.typed hv.typed he).mp hlower
    have hanswer : ∃ o, FoundAt (.create keyCols) key back o := by
      rcases back with - | ⟨e, rest⟩
      · exact ⟨none, rfl⟩
      · obtain ⟨vs, hvs, henc⟩ := hr.typed e (by rw [hdata]; simp)
        cases hlt : decide (compareKeys values vs = .lt) with
        | true => exact ⟨none, by rw [less_typed hk hv.typed hvs he henc, hlt]; rfl, nofun⟩
        | false =>
          refine ⟨some e.2, by rw [less_typed hk hv.typed hvs he henc, hlt]; rfl, ?_⟩
          intro rid h
          exact (Option.some.inj h).symm
    obtain ⟨o, ho⟩ := hanswer
    have hfind := (find_eq_ok hschema hk hr.typed hv.typed he).mpr ⟨front, back, hlower, ho⟩
    cases o with
    | none => exact hfind
    | some rid =>
      obtain ⟨r, hmr, hagrees, -⟩ := foundIn_of_find hschema hk hr hsorted hv.typed he hfind
      rw [(compareKeys_eq_eq hk (hr.keys r rid hmr) hv).mp hagrees, hm] at hmr
      cases hmr

end STLOrderedIndex

theorem eq_singleton_of_nodup {α : Type} {l : List α} {a : α} (hnodup : l.Nodup) (h : ∀ x, x ∈ l ↔ x = a) :
    l = [a] := by
  rcases l with - | ⟨x, - | ⟨y, l⟩⟩
  · exact absurd ((h a).mpr rfl) (by simp)
  · rw [(h x).mp (List.mem_cons_self ..)]
  · have hx := (h x).mp (by simp)
    have hy := (h y).mp (by simp)
    simp [hx, hy] at hnodup

/-- What a map has for a key, as an entry. -/
def entryOf (m : List Value → Option RID) (values : List Value) (key : GenericKey keySize) : Entries keySize :=
  ((m values).map fun rid => (key, rid)).toList

theorem eq_entryOf {found : Entries keySize} (hnodup : found.Nodup)
    (h : ∀ e, e ∈ found ↔ e.1 = key ∧ m values = some e.2) : found = entryOf m values key := by
  unfold entryOf
  cases hm : m values with
  | none =>
    refine List.eq_nil_iff_forall_not_mem.mpr ?_
    intro e hin
    have hsome := ((h e).mp hin).2
    rw [hm] at hsome
    cases hsome
  | some rid =>
    refine eq_singleton_of_nodup hnodup ?_
    intro e
    rw [h, hm]
    constructor
    · rintro ⟨rfl, hrid⟩
      rw [Option.some.inj hrid]
    · rintro rfl
      exact ⟨rfl, rfl⟩

/-- A key without NULLs is looked up in the map. -/
theorem STLUnorderedIndex.matching_holds {index : STLUnorderedIndex keySize}
    (hschema : index.metadata.keySchema = .create keyCols) (hk : IntegerKey keySize keyCols)
    (hr : Represents keyCols index.data m) (hv : KeyValues keyCols values) (he : Encodes keyCols values key) :
    index.matching key = .ok (entryOf m values key) := by
  obtain ⟨found, hfound, hsub, hmem⟩ := matching_spec hschema hk hr.typed hv.typed he
  rw [hfound]
  refine congrArg Except.ok ?_
  have hiff : ∀ e, e ∈ found ↔ e.1 = key ∧ m values = some e.2 := by
    intro e
    rw [hmem, hr.entries]
    constructor
    · rintro ⟨⟨vs, henc, hm⟩, hsame⟩
      have hkv := hr.keys vs e.2 hm
      rw [same_typed index.hashFn hk hv.typed hkv.typed he henc] at hsame
      obtain ⟨-, hagrees⟩ := of_decide_eq_true (Except.ok.inj hsame)
      obtain rfl := (compareKeys_eq_eq hk hkv hv).mp hagrees
      exact ⟨henc.unique he, hm⟩
    · rintro ⟨rfl, hm⟩
      refine ⟨⟨values, he, hm⟩, ?_⟩
      rw [same_typed index.hashFn hk hv.typed hv.typed he he]
      exact congrArg Except.ok (decide_eq_true ⟨rfl, lexGaps_self _⟩)
  exact eq_entryOf (hsub.nodup hr.nodup) hiff

/-- The bounds of a key that is not in the map are one place. -/
theorem Represents.upperBound_of_lowerBound (hk : IntegerKey keySize keyCols) (hr : Represents keyCols data m)
    (hv : KeyValues keyCols values) (he : Encodes keyCols values key) (hm : m values = none)
    {front back : Entries keySize} (hlower : lowerBound (.create keyCols) key data = .ok (front, back)) :
    upperBound (.create keyCols) key data = .ok (front, back) := by
  obtain ⟨hdata, hless, hnotLess⟩ := (lowerBound_eq_ok hk hr.typed hv.typed he).mp hlower
  refine (upperBound_eq_ok hk hr.typed hv.typed he).mpr ⟨hdata, ?_, ?_⟩
  · intro e hin
    obtain ⟨vs, hvs, henc⟩ := hr.typed e (by rw [hdata]; exact List.mem_append_left _ hin)
    refine (less_iff hk hv.typed hvs he henc).2.mpr ?_
    rw [compareKeys_swap, (less_iff hk hvs hv.typed henc he).1.mp (hless e hin)]
    decide
  · intro e hin
    obtain ⟨vs, henc, hmv⟩ := (hr.entries e.1 e.2).mp (by rw [hdata]; exact List.mem_append_right _ hin)
    have hkv := hr.keys vs e.2 hmv
    refine (less_iff hk hv.typed hkv.typed he henc).1.mpr ?_
    rw [compareKeys_swap vs]
    cases hord : compareKeys vs values with
    | lt => exact absurd hord ((less_iff hk hkv.typed hv.typed henc he).2.mp (hnotLess e hin))
    | gt => rfl
    | eq =>
      rw [(compareKeys_eq_eq hk hkv hv).mp hord, hm] at hmv
      cases hmv

namespace Index

/-- The index holds the map `m`. -/
def Holds (keyCols : List Column) (m : List Value → Option RID) : Index keySize → Prop
  | stlOrdered index => index.metadata.keySchema = .create keyCols ∧ Represents keyCols index.data m ∧
      SortedEntries (.create keyCols) index.data
  | stlUnordered index => index.metadata.keySchema = .create keyCols ∧ Represents keyCols index.data m
  | bPlusTree _ => False

/-- Put a RID where there is none. -/
def insertOnce (m : List Value → Option RID) (values : List Value) (rid : RID) : List Value → Option RID :=
  match m values with
  | none => Function.update m values (some rid)
  | some _ => m

variable {index : Index keySize} {t : Tuple}

theorem Holds.typed (hh : index.Holds keyCols m) : index.Typed keyCols := by
  cases index with
  | stlOrdered ix => exact ⟨hh.1, hh.2.1.typed, hh.2.2⟩
  | stlUnordered ix => exact ⟨hh.1, hh.2.typed⟩
  | bPlusTree _ => exact hh.elim

/-- **`ScanKey` answers what the map has.** -/
theorem scanKey_holds (hk : IntegerKey keySize keyCols) (hh : index.Holds keyCols m)
    (hv : KeyValues keyCols values) (hof : Tuple.ofValues values (.create keyCols) = .ok t) :
    index.scanKey t = .ok (m values).toList := by
  obtain ⟨t', hof', key, hkey, -⟩ := hk.encodes hv.typed
  rw [hof] at hof'
  cases hof'
  have he : Encodes keyCols values key := ⟨t, hof, hkey⟩
  cases index with
  | stlOrdered ix =>
    obtain ⟨hschema, hr, hsorted⟩ := hh
    simp only [scanKey, STLOrderedIndex.scanKey, hkey, ok_bind,
      STLOrderedIndex.find_holds hschema hk hr hsorted hv he]
    rfl
  | stlUnordered ix =>
    obtain ⟨hschema, hr⟩ := hh
    simp only [scanKey, STLUnorderedIndex.scanKey, hkey, ok_bind, STLUnorderedIndex.matching_holds hschema hk hr hv he,
      entryOf]
    cases m values <;> rfl
  | bPlusTree _ => exact hh.elim

/-- **`InsertEntry` keeps the RID that was there first.** -/
theorem insertEntry_holds (hk : IntegerKey keySize keyCols) (hh : index.Holds keyCols m)
    (hv : KeyValues keyCols values) (hof : Tuple.ofValues values (.create keyCols) = .ok t) (rid : RID) :
    ∃ index', index.insertEntry t rid = .ok ((m values).isNone, index') ∧
      index'.Holds keyCols (insertOnce m values rid) := by
  obtain ⟨t', hof', key, hkey, -⟩ := hk.encodes hv.typed
  rw [hof] at hof'
  cases hof'
  have he : Encodes keyCols values key := ⟨t, hof, hkey⟩
  cases index with
  | stlOrdered ix =>
    obtain ⟨hschema, hr, hsorted⟩ := hh
    have hfind := STLOrderedIndex.find_holds hschema hk hr hsorted hv he
    simp only [insertEntry, STLOrderedIndex.insertEntry, hkey, ok_bind, hfind, insertOnce]
    cases hm : m values with
    | some rid' => exact ⟨stlOrdered ix, rfl, hschema, hr, hsorted⟩
    | none =>
      rw [hm] at hfind
      obtain ⟨front, back, hlower, hnone⟩ := (STLOrderedIndex.find_eq_ok hschema hk hr.typed hv.typed he).mp hfind
      obtain ⟨hdata, hless, -⟩ := (lowerBound_eq_ok hk hr.typed hv.typed he).mp hlower
      have hupper := hr.upperBound_of_lowerBound hk hv he hm hlower
      rw [hschema, hupper]
      have hperm : (front ++ (key, rid) :: back).Perm ((key, rid) :: ix.data) := by
        rw [hdata]
        exact List.perm_middle
      obtain ⟨-, hfalse, htrue⟩ := (upperBound_eq_ok hk hr.typed hv.typed he).mp hupper
      refine ⟨stlOrdered { ix with data := front ++ (key, rid) :: back }, rfl, hschema, hr.insert hk hv he hm hperm, ?_⟩
      exact sortedEntries_insert hdata hdata hsorted hless hnone hfalse htrue
  | stlUnordered ix =>
    obtain ⟨hschema, hr⟩ := hh
    have hfind := STLUnorderedIndex.matching_holds hschema hk hr hv he
    simp only [insertEntry, STLUnorderedIndex.insertEntry, hkey, ok_bind, hfind, insertOnce, entryOf]
    cases hm : m values with
    | some rid' => exact ⟨stlUnordered ix, rfl, hschema, hr⟩
    | none =>
      refine ⟨stlUnordered { ix with data := (key, rid) :: ix.data }, rfl, hschema, ?_⟩
      exact hr.insert hk hv he hm (.refl _)
  | bPlusTree _ => exact hh.elim

end Index

end Maps

end Journey.Storage
