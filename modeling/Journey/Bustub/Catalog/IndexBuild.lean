import Journey.Bustub.Catalog.Catalog
import Journey.Bustub.Storage.IndexMap

/-!
# Journey.Bustub.Catalog.IndexBuild — filling a new index from a table

`CreateIndex` walks over the heap and inserts every tuple, deleted or not, and an index keeps the RID that
came first for a key.  A key with NULLs, which only a deleted row has here, agrees with more than one other.

* `populate_cursor`: the loop is a fold over the rows of the heap.
* `Sheltered`: a deleted row that a `std::map` leaves out, because it finds a live row for its key;
  `ordered_answers_iff`: the map answers with the live rows if all deleted rows are sheltered.
* `unmet`: the rows that a `std::unordered_map` takes; `unordered_answers_iff`: it answers with the live rows if
  no deleted row among them can be found.
* `deletedHarmless_iff`: without NULLs both come to the same.
* `index_answers_live_rows_iff`: when the index answers with the live rows.
-/

namespace Journey.Catalog

open SqlType Storage Journey

variable {keyType : ℕ} {h : TableHeap} {pre : List Int32} {rows : List Row} {schema : Schema}
  {keyCols : List Column} {keyAttrs : List ℕ}

/-! ## The loop -/

section Loop

/-- The body of the loop. -/
def insertRow (schema keySchema : Schema) (keyAttrs : List ℕ) (index : Index keyType) (r : Row) :
    Except CatalogError (Index keyType) := do
  let key ← (r.2.keyFromTuple schema keySchema keyAttrs).mapError .fault
  let (_, index) ← (index.insertEntry key r.rid).mapError .fault
  return index

/-- **The loop is a fold over the rows.** -/
theorem populate_cursor (schema keySchema : Schema) (keyAttrs : List ℕ) (hr : HeapRep h pre rows) {stop : RID}
    (hstep : ∀ i < rows.length, TableIterator.next h ⟨cursor rows i, stop⟩ =
      .ok ⟨cursor rows (i + 1), stop⟩) :
    ∀ (k i : ℕ) (index : Index keyType), i ≤ rows.length → rows.length - i ≤ k →
      populate h schema keySchema keyAttrs k ⟨cursor rows i, stop⟩ index =
        (rows.drop i).foldlM (insertRow schema keySchema keyAttrs) index
  | 0, i, index, hle, hk => by
    have hi : i = rows.length := by omega
    rw [cursor_of_ge (by omega), hi, List.drop_length]
    rfl
  | k + 1, i, index, hle, hk => by
    rcases Nat.lt_or_ge i rows.length with hlt | hge
    · have hend : (⟨cursor rows i, stop⟩ : TableIterator).isEnd = false := decide_eq_false (hr.valid_cursor hlt)
      have hget : h.getTuple (cursor rows i) = .ok rows[i] := by
        rw [cursor_of_lt hlt]
        exact hr.getTuple_row (List.getElem_mem hlt)
      have hrec := populate_cursor schema keySchema keyAttrs hr hstep k (i + 1)
      rw [populate, hend, if_neg Bool.false_ne_true, hget, List.drop_eq_getElem_cons hlt, List.foldlM_cons]
      simp only [Except.mapError, ok_bind, hstep i hlt, insertRow, bind_assoc]
      congr 1
      funext key
      congr 1
      funext o
      exact hrec o.2 hlt (by omega)
    · rw [cursor_of_ge hge, List.drop_eq_nil_of_le hge]
      rfl

end Loop

/-! ## Keys of rows -/

section RowKeys

variable {r : Row} {vs : List Value}

/-- The key columns of a row, as `KeyFromTuple` reads them. -/
def rowKey (schema : Schema) (keyAttrs : List ℕ) (r : Row) : Except Fault (List Value) :=
  keyAttrs.mapM fun idx => r.2.getValue schema idx

theorem mapM_types : ∀ {keyAttrs : List ℕ} {cols : List Column} {vs : List Value},
    keyAttrs.mapM (fun i => schema.columns[i]?) = some cols →
    keyAttrs.mapM (fun idx => r.2.getValue schema idx) = .ok vs → vs.map Value.getTypeId = cols.map Column.type
  | [], cols, vs, hcols, hvs => by
    cases hcols
    cases hvs
    rfl
  | k :: keyAttrs, cols, vs, hcols, hvs => by
    simp only [List.mapM_cons, Option.bind_eq_bind, Option.bind_eq_some_iff, Option.pure_def,
      Option.some.injEq] at hcols
    obtain ⟨c, hc, cols', hcols', rfl⟩ := hcols
    rw [List.mapM_cons] at hvs
    obtain ⟨v, hv, hvs⟩ := bind_eq_ok.mp hvs
    obtain ⟨vs', hvs', hret⟩ := bind_eq_ok.mp hvs
    cases hret
    rw [List.map_cons, List.map_cons, getTypeId_getValue hc hv, mapM_types hcols' hvs']

theorem rowKey_typed (hcopy : schema.copySchema keyAttrs = some (.create keyCols))
    (h : rowKey schema keyAttrs r = .ok vs) : WellTyped keyCols vs := by
  unfold Schema.copySchema at hcopy
  simp only [Option.bind_eq_bind, Option.bind_eq_some_iff, Option.pure_def, Option.some.injEq] at hcopy
  obtain ⟨cols, hcols, heq⟩ := hcopy
  have htypes := mapM_types hcols h
  rw [← types_create cols, heq, types_create] at htypes
  exact htypes

/-- Inserting a row is inserting its key. -/
theorem insertRow_eq (hcopy : schema.copySchema keyAttrs = some (.create keyCols)) (hk : IntegerKey keyType keyCols)
    (index : Index keyType) (hkey : rowKey schema keyAttrs r = .ok vs) :
    ∃ t, Tuple.ofValues vs (.create keyCols) = .ok t ∧ insertRow schema (.create keyCols) keyAttrs index r =
      ((index.insertEntry t r.rid).map Prod.snd).mapError .fault := by
  obtain ⟨t, hof, -⟩ := hk.encodes (rowKey_typed hcopy hkey)
  refine ⟨t, hof, ?_⟩
  have hkt : r.2.keyFromTuple schema (.create keyCols) keyAttrs = .ok t := by
    show rowKey schema keyAttrs r >>= _ = _
    rw [hkey, ok_bind, hof]
  simp only [insertRow, hkt, Except.mapError, ok_bind]
  cases index.insertEntry t r.rid <;> rfl

/-- The row's key, or nothing that matters. -/
def keyOf (schema : Schema) (keyAttrs : List ℕ) (r : Row) : List Value :=
  match rowKey schema keyAttrs r with
  | .ok vs => vs
  | .error _ => []

theorem keyOf_eq (h : rowKey schema keyAttrs r = .ok vs) : keyOf schema keyAttrs r = vs := by
  unfold keyOf
  rw [h]

end RowKeys

/-! ## Live rows -/

section Live

/-- The rows decode, and the keys of the live ones are distinct and without NULLs. -/
structure LiveKeys (schema : Schema) (keyAttrs : List ℕ) (rows : List Row) : Prop where
  read : ∀ r ∈ rows, ∃ vs, rowKey schema keyAttrs r = .ok vs
  notNull : ∀ r ∈ rows, r.1.isDeleted = false → ∀ vs, rowKey schema keyAttrs r = .ok vs → ∀ v ∈ vs, v.isNull = false
  distinct : ∀ r ∈ rows, ∀ r' ∈ rows, r.1.isDeleted = false → r'.1.isDeleted = false →
    rowKey schema keyAttrs r = rowKey schema keyAttrs r' → r = r'

/-- `ScanKey` answers, for every key, with the RID of the live row that has it, and with nothing if there is
none. -/
def AnswersLive (schema : Schema) (keyAttrs : List ℕ) (keyCols : List Column) (rows : List Row)
    (index : Index keyType) : Prop :=
  ∀ k key, KeyValues keyCols k → Tuple.ofValues k (.create keyCols) = .ok key →
    ∃ rids, index.scanKey key = .ok rids ∧
      (∀ r ∈ rows, r.1.isDeleted = false → rowKey schema keyAttrs r = .ok k → rids = [r.rid]) ∧
      ((∀ r ∈ rows, r.1.isDeleted = false → rowKey schema keyAttrs r ≠ .ok k) → rids = [])

/-- The RID of the live row with the key. -/
def liveRid (schema : Schema) (keyAttrs : List ℕ) (rows : List Row) (k : List Value) : Option RID :=
  (rows.find? fun r => r.1.isDeleted = false ∧ keyOf schema keyAttrs r = k).map Row.rid

variable {before after : List Row} {r d : Row} {index index' : Index keyType} {k : List Value} {rid : RID} {t : Tuple}

theorem LiveKeys.rowKey_eq (hlive : LiveKeys schema keyAttrs rows) (hr : r ∈ rows) :
    rowKey schema keyAttrs r = .ok (keyOf schema keyAttrs r) := by
  obtain ⟨vs, hkey⟩ := hlive.read r hr
  rw [keyOf_eq hkey, hkey]

theorem LiveKeys.typed (hlive : LiveKeys schema keyAttrs rows)
    (hcopy : schema.copySchema keyAttrs = some (.create keyCols))
    (hr : r ∈ rows) : WellTyped keyCols (keyOf schema keyAttrs r) :=
  rowKey_typed hcopy (hlive.rowKey_eq hr)

theorem LiveKeys.keyValues (hlive : LiveKeys schema keyAttrs rows)
    (hcopy : schema.copySchema keyAttrs = some (.create keyCols)) (hr : r ∈ rows) (hl : r.1.isDeleted = false) :
    KeyValues keyCols (keyOf schema keyAttrs r) :=
  ⟨hlive.typed hcopy hr, hlive.notNull r hr hl _ (hlive.rowKey_eq hr)⟩

theorem LiveKeys.eq_of_key (hlive : LiveKeys schema keyAttrs rows) {r' : Row} (hr : r ∈ rows) (hr' : r' ∈ rows)
    (hl : r.1.isDeleted = false) (hl' : r'.1.isDeleted = false)
    (hkey : keyOf schema keyAttrs r = keyOf schema keyAttrs r') : r = r' := by
  refine hlive.distinct r hr r' hr' hl hl' ?_
  rw [hlive.rowKey_eq hr, hlive.rowKey_eq hr', hkey]

theorem LiveKeys.prefix_rows (hlive : LiveKeys schema keyAttrs (before ++ after)) :
    LiveKeys schema keyAttrs before := by
  have hin : ∀ r ∈ before, r ∈ before ++ after := fun r hr => List.mem_append_left _ hr
  exact ⟨fun r hr => hlive.read r (hin r hr), fun r hr => hlive.notNull r (hin r hr),
    fun r hr r' hr' => hlive.distinct r (hin r hr) r' (hin r' hr')⟩

theorem liveRid_eq_some_iff (hlive : LiveKeys schema keyAttrs rows) :
    liveRid schema keyAttrs rows k = some rid ↔
      ∃ r ∈ rows, r.1.isDeleted = false ∧ keyOf schema keyAttrs r = k ∧ r.rid = rid := by
  unfold liveRid
  rw [Option.map_eq_some_iff]
  constructor
  · rintro ⟨r, hfind, hrid⟩
    have hprop : r.1.isDeleted = false ∧ keyOf schema keyAttrs r = k := by simpa using List.find?_some hfind
    exact ⟨r, List.mem_of_find?_eq_some hfind, hprop.1, hprop.2, hrid⟩
  · rintro ⟨r, hr, hl, hkey, hrid⟩
    cases hfind : rows.find? fun r => decide (r.1.isDeleted = false ∧ keyOf schema keyAttrs r = k) with
    | none =>
      have hno := List.find?_eq_none.mp hfind r hr
      exact absurd (decide_eq_true ⟨hl, hkey⟩) hno
    | some r' =>
      have hprop : r'.1.isDeleted = false ∧ keyOf schema keyAttrs r' = k := by simpa using List.find?_some hfind
      have heq := hlive.eq_of_key hr (List.mem_of_find?_eq_some hfind) hl hprop.1 (hkey.trans hprop.2.symm)
      exact ⟨r', rfl, heq ▸ hrid⟩

/-- An index that looks keys up among the live rows. -/
theorem answersLive_of_scanKey (hlive : LiveKeys schema keyAttrs rows)
    (hscan : ∀ k t, KeyValues keyCols k → Tuple.ofValues k (.create keyCols) = .ok t →
      index.scanKey t = .ok (liveRid schema keyAttrs rows k).toList) :
    AnswersLive schema keyAttrs keyCols rows index := by
  intro k t hv hof
  refine ⟨_, hscan k t hv hof, ?_, ?_⟩
  · intro r hr hl hkey
    rw [(liveRid_eq_some_iff hlive).mpr ⟨r, hr, hl, keyOf_eq hkey, rfl⟩]
    rfl
  · intro hno
    cases hrid : liveRid schema keyAttrs rows k with
    | none => rfl
    | some rid =>
      obtain ⟨r, hr, hl, hkey, -⟩ := (liveRid_eq_some_iff hlive).mp hrid
      exact absurd (by rw [hlive.rowKey_eq hr, hkey]) (hno r hr hl)

/-- An index that answers a key with a deleted row does not answer with the live rows. -/
theorem not_answersLive (hnodup : (rows.map Row.rid).Nodup)
    (hd : d ∈ rows) (hdel : d.1.isDeleted = true) (hv : KeyValues keyCols k)
    (hof : Tuple.ofValues k (.create keyCols) = .ok t)
    (hscan : ∀ rids, index.scanKey t = .ok rids → rids = [d.rid]) :
    ¬AnswersLive schema keyAttrs keyCols rows index := by
  intro hans
  obtain ⟨rids, hrids, hsome, hnone⟩ := hans k t hv hof
  obtain rfl := hscan rids hrids
  by_cases hex : ∃ r ∈ rows, r.1.isDeleted = false ∧ rowKey schema keyAttrs r = .ok k
  · obtain ⟨r, hr, hl, hkey⟩ := hex
    have hrid : d.rid = r.rid := by simpa using hsome r hr hl hkey
    have heq := List.inj_on_of_nodup_map hnodup hd hr hrid
    rw [heq, hl] at hdel
    cases hdel
  · have hempty := hnone fun r hr hl hkey => hex ⟨r, hr, hl, hkey⟩
    cases hempty

/-- A live row goes into the index. -/
theorem insertRow_live (hcopy : schema.copySchema keyAttrs = some (.create keyCols)) (hk : IntegerKey keyType keyCols)
    (hlive : LiveKeys schema keyAttrs (before ++ [r])) (hfresh : r ∉ before) (hl : r.1.isDeleted = false)
    (hh : index.Holds keyCols (liveRid schema keyAttrs before)) :
    ∃ index', insertRow schema (.create keyCols) keyAttrs index r = .ok index' ∧
      index'.Holds keyCols (liveRid schema keyAttrs (before ++ [r])) := by
  have hr : r ∈ before ++ [r] := by simp
  obtain ⟨t, hof, hrow⟩ := insertRow_eq hcopy hk index (hlive.rowKey_eq hr)
  obtain ⟨index', hins, hh'⟩ := Index.insertEntry_holds hk hh (hlive.keyValues hcopy hr hl) hof r.rid
  refine ⟨index', by rw [hrow, hins]; rfl, ?_⟩
  have hnone : liveRid schema keyAttrs before (keyOf schema keyAttrs r) = none := by
    by_contra hsome
    obtain ⟨rid, hrid⟩ := Option.ne_none_iff_exists'.mp hsome
    obtain ⟨r', hr', hl', hkey, -⟩ := (liveRid_eq_some_iff hlive.prefix_rows).mp hrid
    exact hfresh (hlive.eq_of_key (List.mem_append_left _ hr') hr hl' hl hkey ▸ hr')
  have hmap : Index.insertOnce (liveRid schema keyAttrs before) (keyOf schema keyAttrs r) r.rid =
      liveRid schema keyAttrs (before ++ [r]) := by
    funext k
    unfold Index.insertOnce
    rw [hnone]
    dsimp only
    unfold liveRid at hnone ⊢
    rw [List.find?_append]
    by_cases heq : k = keyOf schema keyAttrs r
    · subst heq
      rw [Function.update_self, Option.map_eq_none_iff.mp hnone]
      simp [hl]
    · rw [Function.update_of_ne heq]
      cases before.find? _ <;> simp [Ne.symm heq]
  rw [← hmap]
  exact hh'

theorem liveRid_deleted (hdel : d.1.isDeleted = true) :
    liveRid schema keyAttrs (before ++ [d]) = liveRid schema keyAttrs before := by
  funext k
  unfold liveRid
  rw [List.find?_append]
  cases before.find? _ <;> simp [hdel]

/-- Once an entry is in the index, it stays. -/
theorem foldlM_typed (hcopy : schema.copySchema keyAttrs = some (.create keyCols)) (hk : IntegerKey keyType keyCols) :
    ∀ {rows : List Row} {index index' : Index keyType}, (∀ r ∈ rows, ∃ vs, rowKey schema keyAttrs r = .ok vs) →
      index.Typed keyCols → rows.foldlM (insertRow schema (.create keyCols) keyAttrs) index = .ok index' →
      index'.Typed keyCols ∧ ∀ e ∈ index.entries, e ∈ index'.entries
  | [], index, index', _, ht, hfold => by
    cases hfold
    exact ⟨ht, fun _ he => he⟩
  | r :: rows, index, index', hread, ht, hfold => by
    rw [List.foldlM_cons] at hfold
    obtain ⟨index1, hrow, hfold⟩ := bind_eq_ok.mp hfold
    obtain ⟨vs, hkey⟩ := hread r (List.mem_cons_self ..)
    obtain ⟨t, hof, heq⟩ := insertRow_eq hcopy hk index hkey
    rw [heq] at hrow
    rcases hins : index.insertEntry t r.rid with e | ⟨done, index2⟩
    · rw [hins] at hrow
      cases hrow
    rw [hins] at hrow
    cases hrow
    obtain ⟨ht1, hkept, -⟩ := Index.insertEntry_typed hk ht (rowKey_typed hcopy hkey) hof hins
    obtain ⟨ht', hkept'⟩ := foldlM_typed hcopy hk (fun r' hr' => hread r' (List.mem_cons_of_mem _ hr')) ht1 hfold
    exact ⟨ht', fun e he => hkept' e (hkept e he)⟩

end Live

/-! ## Deleted rows in a map -/

section Ordered

variable {before after : List Row} {r d : Row} {index index' : STLOrderedIndex keyType}

/-- The deleted row comes after a live row whose key agrees with its own in all columns that have values, and the live
rows before it with keys less than its own are those with keys less than that row's. -/
def Sheltered (schema : Schema) (keyAttrs : List ℕ) (before : List Row) (d : Row) : Prop :=
  ∃ r ∈ before, r.1.isDeleted = false ∧ compareKeys (keyOf schema keyAttrs r) (keyOf schema keyAttrs d) = .eq ∧
    ∀ s ∈ before, s.1.isDeleted = false → (compareKeys (keyOf schema keyAttrs s) (keyOf schema keyAttrs d) = .lt ↔
      compareKeys (keyOf schema keyAttrs s) (keyOf schema keyAttrs r) = .lt)

instance (before : List Row) (d : Row) : Decidable (Sheltered schema keyAttrs before d) :=
  inferInstanceAs (Decidable (∃ r ∈ before, r.1.isDeleted = false ∧
    compareKeys (keyOf schema keyAttrs r) (keyOf schema keyAttrs d) = .eq ∧
    ∀ s ∈ before, s.1.isDeleted = false → (compareKeys (keyOf schema keyAttrs s) (keyOf schema keyAttrs d) = .lt ↔
      compareKeys (keyOf schema keyAttrs s) (keyOf schema keyAttrs r) = .lt)))

/-- Every deleted row is sheltered by the rows before it. -/
def DeletedSheltered (schema : Schema) (keyAttrs : List ℕ) (rows : List Row) : Prop :=
  ∀ before d after, rows = before ++ d :: after → d.1.isDeleted = true → Sheltered schema keyAttrs before d

theorem deletedSheltered_concat : DeletedSheltered schema keyAttrs (rows ++ [r]) ↔
    DeletedSheltered schema keyAttrs rows ∧ (r.1.isDeleted = true → Sheltered schema keyAttrs rows r) := by
  constructor
  · intro h
    exact ⟨fun before d after heq => h before d (after ++ [r]) (by simp [heq]), h rows r [] rfl⟩
  · rintro ⟨hrows, hlast⟩ before d after heq hdel
    rcases List.eq_nil_or_concat after with rfl | ⟨after', r', rfl⟩
    · obtain ⟨rfl, hr⟩ := List.append_inj' heq rfl
      obtain rfl := List.singleton_inj.mp hr
      exact hlast hdel
    · rw [List.concat_eq_append, ← List.cons_append, ← List.append_assoc] at heq
      exact hrows before d after' (List.append_inj' heq rfl).1 hdel

/-- Sheltered is found. -/
theorem sheltered_iff (hlive : LiveKeys schema keyAttrs before) : Sheltered schema keyAttrs before d ↔
    ∃ rid, FoundIn (liveRid schema keyAttrs before) (keyOf schema keyAttrs d) rid := by
  have hin : ∀ s, liveRid schema keyAttrs before s ≠ none ↔
      ∃ r ∈ before, r.1.isDeleted = false ∧ keyOf schema keyAttrs r = s := by
    intro s
    rw [Option.ne_none_iff_exists']
    constructor
    · rintro ⟨rid, hrid⟩
      obtain ⟨r, hr, hl, hkey, -⟩ := (liveRid_eq_some_iff hlive).mp hrid
      exact ⟨r, hr, hl, hkey⟩
    · rintro ⟨r, hr, hl, hkey⟩
      exact ⟨r.rid, (liveRid_eq_some_iff hlive).mpr ⟨r, hr, hl, hkey, rfl⟩⟩
  constructor
  · rintro ⟨r, hr, hl, hagrees, hless⟩
    refine ⟨r.rid, keyOf schema keyAttrs r, (liveRid_eq_some_iff hlive).mpr ⟨r, hr, hl, rfl, rfl⟩, hagrees, ?_⟩
    intro k hk
    obtain ⟨s, hs, hls, rfl⟩ := (hin k).mp hk
    exact hless s hs hls
  · rintro ⟨rid, k, hrid, hagrees, hless⟩
    obtain ⟨r, hr, hl, rfl, -⟩ := (liveRid_eq_some_iff hlive).mp hrid
    exact ⟨r, hr, hl, hagrees, fun s hs hls => hless _ ((hin _).mpr ⟨s, hs, hls, rfl⟩)⟩

/-- **A deleted row, and an index that holds the live rows before it**: the row is left out if it is sheltered, and
goes in otherwise, if the insertion is defined. -/
theorem insertRow_deleted (hcopy : schema.copySchema keyAttrs = some (.create keyCols))
    (hk : IntegerKey keyType keyCols)
    (hlive : LiveKeys schema keyAttrs before) {vs : List Value} (hkey : rowKey schema keyAttrs d = .ok vs)
    (hh : (Index.stlOrdered index).Holds keyCols (liveRid schema keyAttrs before)) :
    (Sheltered schema keyAttrs before d →
      insertRow schema (.create keyCols) keyAttrs (.stlOrdered index) d = .ok (.stlOrdered index)) ∧
    (¬Sheltered schema keyAttrs before d → ∀ index', insertRow schema (.create keyCols) keyAttrs (.stlOrdered index) d =
      .ok index' → index'.Typed keyCols ∧ ∃ key, Encodes keyCols vs key ∧ (key, d.rid) ∈ index'.entries) := by
  have hwt := rowKey_typed hcopy hkey
  obtain ⟨t, hof, hrow⟩ := insertRow_eq hcopy hk (.stlOrdered index) hkey
  obtain ⟨t', hof', key, hset, -⟩ := hk.encodes hwt
  rw [hof] at hof'
  cases hof'
  have he : Encodes keyCols vs key := ⟨t, hof, hset⟩
  obtain ⟨hschema, hr, hsorted⟩ := hh
  rw [sheltered_iff hlive, keyOf_eq hkey, hrow]
  constructor
  · rintro ⟨rid, hfound⟩
    simp [Index.insertEntry, STLOrderedIndex.insertEntry, hset,
      STLOrderedIndex.find_of_foundIn hschema hk hr hsorted hwt he hfound, pure, Except.pure, Except.map, Except.mapError]
  · intro hno index' hins
    rcases hresult : (Index.stlOrdered index).insertEntry t d.rid with e | ⟨done, index2⟩
    · rw [hresult] at hins
      cases hins
    rw [hresult] at hins
    cases hins
    have htyped : (Index.stlOrdered index).Typed keyCols := ⟨hschema, hr.typed, hsorted⟩
    obtain ⟨ht, -, hentry⟩ := Index.insertEntry_typed hk htyped hwt hof hresult
    refine ⟨ht, hentry ?_⟩
    -- only a key that is found is left out
    by_contra hdone
    refine hno ?_
    simp only [Index.insertEntry, STLOrderedIndex.insertEntry, hset, ok_bind] at hresult
    obtain ⟨o, hfind, hins⟩ := bind_eq_ok.mp (by simpa only [bind_assoc] using hresult)
    cases o with
    | some rid => exact ⟨rid, STLOrderedIndex.foundIn_of_find hschema hk hr hsorted hwt he hfind⟩
    | none =>
      simp only [Option.isSome_none, Bool.false_eq_true, if_false] at hins
      obtain ⟨_, -, hret⟩ := bind_eq_ok.mp (by simpa only [bind_assoc] using hins)
      cases hret
      exact absurd rfl hdone

theorem insertRow_ordered {made : Index keyType}
    (hrow : insertRow schema (.create keyCols) keyAttrs (.stlOrdered index) r = .ok made) :
    ∃ index' : STLOrderedIndex keyType, made = .stlOrdered index' := by
  unfold insertRow Index.insertEntry at hrow
  obtain ⟨key, -, hrow⟩ := bind_eq_ok.mp hrow
  dsimp only at hrow
  rcases hins : index.insertEntry key r.rid with e | ⟨done, index'⟩
  · rw [hins] at hrow
    cases hrow
  · rw [hins] at hrow
    cases hrow
    exact ⟨index', rfl⟩

theorem foldlM_ordered : ∀ {rows : List Row} {index : STLOrderedIndex keyType} {made : Index keyType},
    rows.foldlM (insertRow schema (.create keyCols) keyAttrs) (.stlOrdered index) = .ok made →
      ∃ index' : STLOrderedIndex keyType, made = .stlOrdered index'
  | [], index, made, hfold => by
    cases hfold
    exact ⟨index, rfl⟩
  | r :: rows, index, made, hfold => by
    rw [List.foldlM_cons] at hfold
    obtain ⟨made1, hrow, hfold⟩ := bind_eq_ok.mp hfold
    obtain ⟨index1, rfl⟩ := insertRow_ordered hrow
    exact foldlM_ordered hfold

/-- While all deleted rows are sheltered, the index holds the live rows. -/
theorem ordered_holds (hcopy : schema.copySchema keyAttrs = some (.create keyCols)) (hk : IntegerKey keyType keyCols)
    (hempty : (Index.stlOrdered index).Holds keyCols fun _ => none) :
    ∀ {rows : List Row}, LiveKeys schema keyAttrs rows →
      (rows.map Row.rid).Nodup → DeletedSheltered schema keyAttrs rows →
      ∃ index' : STLOrderedIndex keyType, rows.foldlM (insertRow schema (.create keyCols) keyAttrs) (.stlOrdered index) =
        .ok (.stlOrdered index') ∧ (Index.stlOrdered index').Holds keyCols (liveRid schema keyAttrs rows) := by
  intro rows
  induction rows using List.reverseRecOn with
  | nil => exact fun _ _ _ => ⟨index, rfl, hempty⟩
  | append_singleton before r ih =>
    intro hlive hnodup hshelter
    rw [List.map_append, List.nodup_append] at hnodup
    obtain ⟨hrows, hlast⟩ := deletedSheltered_concat.mp hshelter
    obtain ⟨index1, hfold, hh⟩ := ih hlive.prefix_rows hnodup.1 hrows
    rw [List.foldlM_append, hfold, ok_bind]
    by_cases hdel : r.1.isDeleted = true
    · have hsame := (insertRow_deleted hcopy hk hlive.prefix_rows (hlive.rowKey_eq (by simp)) hh).1 (hlast hdel)
      refine ⟨index1, by rw [List.foldlM_cons, hsame]; rfl, ?_⟩
      rw [liveRid_deleted hdel]
      exact hh
    · have hfresh : r ∉ before := fun hin => hnodup.2.2 _ (List.mem_map_of_mem hin) _ (by simp) rfl
      obtain ⟨index2, hrow, hh2⟩ := insertRow_live hcopy hk hlive hfresh (by simpa using hdel) hh
      obtain ⟨index2, rfl⟩ := insertRow_ordered hrow
      exact ⟨index2, by rw [List.foldlM_cons, hrow]; rfl, hh2⟩

/-- A deleted row that is in the index answers a key without NULLs. -/
theorem not_answersLive_of_entry (hcopy : schema.copySchema keyAttrs = some (.create keyCols))
    (hk : IntegerKey keyType keyCols) (hnodup : (rows.map Row.rid).Nodup) (hd : d ∈ rows) (hdel : d.1.isDeleted = true)
    {vs : List Value} (hkey : rowKey schema keyAttrs d = .ok vs) (ht : (Index.stlOrdered index).Typed keyCols)
    {key : GenericKey keyType} (he : Encodes keyCols vs key) (hmem : (key, d.rid) ∈ index.data) :
    ¬AnswersLive schema keyAttrs keyCols rows (.stlOrdered index) := by
  have hvs := rowKey_typed hcopy hkey
  have hv := highest_keyValues hk hvs
  obtain ⟨t, hof, top, hset, -⟩ := hk.encodes hv.typed
  obtain ⟨hschema, hte, hsorted⟩ := ht
  refine not_answersLive hnodup hd hdel hv hof ?_
  intro rids hscan
  simp only [Index.scanKey, STLOrderedIndex.scanKey, hset, ok_bind] at hscan
  obtain ⟨o, hfind, hret⟩ := bind_eq_ok.mp hscan
  cases hret
  rw [STLOrderedIndex.find_highest hschema hk hte hsorted hvs he hmem ⟨t, hof, hset⟩ hfind]
  rfl

/-- **The `std::map` answers with the live rows** exactly if every deleted row is sheltered. -/
theorem ordered_answers_iff (hcopy : schema.copySchema keyAttrs = some (.create keyCols))
    (hk : IntegerKey keyType keyCols) (hempty : (Index.stlOrdered index).Holds keyCols fun _ => none)
    (hlive : LiveKeys schema keyAttrs rows) (hnodup : (rows.map Row.rid).Nodup) :
    (∃ made, rows.foldlM (insertRow schema (.create keyCols) keyAttrs) (.stlOrdered index) = .ok made ∧
      AnswersLive schema keyAttrs keyCols rows made) ↔ DeletedSheltered schema keyAttrs rows := by
  constructor
  · rintro ⟨made, hfold, hans⟩
    -- otherwise the first deleted row that is not sheltered goes in, and stays
    have hprefix : ∀ before after, rows = before ++ after → DeletedSheltered schema keyAttrs before := by
      intro before
      induction before using List.reverseRecOn with
      | nil => exact fun _ _ before d after heq => by simp at heq
      | append_singleton before r ih =>
        intro after hrows
        have hrows' : rows = before ++ r :: after := by simp [hrows]
        have hbefore := ih (r :: after) hrows'
        refine deletedSheltered_concat.mpr ⟨hbefore, fun hdel => ?_⟩
        subst hrows'
        have hnodup' := hnodup
        rw [List.map_append, List.nodup_append] at hnodup
        obtain ⟨index1, hfold1, hh⟩ := ordered_holds hcopy hk hempty hlive.prefix_rows hnodup.1 hbefore
        have hr : r ∈ before ++ r :: after := by simp
        have hkey := hlive.rowKey_eq hr
        by_contra hno
        rw [List.foldlM_append, hfold1, ok_bind, List.foldlM_cons] at hfold
        obtain ⟨made2, hrow, hfold⟩ := bind_eq_ok.mp hfold
        obtain ⟨index2, rfl⟩ := insertRow_ordered hrow
        obtain ⟨ht, key, he, hmem⟩ := (insertRow_deleted hcopy hk hlive.prefix_rows hkey hh).2 hno _ hrow
        obtain ⟨index3, rfl⟩ := foldlM_ordered hfold
        obtain ⟨ht', hkept⟩ := foldlM_typed hcopy hk (fun r' hr' => hlive.read r' (by simp [hr'])) ht hfold
        exact not_answersLive_of_entry hcopy hk hnodup' hr hdel hkey ht' he (hkept _ hmem) hans
    exact hprefix rows [] (by simp)
  · intro hshelter
    obtain ⟨made, hfold, hh⟩ := ordered_holds hcopy hk hempty hlive hnodup hshelter
    exact ⟨_, hfold, answersLive_of_scanKey hlive fun k t hv hof => Index.scanKey_holds hk hh hv hof⟩

end Ordered

/-! ## Deleted rows in a hash table -/

section Unordered

variable {before after : List Row} {r d : Row} {index index' : STLUnorderedIndex keyType}
  {hashFunction : GenericKey keyType → UInt64} {vs ws : List Value}

/-- The hash of the key with these values. -/
def hashOf (hashFunction : GenericKey keyType → UInt64) (keyCols : List Column) (values : List Value) : Option UInt64 :=
  match Tuple.ofValues values (.create keyCols) with
  | .error _ => none
  | .ok key => ((GenericKey.setFromKey keyType key).map hashFunction).toOption

/-- The keys have one hash, and agree in all columns that have values. -/
def meets (hashFunction : GenericKey keyType → UInt64) (keyCols : List Column) (vs ws : List Value) : Bool :=
  hashOf hashFunction keyCols vs = hashOf hashFunction keyCols ws ∧ compareKeys vs ws = .eq

/-- The rows that no row met among those taken before them. -/
def unmet (hashFunction : GenericKey keyType → UInt64) (keyCols : List Column) (schema : Schema) (keyAttrs : List ℕ)
    (rows : List Row) : List Row :=
  rows.foldl (fun kept r =>
    if kept.any fun s => meets hashFunction keyCols (keyOf schema keyAttrs s) (keyOf schema keyAttrs r) then kept
    else r :: kept) []

/-- A key without NULLs finds the row. -/
def Findable (hashFunction : GenericKey keyType → UInt64) (keyCols : List Column) (vs : List Value) : Prop :=
  ∃ k, KeyValues keyCols k ∧ meets hashFunction keyCols vs k = true

/-- No deleted row that some key finds is taken. -/
def DeletedUnfound (hashFunction : GenericKey keyType → UInt64) (keyCols : List Column) (schema : Schema)
    (keyAttrs : List ℕ) (rows : List Row) : Prop :=
  ∀ d ∈ unmet hashFunction keyCols schema keyAttrs rows, d.1.isDeleted = true →
    ¬Findable hashFunction keyCols (keyOf schema keyAttrs d)

theorem hashOf_eq {key : GenericKey keyType} (he : Encodes keyCols vs key) :
    hashOf hashFunction keyCols vs = some (hashFunction key) := by
  obtain ⟨t, hof, hset⟩ := he
  unfold hashOf
  rw [hof]
  dsimp only
  rw [hset]
  rfl

theorem same_eq_meets (hk : IntegerKey keyType keyCols) {key key' : GenericKey keyType} (hvs : WellTyped keyCols vs)
    (hws : WellTyped keyCols ws) (he : Encodes keyCols vs key) (he' : Encodes keyCols ws key') :
    STLUnorderedIndex.same (.create keyCols) hashFunction key' key = .ok (meets hashFunction keyCols vs ws) := by
  rw [same_typed hashFunction hk hws hvs he' he]
  unfold meets
  simp only [hashOf_eq he, hashOf_eq he', Option.some_inj]

theorem unmet_concat : unmet hashFunction keyCols schema keyAttrs (rows ++ [r]) =
    if (unmet hashFunction keyCols schema keyAttrs rows).any fun s =>
      meets hashFunction keyCols (keyOf schema keyAttrs s) (keyOf schema keyAttrs r)
    then unmet hashFunction keyCols schema keyAttrs rows else r :: unmet hashFunction keyCols schema keyAttrs rows := by
  unfold unmet
  rw [List.foldl_append]
  rfl

theorem unmet_sublist : (unmet hashFunction keyCols schema keyAttrs rows).Sublist rows.reverse := by
  induction rows using List.reverseRecOn with
  | nil => exact .slnil
  | append_singleton before r ih =>
    rw [unmet_concat, List.reverse_append]
    split_ifs
    · exact ih.cons r
    · exact ih.cons_cons r

theorem mem_of_unmet (h : r ∈ unmet hashFunction keyCols schema keyAttrs rows) : r ∈ rows :=
  List.mem_reverse.mp (unmet_sublist.subset h)

theorem unmet_mono : ∀ {after : List Row}, ∀ r ∈ unmet hashFunction keyCols schema keyAttrs before,
    r ∈ unmet hashFunction keyCols schema keyAttrs (before ++ after) := by
  intro after
  induction after using List.reverseRecOn with
  | nil => simp
  | append_singleton after s ih =>
    intro r hr
    rw [← List.append_assoc, unmet_concat]
    split_ifs
    · exact ih r hr
    · exact List.mem_cons_of_mem _ (ih r hr)

theorem meets_self (vs : List Value) : meets hashFunction keyCols vs vs = true := decide_eq_true ⟨rfl, lexGaps_self _⟩

/-- Every row is met by one that is taken, if only by itself. -/
theorem unmet_covers (hashFunction : GenericKey keyType → UInt64) (keyCols : List Column) :
    ∀ r ∈ rows, ∃ s ∈ unmet hashFunction keyCols schema keyAttrs rows,
    meets hashFunction keyCols (keyOf schema keyAttrs s) (keyOf schema keyAttrs r) = true := by
  induction rows using List.reverseRecOn with
  | nil => simp
  | append_singleton before r ih =>
    intro r' hr'
    rw [unmet_concat]
    rcases List.mem_append.mp hr' with hr' | hr'
    · obtain ⟨s, hs, hmeets⟩ := ih r' hr'
      refine ⟨s, ?_, hmeets⟩
      split_ifs
      · exact hs
      · exact List.mem_cons_of_mem _ hs
    · obtain rfl := List.mem_singleton.mp hr'
      split_ifs with hany
      · exact List.any_eq_true.mp hany
      · exact ⟨r', List.mem_cons_self .., meets_self _⟩

theorem mem_unmet_append : ∀ {after : List Row} {r : Row},
    r ∈ unmet hashFunction keyCols schema keyAttrs (before ++ after) →
      r ∈ unmet hashFunction keyCols schema keyAttrs before ∨ r ∈ after := by
  intro after
  induction after using List.reverseRecOn with
  | nil => exact fun h => .inl (by simpa using h)
  | append_singleton after s ih =>
    intro r hr
    rw [← List.append_assoc, unmet_concat] at hr
    have hcases : r = s ∨ r ∈ unmet hashFunction keyCols schema keyAttrs (before ++ after) := by
      split_ifs at hr
      · exact .inr hr
      · exact List.mem_cons.mp hr
    rcases hcases with rfl | hr
    · exact .inr (by simp)
    · exact (ih hr).imp_right fun h => List.mem_append_left _ h

/-- Without NULLs, a deleted row that no live row precedes would be taken, and found by its own key. -/
theorem behindLive_of_unfound (hk : IntegerKey keyType keyCols)
    (hall : ∀ r ∈ rows, KeyValues keyCols (keyOf schema keyAttrs r))
    (hunfound : DeletedUnfound hashFunction keyCols schema keyAttrs rows) (before : List Row) (d : Row)
    (after : List Row)
    (heq : rows = before ++ d :: after) (hdel : d.1.isDeleted = true) :
    ∃ r ∈ before, r.1.isDeleted = false ∧ keyOf schema keyAttrs r = keyOf schema keyAttrs d := by
  have htaken : ∀ s ∈ unmet hashFunction keyCols schema keyAttrs (before ++ [d]), s.1.isDeleted = false := by
    intro s hs
    by_contra hgone
    have hrows : s ∈ unmet hashFunction keyCols schema keyAttrs rows := by
      rw [heq, ← List.singleton_append, ← List.append_assoc]
      exact unmet_mono s hs
    have hin : s ∈ rows := mem_of_unmet hrows
    exact hunfound s hrows (by simpa using hgone) ⟨_, hall s hin, meets_self _⟩
  obtain ⟨s, hs, hmeets⟩ := unmet_covers hashFunction keyCols d
    (List.mem_append_right before (List.mem_singleton.mpr rfl))
  have hsin : s ∈ before ++ [d] := mem_of_unmet hs
  have hsrows : s ∈ rows := by
    rw [heq]
    rcases List.mem_append.mp hsin with h | h
    · exact List.mem_append_left _ h
    · exact List.mem_append_right _ (by rw [List.mem_singleton.mp h]; exact List.mem_cons_self ..)
  have hkey := (compareKeys_eq_eq hk (hall s hsrows) (hall d (by simp [heq]))).mp (of_decide_eq_true hmeets).2
  rcases List.mem_append.mp hsin with h | h
  · exact ⟨s, h, htaken s hs, hkey⟩
  · rw [List.mem_singleton.mp h] at hs
    rw [htaken d hs] at hdel
    cases hdel

/-- A deleted row behind a row with the same key is not taken. -/
theorem unfound_of_behindLive (hnodup : rows.Nodup)
    (hbehind : ∀ before d after, rows = before ++ d :: after → d.1.isDeleted = true →
      ∃ r ∈ before, r.1.isDeleted = false ∧ keyOf schema keyAttrs r = keyOf schema keyAttrs d) :
    DeletedUnfound hashFunction keyCols schema keyAttrs rows := by
  intro d hd hdel
  have hin : d ∈ rows := mem_of_unmet hd
  obtain ⟨before, after, rfl⟩ := List.append_of_mem hin
  obtain ⟨r, hr, -, hkey⟩ := hbehind before d after rfl hdel
  have hdisjoint := (List.nodup_append.mp hnodup)
  have hnotBefore : d ∉ before := fun h => hdisjoint.2.2 d h d (List.mem_cons_self ..) rfl
  have hnotAfter : d ∉ after := (List.nodup_cons.mp hdisjoint.2.1).1
  rw [← List.singleton_append, ← List.append_assoc] at hd
  rcases mem_unmet_append hd with hd | hd
  · obtain ⟨s, hs, hmeets⟩ := unmet_covers hashFunction keyCols r hr
    rw [hkey] at hmeets
    rw [unmet_concat, if_pos (List.any_eq_true.mpr ⟨s, hs, hmeets⟩)] at hd
    exact absurd (mem_of_unmet hd) hnotBefore
  · exact absurd hd hnotAfter

/-- The entries of the rows that are taken. -/
def Takes (keyCols : List Column) (schema : Schema) (keyAttrs : List ℕ) (kept : List Row) (data : Entries keyType) :
    Prop :=
  List.Forall₂ (fun e r => Encodes keyCols (keyOf schema keyAttrs r) e.1 ∧ e.2 = r.rid) data kept

variable {kept : List Row} {data : Entries keyType}

theorem Takes.entry (h : Takes keyCols schema keyAttrs kept data) (hr : r ∈ kept) :
    ∃ key, Encodes keyCols (keyOf schema keyAttrs r) key ∧ (key, r.rid) ∈ data := by
  induction h with
  | nil => cases hr
  | @cons e s data kept hes _ ih =>
    rcases List.mem_cons.mp hr with rfl | hr
    · exact ⟨e.1, hes.1, hes.2 ▸ List.mem_cons_self ..⟩
    · obtain ⟨key, henc, hin⟩ := ih hr
      exact ⟨key, henc, List.mem_cons_of_mem _ hin⟩

theorem Takes.row (h : Takes keyCols schema keyAttrs kept data) {e : GenericKey keyType × RID} (he : e ∈ data) :
    ∃ r ∈ kept, Encodes keyCols (keyOf schema keyAttrs r) e.1 ∧ e.2 = r.rid := by
  induction h with
  | nil => cases he
  | @cons e' s data kept hes _ ih =>
    rcases List.mem_cons.mp he with rfl | he
    · exact ⟨s, List.mem_cons_self .., hes⟩
    · obtain ⟨r, hr, hrow⟩ := ih he
      exact ⟨r, List.mem_cons_of_mem _ hr, hrow⟩

theorem Takes.rids (h : Takes keyCols schema keyAttrs kept data) : data.map Prod.snd = kept.map Row.rid := by
  induction h with
  | nil => rfl
  | cons hes _ ih => rw [List.map_cons, List.map_cons, ih, hes.2]

theorem Takes.typed (h : Takes keyCols schema keyAttrs kept data)
    (hcopy : schema.copySchema keyAttrs = some (.create keyCols)) (hlive : LiveKeys schema keyAttrs rows)
    (hsub : ∀ r ∈ kept, r ∈ rows) : TypedEntries keyCols data := by
  intro e he
  obtain ⟨r, hr, henc, -⟩ := h.row he
  exact ⟨_, hlive.typed hcopy (hsub r hr), henc⟩

/-- What a key with these values matches. -/
theorem Takes.matching (index : STLUnorderedIndex keyType) (h : Takes keyCols schema keyAttrs kept index.data)
    (hk : IntegerKey keyType keyCols)
    (hcopy : schema.copySchema keyAttrs = some (.create keyCols)) (hlive : LiveKeys schema keyAttrs rows)
    (hsub : ∀ r ∈ kept, r ∈ rows) (hschema : index.metadata.keySchema = .create keyCols) (hvs : WellTyped keyCols vs)
    {key : GenericKey keyType} (he : Encodes keyCols vs key) :
    ∃ found, index.matching key = .ok found ∧ found.Sublist index.data ∧ ∀ e, e ∈ found ↔ ∃ r ∈ kept,
      Encodes keyCols (keyOf schema keyAttrs r) e.1 ∧ e.2 = r.rid ∧
        meets index.hashFn keyCols (keyOf schema keyAttrs r) vs = true := by
  obtain ⟨found, hfound, hsublist, hmem⟩ :=
    STLUnorderedIndex.matching_spec hschema hk (h.typed hcopy hlive hsub) hvs he
  refine ⟨found, hfound, hsublist, ?_⟩
  intro e
  rw [hmem]
  constructor
  · rintro ⟨hin, hsame⟩
    obtain ⟨r, hr, henc, hrid⟩ := h.row hin
    rw [same_eq_meets hk (hlive.typed hcopy (hsub r hr)) hvs henc he] at hsame
    exact ⟨r, hr, henc, hrid, Except.ok.inj hsame⟩
  · rintro ⟨r, hr, henc, hrid, hmeets⟩
    obtain ⟨key', henc', hin⟩ := h.entry hr
    obtain rfl : e = (key', r.rid) := Prod.ext (henc.unique henc') hrid
    exact ⟨hin, by rw [same_eq_meets hk (hlive.typed hcopy (hsub r hr)) hvs henc he, hmeets]⟩

/-- **The hash table takes the rows that are not met.** -/
theorem unordered_takes (hcopy : schema.copySchema keyAttrs = some (.create keyCols)) (hk : IntegerKey keyType keyCols)
    (hschema : index.metadata.keySchema = .create keyCols) (hempty : index.data = []) :
    ∀ {rows : List Row}, LiveKeys schema keyAttrs rows → ∃ data,
      rows.foldlM (insertRow schema (.create keyCols) keyAttrs) (.stlUnordered index) =
        .ok (.stlUnordered { index with data := data }) ∧
      Takes keyCols schema keyAttrs (unmet index.hashFn keyCols schema keyAttrs rows) data := by
  intro rows
  induction rows using List.reverseRecOn with
  | nil =>
    refine fun _ => ⟨[], ?_, .nil⟩
    rw [← hempty]
    rfl
  | append_singleton before r ih =>
    intro hlive
    obtain ⟨data, hfold, htakes⟩ := ih hlive.prefix_rows
    have hr : r ∈ before ++ [r] := by simp
    have hkey := hlive.rowKey_eq hr
    have hwt := hlive.typed hcopy hr
    obtain ⟨t, hof, hrow⟩ := insertRow_eq hcopy hk (.stlUnordered { index with data := data }) hkey
    obtain ⟨t', hof', key, hset, -⟩ := hk.encodes hwt
    rw [hof] at hof'
    cases hof'
    have hsub : ∀ s ∈ unmet index.hashFn keyCols schema keyAttrs before, s ∈ before := fun s hs => mem_of_unmet hs
    obtain ⟨found, hfound, -, hmem⟩ := Takes.matching { index with data := data } htakes hk hcopy
      hlive.prefix_rows hsub hschema hwt ⟨t, hof, hset⟩
    rw [List.foldlM_append, hfold, ok_bind, List.foldlM_cons, hrow, unmet_concat]
    simp only [Index.insertEntry, STLUnorderedIndex.insertEntry, hset, ok_bind, hfound]
    cases found with
    | nil =>
      have hnone : ((unmet index.hashFn keyCols schema keyAttrs before).any fun s =>
          meets index.hashFn keyCols (keyOf schema keyAttrs s) (keyOf schema keyAttrs r)) = false := by
        refine List.any_eq_false.mpr ?_
        intro s hs hmeets
        obtain ⟨key', henc', hin⟩ := htakes.entry hs
        exact List.not_mem_nil ((hmem (key', s.rid)).mpr ⟨s, hs, henc', rfl, hmeets⟩)
      refine ⟨(key, r.rid) :: data, rfl, ?_⟩
      rw [hnone]
      exact .cons ⟨⟨t, hof, hset⟩, rfl⟩ htakes
    | cons e found =>
      obtain ⟨s, hs, -, -, hmeets⟩ := (hmem e).mp (List.mem_cons_self ..)
      refine ⟨data, rfl, ?_⟩
      rw [if_pos (List.any_eq_true.mpr ⟨s, hs, hmeets⟩)]
      exact htakes

/-- If no deleted row that is taken can be found, all live rows are taken. -/
theorem live_unmet (hcopy : schema.copySchema keyAttrs = some (.create keyCols)) (hk : IntegerKey keyType keyCols)
    (hlive : LiveKeys schema keyAttrs rows)
    (hunfound : DeletedUnfound hashFunction keyCols schema keyAttrs rows) (hr : r ∈ rows) (hl : r.1.isDeleted = false) :
    r ∈ unmet hashFunction keyCols schema keyAttrs rows := by
  obtain ⟨before, after, rfl⟩ := List.append_of_mem hr
  rw [← List.singleton_append, ← List.append_assoc]
  refine unmet_mono r ?_
  rw [unmet_concat]
  have hv := hlive.keyValues hcopy hr hl
  split_ifs with hany
  · obtain ⟨s, hs, hmeets⟩ := List.any_eq_true.mp hany
    have hsbefore : s ∈ before := mem_of_unmet hs
    have hsrows : s ∈ before ++ r :: after := List.mem_append_left _ hsbefore
    by_cases hdel : s.1.isDeleted = true
    · exact absurd ⟨_, hv, hmeets⟩ (hunfound s (unmet_mono s hs) hdel)
    · have hls : s.1.isDeleted = false := by simpa using hdel
      have hagrees := (of_decide_eq_true hmeets).2
      have hkey := (compareKeys_eq_eq hk (hlive.keyValues hcopy hsrows hls) hv).mp hagrees
      rw [← hlive.eq_of_key hsrows hr hls hl hkey]
      exact hs
  · exact List.mem_cons_self ..

/-- Then a key without NULLs matches the live row that has it. -/
theorem matching_live (index : STLUnorderedIndex keyType)
    (hcopy : schema.copySchema keyAttrs = some (.create keyCols)) (hk : IntegerKey keyType keyCols)
    (hschema : index.metadata.keySchema = .create keyCols) (hlive : LiveKeys schema keyAttrs rows)
    (hnodup : (rows.map Row.rid).Nodup)
    (htakes : Takes keyCols schema keyAttrs (unmet index.hashFn keyCols schema keyAttrs rows) index.data)
    (hunfound : DeletedUnfound index.hashFn keyCols schema keyAttrs rows) {k : List Value} (hv : KeyValues keyCols k)
    {key : GenericKey keyType} (he : Encodes keyCols k key) :
    index.matching key = .ok (entryOf (liveRid schema keyAttrs rows) k key) := by
  have hsub : ∀ s ∈ unmet index.hashFn keyCols schema keyAttrs rows, s ∈ rows := fun s hs => mem_of_unmet hs
  obtain ⟨found, hfound, hsublist, hmem⟩ := Takes.matching index htakes hk hcopy hlive hsub hschema hv.typed he
  rw [hfound]
  refine congrArg Except.ok ?_
  have hiff : ∀ e, e ∈ found ↔ e.1 = key ∧ liveRid schema keyAttrs rows k = some e.2 := by
    intro e
    rw [hmem, liveRid_eq_some_iff hlive]
    constructor
    · rintro ⟨r, hr, henc, hrid, hmeets⟩
      have hl : r.1.isDeleted = false := by
        by_contra hdel
        exact hunfound r hr (by simpa using hdel) ⟨k, hv, hmeets⟩
      have hkey := (compareKeys_eq_eq hk (hlive.keyValues hcopy (hsub r hr) hl) hv).mp (of_decide_eq_true hmeets).2
      exact ⟨(hkey ▸ henc).unique he, r, hsub r hr, hl, hkey, hrid.symm⟩
    · rintro ⟨rfl, r, hr, hl, rfl, hrid⟩
      exact ⟨r, live_unmet hcopy hk hlive hunfound hr hl, he, hrid.symm, decide_eq_true ⟨rfl, lexGaps_self _⟩⟩
  have hnodupData : index.data.Nodup := by
    refine List.Nodup.of_map Prod.snd ?_
    rw [htakes.rids]
    refine (unmet_sublist.map Row.rid).nodup ?_
    rw [List.map_reverse]
    exact List.nodup_reverse.mpr hnodup
  exact eq_entryOf (hsublist.nodup hnodupData) hiff

/-- **The hash table answers with the live rows** exactly if no deleted row that is taken can be found. -/
theorem unordered_answers_iff (hcopy : schema.copySchema keyAttrs = some (.create keyCols))
    (hk : IntegerKey keyType keyCols) (hschema : index.metadata.keySchema = .create keyCols) (hempty : index.data = [])
    (hlive : LiveKeys schema keyAttrs rows) (hnodup : (rows.map Row.rid).Nodup) :
    (∃ made, rows.foldlM (insertRow schema (.create keyCols) keyAttrs) (.stlUnordered index) = .ok made ∧
      AnswersLive schema keyAttrs keyCols rows made) ↔ DeletedUnfound index.hashFn keyCols schema keyAttrs rows := by
  obtain ⟨data, hfold, htakes⟩ := unordered_takes hcopy hk hschema hempty hlive
  have hsub : ∀ s ∈ unmet index.hashFn keyCols schema keyAttrs rows, s ∈ rows := fun s hs => mem_of_unmet hs
  rw [hfold]
  constructor
  · rintro ⟨made, hmade, hans⟩ d hd hdel ⟨k, hv, hmeets⟩
    cases hmade
    obtain ⟨t, hof, key, hset, -⟩ := hk.encodes hv.typed
    obtain ⟨found, hfound, -, hmem⟩ := Takes.matching { index with data := data } htakes hk hcopy hlive hsub
      hschema hv.typed ⟨t, hof, hset⟩
    refine not_answersLive hnodup (hsub d hd) hdel hv hof ?_ hans
    intro rids hscan
    obtain ⟨keyD, hencD, -⟩ := htakes.entry hd
    have hin := (hmem (keyD, d.rid)).mpr ⟨d, hd, hencD, rfl, hmeets⟩
    simp only [Index.scanKey, STLUnorderedIndex.scanKey, hset, ok_bind, hfound] at hscan
    rcases found with - | ⟨e, - | ⟨e', found⟩⟩
    · cases hin
    · obtain rfl := List.mem_singleton.mp hin
      cases hscan
      rfl
    · cases hscan
  · intro hunfound
    refine ⟨_, rfl, answersLive_of_scanKey hlive ?_⟩
    intro k t hv hof
    obtain ⟨t', hof', key, hset, -⟩ := hk.encodes hv.typed
    rw [hof] at hof'
    cases hof'
    have hfound := matching_live { index with data := data } hcopy hk hschema hlive hnodup htakes hunfound hv
      ⟨t, hof, hset⟩
    simp only [Index.scanKey, STLUnorderedIndex.scanKey, hset, ok_bind, hfound, entryOf]
    cases liveRid schema keyAttrs rows k <;> rfl

end Unordered

/-! ## `CreateIndex` -/

section CreateIndex

variable {c : Journey.Catalog} {tableName indexName : String} {info : TableInfo}
  {names : UnorderedMap String UInt32} {indexType : IndexType}

/-- The two kinds of index over a standard container. -/
def IndexType.isStl : IndexType → Bool
  | .stlOrderedIndex | .stlUnorderedIndex => true
  | _ => false

/-- `CreateIndex` of a new name is the loop over the table's rows. -/
theorem createIndex_iff (hr : HeapRep h pre rows) (hset : Settled h pre)
    (hget : c.getTable tableName = .ok (some info)) (htable : info.table = some h)
    (hnames : c.indexNames.lookup tableName = some names) (hnew : indexName ∉ names)
    (hcopy : schema.copySchema keyAttrs = some (.create keyCols)) {rounds : ℕ} (hrounds : rows.length ≤ rounds)
    (keySize : ℕ) (hashFunction : GenericKey keyType → UInt64) (isPrimaryKey : Bool) {index : Index keyType}
    (hmake : makeIndex ⟨indexName, tableName, keyAttrs, isPrimaryKey, .create keyCols⟩ hashFunction indexType =
      .ok index)
    (P : {n : ℕ} → Index n → Prop) :
    (∃ made c', c.createIndex keyType indexName tableName schema (.create keyCols) keyAttrs keySize
      hashFunction isPrimaryKey indexType rounds = .ok (some made, c') ∧ P made.index) ↔
    ∃ made, rows.foldlM (insertRow schema (.create keyCols) keyAttrs) index = .ok made ∧ P made := by
  have hmem : tableName ∈ c.tableNames := by
    by_contra hno
    unfold Catalog.getTable at hget
    rw [AList.lookup_eq_none.mpr hno] at hget
    cases hget
  have hmeta : IndexMetadata.new indexName tableName schema keyAttrs isPrimaryKey =
      .ok ⟨indexName, tableName, keyAttrs, isPrimaryKey, .create keyCols⟩ := by
    unfold IndexMetadata.new
    rw [hcopy]
  obtain ⟨stop, hiter, hstep⟩ := makeIterator_cursor hr hset
  have hpop := populate_cursor schema (.create keyCols) keyAttrs hr hstep rounds 0 index (by omega) (by omega)
  rw [List.drop_zero] at hpop
  unfold Catalog.createIndex
  simp only [hmem, not_true, if_false, hnames, hnew, hmeta, hmake, Except.mapError, ok_bind, hget, htable, hiter, hpop]
  rcases rows.foldlM (insertRow schema (.create keyCols) keyAttrs) index with e | made
  · simp
  · constructor
    · rintro ⟨info', c', heq, hP⟩
      cases heq
      exact ⟨made, rfl, hP⟩
    · rintro ⟨made', heq, hP⟩
      cases heq
      exact ⟨_, _, rfl, hP⟩

/-- **No deleted row is in the way of the live ones**, in the container of the index. -/
def DeletedHarmless (indexType : IndexType) (hashFunction : GenericKey keyType → UInt64) (keyCols : List Column)
    (schema : Schema) (keyAttrs : List ℕ) (rows : List Row) : Prop :=
  match indexType with
  | .stlOrderedIndex => DeletedSheltered schema keyAttrs rows
  | _ => DeletedUnfound hashFunction keyCols schema keyAttrs rows

/-- Every deleted row comes after a live row with the same key. -/
def DeletedBehindLive (schema : Schema) (keyAttrs : List ℕ) (rows : List Row) : Prop :=
  ∀ before d after, rows = before ++ d :: after → d.1.isDeleted = true →
    ∃ r ∈ before, r.1.isDeleted = false ∧ keyOf schema keyAttrs r = keyOf schema keyAttrs d

/-- **Without NULLs, both containers ask the same.** -/
theorem deletedHarmless_iff (hk : IntegerKey keyType keyCols) (hashFunction : GenericKey keyType → UInt64)
    (hnodup : rows.Nodup) (hall : ∀ r ∈ rows, KeyValues keyCols (keyOf schema keyAttrs r)) :
    DeletedHarmless indexType hashFunction keyCols schema keyAttrs rows ↔ DeletedBehindLive schema keyAttrs rows := by
  have hordered : DeletedSheltered schema keyAttrs rows ↔ DeletedBehindLive schema keyAttrs rows := by
    constructor
    · intro h before d after heq hdel
      obtain ⟨r, hr, hl, hagrees, -⟩ := h before d after heq hdel
      exact ⟨r, hr, hl, (compareKeys_eq_eq hk (hall r (by simp [heq, hr])) (hall d (by simp [heq]))).mp hagrees⟩
    · intro h before d after heq hdel
      obtain ⟨r, hr, hl, hkey⟩ := h before d after heq hdel
      refine ⟨r, hr, hl, by rw [hkey]; exact lexGaps_self _, ?_⟩
      intro s _ _
      rw [hkey]
  have hunordered : DeletedUnfound hashFunction keyCols schema keyAttrs rows ↔
      DeletedBehindLive schema keyAttrs rows := by
    constructor
    · exact behindLive_of_unfound hk hall
    · exact unfound_of_behindLive hnodup
  unfold DeletedHarmless
  cases indexType <;> first | exact hordered | exact hunordered

/-- **When a new index answers with the live rows.**  For a heap reached by insertions and updates whose rows
decode, the live ones with distinct keys without NULLs, and a key of integer columns that fits: `CreateIndex`
with one of the standard containers makes an index that answers every key with the live row that has it, if
and only if the deleted rows are harmless: for a `std::map`, each comes after a live row that its key cannot be
told from; for a `std::unordered_map`, none that goes in can be found by a key without NULLs. -/
theorem index_answers_live_rows_iff (page : Int32 → Mem) (first : Int32) (fresh : List Int32)
    (hsorted : (first :: fresh).Pairwise (· < ·)) (hvalid : invalidPageId ∉ first :: fresh)
    (h₀ : TableHeap) (hcreate : TableHeap.create page (first :: fresh) = .ok h₀)
    (ops : List HeapOp) (hops : Along applyHeapOp InsertOk h₀ ops) (outs : List (Option RID)) (h : TableHeap)
    (hrun : run applyHeapOp h₀ ops = .ok (outs, h))
    (c : Journey.Catalog) (tableName indexName : String) (info : TableInfo) (names : UnorderedMap String UInt32)
    (hget : c.getTable tableName = .ok (some info)) (htable : info.table = some h)
    (hnames : c.indexNames.lookup tableName = some names) (hnew : indexName ∉ names)
    (schema : Schema) (keyAttrs : List ℕ) (keyCols : List Column) (keyType : ℕ)
    (hcopy : schema.copySchema keyAttrs = some (.create keyCols)) (hk : IntegerKey keyType keyCols)
    (hlive : LiveKeys schema keyAttrs (track applyRows [] ops outs)) (keySize : ℕ)
    (hashFunction : GenericKey keyType → UInt64) (isPrimaryKey : Bool) (indexType : IndexType)
    (hstl : indexType.isStl = true) (rounds : ℕ) (hrounds : (track applyRows [] ops outs).length ≤ rounds) :
    (∃ made c', c.createIndex keyType indexName tableName schema (.create keyCols) keyAttrs keySize hashFunction
        isPrimaryKey indexType rounds = .ok (some made, c') ∧
      AnswersLive schema keyAttrs keyCols (track applyRows [] ops outs) made.index) ↔
    DeletedHarmless indexType hashFunction keyCols schema keyAttrs (track applyRows [] ops outs) := by
  obtain ⟨pre, hr, hset⟩ := reachable_rep page hsorted hvalid hcreate hops hrun
  cases indexType with
  | stlOrderedIndex =>
    refine (createIndex_iff hr hset hget htable hnames hnew hcopy hrounds keySize hashFunction isPrimaryKey rfl
      (AnswersLive schema keyAttrs keyCols (track applyRows [] ops outs))).trans ?_
    exact ordered_answers_iff hcopy hk ⟨rfl, represents_nil keyCols, .nil⟩ hlive hr.nodup_rids
  | stlUnorderedIndex =>
    refine (createIndex_iff hr hset hget htable hnames hnew hcopy hrounds keySize hashFunction isPrimaryKey rfl
      (AnswersLive schema keyAttrs keyCols (track applyRows [] ops outs))).trans ?_
    exact unordered_answers_iff hcopy hk rfl rfl hlive hr.nodup_rids
  | _ => simp [IndexType.isStl] at hstl

end CreateIndex

/-! ## A deleted row that comes first -/

section DeletedFirst

/-- One `INTEGER` column. -/
def keyColumn : Column := .fixed "k" .integer 4 integer_fixed integer_size

/-- The row `(n)`. -/
def keyRow (n : Int32) : Tuple where
  rid := ⟨invalidPageId, 0⟩
  data := toLE 4 n.toUInt32.toNat
  length_lt := by rw [length_toLE]; decide

/-- The catalog of a table `t` with the given heap. -/
def keyTable (h : TableHeap) : Journey.Catalog :=
  .after [.createTable "t" (.create [keyColumn]) true (fun _ _ => 0) [0, 1], .writeHeap 0 h]

/-- Insert `(1)`, mark it deleted, and insert `(1)` again. -/
def reinserted : List HeapOp :=
  [.insertTuple ⟨0, false⟩ (keyRow 1), .updateTupleMeta ⟨0, true⟩ ⟨0, 0⟩, .insertTuple ⟨0, false⟩ (keyRow 1)]

/-- The rows of the table that `reinserted` leaves. -/
def reinsertedRows : List Row :=
  [(⟨0, true⟩, { keyRow 1 with rid := ⟨0, 0⟩ }), (⟨0, false⟩, { keyRow 1 with rid := ⟨0, 1⟩ })]

theorem rowKey_keyRow (tupleMeta : TupleMeta) (rid : RID) :
    rowKey (.create [keyColumn]) [0] (tupleMeta, { keyRow 1 with rid := rid }) = .ok [.integer 1] := rfl

theorem liveKeys_reinserted : LiveKeys (.create [keyColumn]) [0] reinsertedRows := by
  constructor
  · intro r hr
    simp only [reinsertedRows, List.mem_cons, List.not_mem_nil, or_false] at hr
    rcases hr with rfl | rfl
    · exact ⟨_, rowKey_keyRow _ _⟩
    · exact ⟨_, rowKey_keyRow _ _⟩
  · intro r hr hl vs hkey v hv
    simp only [reinsertedRows, List.mem_cons, List.not_mem_nil, or_false] at hr
    rcases hr with rfl | rfl
    · cases hl
    · rw [rowKey_keyRow] at hkey
      cases hkey
      rw [List.mem_singleton.mp hv]
      rfl
  · intro r hr r' hr' hl hl' _
    simp only [reinsertedRows, List.mem_cons, List.not_mem_nil, or_false] at hr hr'
    rcases hr with rfl | rfl
    · cases hl
    · rcases hr' with rfl | rfl
      · cases hl'
      · rfl

/-- The live row of the table is in slot 1, and the index answers its key with slot 0. -/
theorem deleted_row_answers : ∃ h₀ outs h made c', TableHeap.create (fun _ _ => 0) [0, 1] = .ok h₀ ∧
    run applyHeapOp h₀ reinserted = .ok (outs, h) ∧ track applyRows [] reinserted outs = reinsertedRows ∧
    LiveKeys (.create [keyColumn]) [0] reinsertedRows ∧
    (keyTable h).createIndex 8 "i" "t" (.create [keyColumn]) (.create [keyColumn]) [0] 8 (fun _ => 0) false
      .stlOrderedIndex 2 = .ok (some made, c') ∧
    made.index.scanKey (keyRow 1) = .ok [⟨0, 0⟩] ∧
    ¬ AnswersLive (.create [keyColumn]) [0] [keyColumn] reinsertedRows made.index := by
  have hscan : (do
      let h₀ ← (TableHeap.create (fun _ _ => 0) [0, 1]).toOption
      let (outs, h) ← (run applyHeapOp h₀ reinserted).toOption
      let (made, _) ← ((keyTable h).createIndex 8 "i" "t" (.create [keyColumn]) (.create [keyColumn]) [0] 8
        (fun _ => 0) false .stlOrderedIndex 2).toOption
      let made ← made
      let rids ← (made.index.scanKey (keyRow 1)).toOption
      return (outs, rids)) = some ([some ⟨0, 0⟩, none, some ⟨0, 1⟩], [⟨0, 0⟩]) := by
    decide +kernel
  simp only [Option.bind_eq_bind, Option.bind_eq_some_iff, toOption_eq_some, Option.pure_def, Option.some.injEq,
    Prod.mk.injEq] at hscan
  obtain ⟨h₀, hcreate, ⟨outs, h⟩, hrun, ⟨made, c'⟩, hmade, made', rfl, rids, hrids, rfl, rfl⟩ := hscan
  refine ⟨h₀, _, h, made', c', hcreate, hrun, rfl, liveKeys_reinserted, hmade, hrids, ?_⟩
  intro hans
  obtain ⟨rids, hscan, hlive, -⟩ := hans [.integer 1] (keyRow 1) ⟨rfl, by simp; rfl⟩ rfl
  rw [hrids] at hscan
  cases hscan
  have hone := hlive (⟨0, false⟩, { keyRow 1 with rid := ⟨0, 1⟩ }) (by simp [reinsertedRows]) rfl
    (rowKey_keyRow _ _)
  simp [Row.rid] at hone

/-- Insert `(1)`; insert `(NULL)` and `(1)` and mark them deleted; insert `(2)`. -/
def mixed : List HeapOp :=
  [.insertTuple ⟨0, false⟩ (keyRow 1), .insertTuple ⟨0, false⟩ (keyRow int32Null), .updateTupleMeta ⟨0, true⟩ ⟨0, 1⟩,
    .insertTuple ⟨0, false⟩ (keyRow 1), .updateTupleMeta ⟨0, true⟩ ⟨0, 2⟩, .insertTuple ⟨0, false⟩ (keyRow 2)]

/-- The rows of the table that `mixed` leaves. -/
def mixedRows : List Row :=
  [(⟨0, false⟩, { keyRow 1 with rid := ⟨0, 0⟩ }), (⟨0, true⟩, { keyRow int32Null with rid := ⟨0, 1⟩ }),
    (⟨0, true⟩, { keyRow 1 with rid := ⟨0, 2⟩ }), (⟨0, false⟩, { keyRow 2 with rid := ⟨0, 3⟩ })]

theorem keys_mixedRows : mixedRows.map (rowKey (.create [keyColumn]) [0]) =
    [.ok [.integer 1], .ok [.integer int32Null], .ok [.integer 1], .ok [.integer 2]] := rfl

theorem liveKeys_mixed : LiveKeys (.create [keyColumn]) [0] mixedRows := by
  have hkeys := keys_mixedRows
  simp only [mixedRows, List.map_cons, List.map_nil, List.cons.injEq, and_true] at hkeys
  obtain ⟨h1, h2, h3, h4⟩ := hkeys
  constructor
  · simp only [mixedRows, List.forall_mem_cons, h1, h2, h3, h4]
    simp
  · simp only [mixedRows, List.forall_mem_cons, h1, h2, h3, h4]
    simp
    decide
  · simp only [mixedRows, List.forall_mem_cons, h1, h2, h3, h4]
    simp

/-- The deleted rows come after the row `(1)`: the one with the NULL agrees with it, the other has its key. -/
theorem harmless_mixed (indexType : IndexType) :
    DeletedHarmless indexType (fun _ : GenericKey 8 => 0) [keyColumn] (.create [keyColumn]) [0] mixedRows := by
  have hordered : DeletedSheltered (.create [keyColumn]) [0] mixedRows := by
    show DeletedSheltered _ _ (((([] ++ [_]) ++ [_]) ++ [_]) ++ [_])
    simp only [deletedSheltered_concat]
    refine ⟨⟨⟨⟨fun before d after heq => ?_, ?_⟩, ?_⟩, ?_⟩, ?_⟩
    · simp at heq
    · decide +kernel
    · decide +kernel
    · decide +kernel
    · decide +kernel
  have hunordered : DeletedUnfound (fun _ : GenericKey 8 => 0) [keyColumn] (.create [keyColumn]) [0] mixedRows := by
    have htaken : ∀ d ∈ unmet (fun _ : GenericKey 8 => 0) [keyColumn] (.create [keyColumn]) [0] mixedRows,
        d.1.isDeleted = false := by
      decide +kernel
    intro d hd hdel
    rw [htaken d hd] at hdel
    cases hdel
  unfold DeletedHarmless
  cases indexType <;> first | exact hordered | exact hunordered

/-- Over the table that `mixed` leaves, both containers answer with the rows `(1)` and `(2)`. -/
theorem index_answers_live_rows_iff_mixed : ∃ h₀ outs h, TableHeap.create (fun _ _ => 0) [0, 1] = .ok h₀ ∧
    run applyHeapOp h₀ mixed = .ok (outs, h) ∧ track applyRows [] mixed outs = mixedRows ∧
    ∀ indexType : IndexType, indexType.isStl = true → ∃ made c',
      (keyTable h).createIndex 8 "i" "t" (.create [keyColumn]) (.create [keyColumn]) [0] 8 (fun _ => 0) false
        indexType 4 = .ok (some made, c') ∧ AnswersLive (.create [keyColumn]) [0] [keyColumn] mixedRows made.index := by
  have hrun : (do
      let h₀ ← (TableHeap.create (fun _ _ => 0) [0, 1]).toOption
      let (outs, _) ← (run applyHeapOp h₀ mixed).toOption
      return (outs, decide (Along applyHeapOp InsertOk h₀ mixed))) =
        some ([some ⟨0, 0⟩, some ⟨0, 1⟩, none, some ⟨0, 2⟩, none, some ⟨0, 3⟩], true) := by
    decide +kernel
  simp only [Option.bind_eq_bind, Option.bind_eq_some_iff, toOption_eq_some, Option.pure_def, Option.some.injEq,
    Prod.mk.injEq, decide_eq_true_eq] at hrun
  obtain ⟨h₀, hcreate, ⟨outs, h⟩, hrun, rfl, hops⟩ := hrun
  refine ⟨h₀, _, h, hcreate, hrun, rfl, ?_⟩
  intro indexType hstl
  exact (index_answers_live_rows_iff (fun _ _ => 0) 0 [1] (by decide) (by decide) h₀ hcreate mixed hops _ h hrun
    (keyTable h) "t" "i" ⟨.create [keyColumn], "t", some h, 0⟩ ∅ rfl rfl rfl (by simp) (.create [keyColumn]) [0]
    [keyColumn] 8 rfl ⟨by decide, by decide, by decide⟩ liveKeys_mixed 8 (fun _ => 0) false indexType hstl 4
    (le_refl _)).mpr (harmless_mixed indexType)

end DeletedFirst

end Journey.Catalog
