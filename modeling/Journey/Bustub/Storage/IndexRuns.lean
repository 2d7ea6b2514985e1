import Journey.Bustub.Storage.IndexMap

/-!
# Journey.Bustub.Storage.IndexRuns — what an index answers, call after call

The callers of an index make a key tuple and call `InsertEntry`, `DeleteEntry` or `ScanKey` with it.

* `serve`: one call, with the values of the key.
* `mapStep`: the same call on a partial map from key values to RIDs.
* `serve_holds`: a call on an index that holds a map answers what the map does, and holds the new map then.
* `indexes_agree`: over any run, both indexes over the standard containers answer what the map does.
-/

namespace Journey.Storage

open SqlType Catalog

/-! ## Calls -/

section Calls

variable {keySize : ℕ}

/-- `DeleteEntry`. -/
def Index.deleteEntry (index : Index keySize) (key : Tuple) : Except Fault (Index keySize) :=
  match index with
  | stlOrdered index => do return stlOrdered (← index.deleteEntry key)
  | stlUnordered index => do return stlUnordered (← index.deleteEntry key)
  | bPlusTree _ => do
    let _ ← GenericKey.setFromKey keySize key
    throw (.logicError "TODO(P2): Add implementation.")

/-- A call on an index.  The RID that `DeleteEntry` is given is not looked at. -/
inductive KeyCall
  | insertEntry (key : List Value) (rid : RID)
  | deleteEntry (key : List Value) (rid : RID)
  | scanKey (key : List Value)

def KeyCall.key : KeyCall → List Value
  | insertEntry key _ => key
  | deleteEntry key _ => key
  | scanKey key => key

inductive KeyAnswer
  | inserted (done : Bool)
  | deleted
  | scanned (result : List RID)
deriving DecidableEq

/-- Make the key tuple, and call the index. -/
def serve (keySchema : Schema) (index : Index keySize) (call : KeyCall) : Except Fault (KeyAnswer × Index keySize) := do
  let key ← Tuple.ofValues call.key keySchema
  match call with
  | .insertEntry _ rid =>
    let (done, index) ← index.insertEntry key rid
    return (.inserted done, index)
  | .deleteEntry _ _ => return (.deleted, ← index.deleteEntry key)
  | .scanKey _ => return (.scanned (← index.scanKey key), index)

/-- **The call on a partial map**: the first insert of a key wins, and a delete removes the key. -/
def mapStep (m : List Value → Option RID) : KeyCall → KeyAnswer × (List Value → Option RID)
  | .insertEntry key rid => (.inserted (m key).isNone, Index.insertOnce m key rid)
  | .deleteEntry key _ => (.deleted, Function.update m key none)
  | .scanKey key => (.scanned (m key).toList, m)

/-- The answers of a run on the map. -/
def mapAnswers (m : List Value → Option RID) : List KeyCall → List KeyAnswer
  | [] => []
  | call :: calls => (mapStep m call).1 :: mapAnswers (mapStep m call).2 calls

end Calls

/-! ## Deletes -/

section Deletes

variable {keySize : ℕ} {keyCols : List Column} {values : List Value} {key : GenericKey keySize}
  {data : Entries keySize} {m : List Value → Option RID}

theorem not_less_self (hk : IntegerKey keySize keyCols) (hwt : WellTyped keyCols values)
    (he : Encodes keyCols values key) : stlComparatorWrapper (.create keyCols) key key ≠ .ok true := by
  intro h
  have hlt := (less_iff hk hwt hwt he he).1.mp h
  rw [show compareKeys values values = .eq from lexGaps_self _] at hlt
  cases hlt

section Erased

variable {front back front' back' : Entries keySize}

/-- What is before the lower bound, and what is behind the upper one: all but the key. -/
theorem mem_erased (hr : Represents keyCols data m) (hk : IntegerKey keySize keyCols) (hv : KeyValues keyCols values)
    (he : Encodes keyCols values key) (hlower : lowerBound (.create keyCols) key data = .ok (front, back'))
    (hupper : upperBound (.create keyCols) key data = .ok (front', back)) (e : GenericKey keySize × RID) :
    e ∈ front ++ back ↔ e ∈ data ∧ e.1 ≠ key := by
  obtain ⟨hdata, hless, hnotLess⟩ := (lowerBound_eq_ok hk hr.typed hv.typed he).mp hlower
  obtain ⟨hdata', hnotGreater, hgreater⟩ := (upperBound_eq_ok hk hr.typed hv.typed he).mp hupper
  have hself := not_less_self hk hv.typed he
  rw [List.mem_append]
  constructor
  · rintro (hin | hin)
    · exact ⟨by rw [hdata]; exact List.mem_append_left _ hin, fun heq => hself (heq ▸ hless e hin)⟩
    · exact ⟨by rw [hdata']; exact List.mem_append_right _ hin, fun heq => hself (heq ▸ hgreater e hin)⟩
  · rintro ⟨hin, hne⟩
    obtain ⟨vs, henc, hmv⟩ := (hr.entries e.1 e.2).mp hin
    have hkv := hr.keys vs e.2 hmv
    cases hord : compareKeys vs values with
    | eq =>
      rw [(compareKeys_eq_eq hk hkv hv).mp hord] at henc
      exact absurd (henc.unique he) hne
    | lt =>
      rw [hdata] at hin
      rcases List.mem_append.mp hin with hin | hin
      · exact .inl hin
      · exact absurd hord ((less_iff hk hkv.typed hv.typed henc he).2.mp (hnotLess e hin))
    | gt =>
      have hlt : compareKeys values vs = .lt := by rw [compareKeys_swap, hord]; rfl
      rw [hdata'] at hin
      rcases List.mem_append.mp hin with hin | hin
      · exact absurd hlt ((less_iff hk hv.typed hkv.typed he henc).2.mp (hnotGreater e hin))
      · exact .inr hin

theorem sorted_erased (hr : Represents keyCols data m) (hk : IntegerKey keySize keyCols)
    (hsorted : SortedEntries (.create keyCols) data) (hv : KeyValues keyCols values) (he : Encodes keyCols values key)
    (hlower : lowerBound (.create keyCols) key data = .ok (front, back'))
    (hupper : upperBound (.create keyCols) key data = .ok (front', back)) :
    SortedEntries (.create keyCols) (front ++ back) := by
  obtain ⟨hdata, hless, -⟩ := (lowerBound_eq_ok hk hr.typed hv.typed he).mp hlower
  obtain ⟨hdata', -, hgreater⟩ := (upperBound_eq_ok hk hr.typed hv.typed he).mp hupper
  refine List.pairwise_append.mpr ⟨?_, ?_, ?_⟩
  · exact (List.pairwise_append.mp (hdata ▸ hsorted)).1
  · exact (List.pairwise_append.mp (hdata' ▸ hsorted)).2.1
  · intro a ha b hb
    obtain ⟨va, hencA, hma⟩ := (hr.entries a.1 a.2).mp (by rw [hdata]; exact List.mem_append_left _ ha)
    obtain ⟨vb, hencB, hmb⟩ := (hr.entries b.1 b.2).mp (by rw [hdata']; exact List.mem_append_right _ hb)
    have hka := hr.keys va a.2 hma
    have hkb := hr.keys vb b.2 hmb
    refine (less_iff hk hka.typed hkb.typed hencA hencB).1.mpr (compareKeys_trans hk hka hv hkb ?_ ?_)
    · exact (less_iff hk hka.typed hv.typed hencA he).1.mp (hless a ha)
    · exact (less_iff hk hv.typed hkb.typed he hencB).1.mp (hgreater b hb)

/-- Erasing a key leaves the map without it. -/
theorem erased_spec (hr : Represents keyCols data m) (hk : IntegerKey keySize keyCols)
    (hsorted : SortedEntries (.create keyCols) data) (hv : KeyValues keyCols values) (he : Encodes keyCols values key)
    (hlower : lowerBound (.create keyCols) key data = .ok (front, back'))
    (hupper : upperBound (.create keyCols) key data = .ok (front', back)) :
    Represents keyCols (front ++ back) (Function.update m values none) ∧
      SortedEntries (.create keyCols) (front ++ back) := by
  have hmem := mem_erased hr hk hv he hlower hupper
  have hpair := sorted_erased hr hk hsorted hv he hlower hupper
  refine ⟨hr.remove hk hv he ?_ hmem, hpair⟩
  -- equal entries would be less than themselves
  refine List.Pairwise.imp_of_mem ?_ hpair
  rintro a b ha - hab rfl
  obtain ⟨vs, hvs, henc⟩ := hr.typed a ((hmem a).mp ha).1
  exact not_less_self hk hvs henc hab

end Erased

/-- The bound behind a key without NULLs. -/
theorem upperBound_ok (hr : Represents keyCols data m) (hk : IntegerKey keySize keyCols)
    (hsorted : SortedEntries (.create keyCols) data) (hv : KeyValues keyCols values) (he : Encodes keyCols values key) :
    ∃ front back, upperBound (.create keyCols) key data = .ok (front, back) := by
  refine exists_split_of_pairwise (answers_upper hk hr.typed hv.typed he) (List.Pairwise.imp_of_mem ?_ hsorted)
  intro a b ha hb hab hbefore
  obtain ⟨va, hencA, hma⟩ := (hr.entries a.1 a.2).mp ha
  obtain ⟨vb, hencB, hmb⟩ := (hr.entries b.1 b.2).mp hb
  have hka := hr.keys va a.2 hma
  have hkb := hr.keys vb b.2 hmb
  have hle := (less_iff hk hv.typed hkb.typed he hencB).2.mp (not_ok_iff.mp hbefore)
  refine not_ok_iff.mpr ((less_iff hk hv.typed hka.typed he hencA).2.mpr ?_)
  intro hlt
  exact hle (compareKeys_trans hk hv hka hkb hlt ((less_iff hk hka.typed hkb.typed hencA hencB).1.mp hab))

/-- **`DeleteEntry` removes the key.** -/
theorem Index.deleteEntry_holds {index : Index keySize} {t : Tuple} (hk : IntegerKey keySize keyCols)
    (hh : index.Holds keyCols m) (hv : KeyValues keyCols values)
    (hof : Tuple.ofValues values (.create keyCols) = .ok t) :
    ∃ index', index.deleteEntry t = .ok index' ∧ index'.Holds keyCols (Function.update m values none) := by
  obtain ⟨t', hof', key, hkey, -⟩ := hk.encodes hv.typed
  rw [hof] at hof'
  cases hof'
  have he : Encodes keyCols values key := ⟨t, hof, hkey⟩
  cases index with
  | stlOrdered ix =>
    obtain ⟨hschema, hr, hsorted⟩ := hh
    obtain ⟨front, back', hlower⟩ := hr.lowerBound_ok hk hsorted hv.typed he (by
      intro a b hka hkb _ _ hab hbv
      exact compareKeys_trans hk hka hkb hv hab hbv)
    obtain ⟨front', back, hupper⟩ := upperBound_ok hr hk hsorted hv he
    obtain ⟨hr', hsorted'⟩ := erased_spec hr hk hsorted hv he hlower hupper
    refine ⟨stlOrdered { ix with data := front ++ back }, ?_, hschema, hr', hsorted'⟩
    simp only [deleteEntry, STLOrderedIndex.deleteEntry, hkey, ok_bind, hschema, hlower, hupper]
    rfl
  | stlUnordered ix =>
    obtain ⟨hschema, hr⟩ := hh
    have hfind := STLUnorderedIndex.matching_holds hschema hk hr hv he
    simp only [deleteEntry, STLUnorderedIndex.deleteEntry, hkey, ok_bind, hfind, entryOf]
    cases hm : m values with
    | none =>
      refine ⟨stlUnordered ix, rfl, hschema, ?_⟩
      rw [← hm, Function.update_eq_self]
      exact hr
    | some rid =>
      refine ⟨stlUnordered { ix with data := ix.data.erase (key, rid) }, rfl, hschema, ?_⟩
      refine hr.remove hk hv he (hr.nodup.erase _) ?_
      intro e
      rw [hr.nodup.mem_erase_iff, and_comm]
      refine and_congr_right fun hin => not_congr ?_
      constructor
      · rintro rfl
        rfl
      · intro heq
        obtain ⟨vs, henc, hmv⟩ := (hr.entries e.1 e.2).mp hin
        rw [heq] at henc
        rw [henc.values_eq hk (hr.keys vs e.2 hmv) hv he, hm] at hmv
        rw [← heq, Option.some.inj hmv]
  | bPlusTree _ => exact hh.elim

end Deletes

/-! ## Runs -/

section Runs

variable {keySize : ℕ} {keyCols : List Column} {m : List Value → Option RID} {index : Index keySize}

/-- **A call answers what the map does**, and leaves an index that holds the new map. -/
theorem serve_holds (hk : IntegerKey keySize keyCols) (hh : index.Holds keyCols m) (call : KeyCall)
    (hv : KeyValues keyCols call.key) :
    ∃ index', serve (.create keyCols) index call = .ok ((mapStep m call).1, index') ∧
      index'.Holds keyCols (mapStep m call).2 := by
  obtain ⟨t, hof, -⟩ := hk.encodes hv.typed
  cases call with
  | insertEntry values rid =>
    obtain ⟨index', hinsert, hh'⟩ := Index.insertEntry_holds hk hh hv hof rid
    refine ⟨index', ?_, hh'⟩
    simp only [serve, hof, ok_bind, hinsert]
    rfl
  | deleteEntry values rid =>
    obtain ⟨index', hdelete, hh'⟩ := Index.deleteEntry_holds hk hh hv hof
    refine ⟨index', ?_, hh'⟩
    simp only [serve, hof, ok_bind, hdelete]
    rfl
  | scanKey values =>
    refine ⟨index, ?_, hh⟩
    simp only [serve, hof, ok_bind, Index.scanKey_holds hk hh hv hof]
    rfl

/-- A run answers what the map does. -/
theorem run_holds (hk : IntegerKey keySize keyCols) : ∀ (calls : List KeyCall) (m : List Value → Option RID)
    (index : Index keySize), index.Holds keyCols m → (∀ call ∈ calls, KeyValues keyCols call.key) →
      ∃ index', run (serve (.create keyCols)) index calls = .ok (mapAnswers m calls, index')
  | [], _, index, _, _ => ⟨index, rfl⟩
  | call :: calls, m, index, hh, hcalls => by
    obtain ⟨index1, h1, hh1⟩ := serve_holds hk hh call (hcalls call (List.mem_cons_self ..))
    obtain ⟨index2, h2⟩ := run_holds hk calls _ index1 hh1 fun c hc => hcalls c (List.mem_cons_of_mem _ hc)
    exact ⟨index2, run_cons_eq_ok.mpr ⟨_, index1, _, h1, h2, rfl⟩⟩

/-- **The ordered and the unordered index agree.**  For all key columns of integer types that fit the key, every hash
function and every sequence of calls with keys of the columns' types and without NULLs: starting empty, both indexes
answer every call, and answer what the partial map does. -/
theorem indexes_agree (hk : IntegerKey keySize keyCols) (metadata : IndexMetadata)
    (hschema : metadata.keySchema = .create keyCols) (hashFn : GenericKey keySize → UInt64) (calls : List KeyCall)
    (hcalls : ∀ call ∈ calls, KeyValues keyCols call.key) :
    (∃ index, run (serve (.create keyCols)) (.stlOrdered ⟨metadata, []⟩ : Index keySize) calls =
      .ok (mapAnswers (fun _ => none) calls, index)) ∧
    ∃ index, run (serve (.create keyCols)) (.stlUnordered ⟨metadata, hashFn, []⟩ : Index keySize) calls =
      .ok (mapAnswers (fun _ => none) calls, index) := by
  constructor
  · exact run_holds hk calls _ _ ⟨hschema, represents_nil keyCols, .nil⟩ hcalls
  · exact run_holds hk calls _ _ ⟨hschema, represents_nil keyCols⟩ hcalls

/-- A key of an `INTEGER` and a `SMALLINT`. -/
def pairColumns : List Column :=
  [.fixed "a" .integer 4 integer_fixed integer_size, .fixed "b" .smallint 2 smallint_fixed smallint_size]

/-- The key `(1, 2)` twice, looked up before and after it is deleted. -/
def pairCalls : List KeyCall :=
  [.insertEntry [.integer 1, .smallint 2] ⟨0, 0⟩, .insertEntry [.integer 1, .smallint 2] ⟨0, 1⟩,
    .scanKey [.integer 1, .smallint 2], .deleteEntry [.integer 1, .smallint 2] ⟨0, 0⟩,
    .scanKey [.integer 1, .smallint 2]]

theorem indexes_agree_pair :
    mapAnswers (fun _ => none) pairCalls =
      [.inserted true, .inserted false, .scanned [⟨0, 0⟩], .deleted, .scanned []] ∧
    ∃ index, run (serve (.create pairColumns))
      (.stlUnordered ⟨⟨"i", "t", [0, 1], false, .create pairColumns⟩, fun _ => 0, []⟩ : Index 8) pairCalls =
        .ok (mapAnswers (fun _ => none) pairCalls, index) := by
  have hk : IntegerKey 8 pairColumns := ⟨by decide, by decide, by decide⟩
  refine ⟨by decide, (indexes_agree hk _ rfl (fun _ => 0) pairCalls ?_).2⟩
  intro call hcall
  have hkey : call.key = [.integer 1, .smallint 2] := by
    simp only [pairCalls, List.mem_cons, List.not_mem_nil, or_false] at hcall
    rcases hcall with rfl | rfl | rfl | rfl | rfl <;> rfl
  rw [hkey]
  exact ⟨rfl, by decide⟩

end Runs

end Journey.Storage
