import Journey.Bustub.Storage.Index
import Journey.Lib.Gaps

/-!
# Journey.Bustub.Storage.KeyOrder — what keys `GenericComparator` can sort

The comparator goes through the columns and stops at the first that is less or greater.  A NULL is neither, and
neither is a `double` that is not a number: with them, columns are lists with gaps.

* `Value.rank`: what a value is compared by, if it is compared at all.
* `genericComparator_ranks`: the comparator compares the ranks of the columns.
* `SortsKeys`: what `std::map` asks of the comparator.
* `sortsKeys_iff`: it is so for keys without gaps; with gaps, if the later columns make up for them.
-/

namespace Journey.Storage

open SqlType Catalog

/-! ## Ranks -/

section Ranks

open Float.Model

/-- What a `double` is compared by. -/
def unpackedRank : UnpackedFloat → Option (List Int)
  | .notANumber => none
  | .infinity .negative => some [-2]
  | .finite .negative m e _ => some [-1, -e, -m]
  | .zero _ => some [0]
  | .finite .positive m e _ => some [1, e, m]
  | .infinity .positive => some [2]

/-- **What a value is compared by**; nothing if it is NULL or not a number. -/
def rank (v : Value) : Option (List Int) :=
  if v.isNull then none
  else
    match v with
    | .boolean i => some [i.toInt]
    | .tinyint i => some [i.toInt]
    | .smallint i => some [i.toInt]
    | .integer i => some [i.toInt]
    | .bigint i => some [i.toInt]
    | .decimal bits => unpackedRank (Float.ofBits bits).toModel.unpack
    | .varchar (some data) => some (data.1.dropLast.map fun b => (b.toNat : Int))
    | _ => none

/-- Two values of one type can be compared: there are no comparisons of `TIMESTAMP` and `VECTOR`, and a string has
to have its terminator. -/
def CanCompare : Value → Value → Prop
  | .varchar (some l), .varchar (some r) =>
    1 ≤ l.1.length ∧ l.1.length ≤ 2 ^ 31 ∧ 1 ≤ r.1.length ∧ r.1.length ≤ 2 ^ 31
  | .invalid, _ => False
  | .timestamp _, _ => False
  | .vector _, _ => False
  | _, _ => True

theorem compare_neg (a b : Int) : compare (-a) (-b) = (compare a b).swap := by
  rw [← Std.OrientedOrd.eq_swap (a := b) (b := a)]
  simp only [compare, compareOfLessAndEq]
  split_ifs <;> first | rfl | omega

theorem compare_cast (m n : ℕ) : compare (m : Int) (n : Int) = compare m n := by
  simp only [compare, compareOfLessAndEq]
  split_ifs <;> first | rfl | omega

/-- `double`s are compared by their ranks. -/
theorem compare_unpacked (u w : UnpackedFloat) :
    u.compare w = (unpackedRank u).bind fun a => (unpackedRank w).map (compare a) := by
  cases u with
  | notANumber => rfl
  | infinity s =>
    cases w with
    | notANumber => cases s <;> rfl
    | infinity t => cases s <;> cases t <;> rfl
    | zero t => cases s <;> rfl
    | finite t n f _ => cases s <;> cases t <;> rfl
  | zero s =>
    cases w with
    | infinity t => cases t <;> rfl
    | finite t n f _ => cases t <;> rfl
    | _ => rfl
  | finite s m e _ =>
    cases w with
    | notANumber => cases s <;> rfl
    | infinity t => cases s <;> cases t <;> rfl
    | zero t => cases s <;> rfl
    | finite t n f _ =>
      cases s with
      | positive =>
        cases t with
        | positive =>
          show some ((compare e f).then (compare m n)) = some (compare [1, e, (m : Int)] [1, f, (n : Int)])
          simp [List.compare_cons_cons, compare_cast]
        | negative => rfl
      | negative =>
        cases t with
        | positive => rfl
        | negative =>
          show some ((compare e f).then (compare m n)).swap = some (compare [-1, -e, -(m : Int)] [-1, -f, -(n : Int)])
          simp [List.compare_cons_cons, compare_neg, compare_cast, Ordering.swap_then]

end Ranks

/-! ## Columns -/

section Columns

variable {v w : Value} {op : ComparisonType} {o : Ordering}

theorem compare_bytes : ∀ l r : List UInt8,
    compare (l.map fun b => (b.toNat : Int)) (r.map fun b => (b.toNat : Int)) = List.compareLex compare l r
  | [], [] => rfl
  | [], _ :: _ => rfl
  | _ :: _, [] => rfl
  | b :: l, c :: r => by
    have hbyte : compare b.toNat c.toNat = compare b c := by
      simp only [compare, compareOfLessAndEq, UInt8.lt_iff_toNat_lt, ← UInt8.toNat_inj]
    rw [List.map_cons, List.map_cons, List.compare_cons_cons, compare_bytes l r, compare_cast, hbyte,
      List.compareLex_cons_cons]

/-- The less of the comparator and its greater, with the ordering that they find. -/
def Finds (op : ComparisonType) (o : Ordering) : Prop :=
  op = .lessThan ∧ o = .lt ∨ op = .greaterThan ∧ o = .gt

theorem Finds.ne_eq (hop : Finds op o) : o ≠ .eq := by
  rcases hop with ⟨-, rfl⟩ | ⟨-, rfl⟩ <;> nofun

theorem Finds.holds_iff (hop : Finds op o) (o' : Ordering) : getCmpBool (op.holds o') = .cmpTrue ↔ o' = o := by
  rcases hop with ⟨rfl, rfl⟩ | ⟨rfl, rfl⟩ <;> cases o' <;> decide

/-- `double`s: the operators of C++ are false if one is not a number. -/
theorem Finds.onDouble_iff (hop : Finds op o) (x y : Float) :
    op.onDouble x y = .cmpTrue ↔ gapCompare (unpackedRank x.toModel.unpack) (unpackedRank y.toModel.unpack) = o := by
  have hlt : ∀ a b : Float, a < b ↔
      gapCompare (unpackedRank a.toModel.unpack) (unpackedRank b.toModel.unpack) = .lt := by
    intro a b
    show decide (((a.toModel.unpack).compare b.toModel.unpack == some .lt) = true) = true ↔ _
    rw [compare_unpacked]
    cases unpackedRank a.toModel.unpack <;> cases unpackedRank b.toModel.unpack <;> simp [gapCompare]
  rcases hop with ⟨rfl, rfl⟩ | ⟨rfl, rfl⟩
  · rw [← hlt]
    simp [ComparisonType.onDouble, ComparisonType.holdsDouble, getCmpBool]
  · rw [gapCompare_swap, Ordering.swap_eq_gt, ← hlt]
    simp [ComparisonType.onDouble, ComparisonType.holdsDouble, getCmpBool]

/-- Numbers of one type. -/
theorem Finds.onInt_iff (hop : Finds op o) (m n : Int) :
    op.onInt m n = .cmpTrue ↔ gapCompare (some [m]) (some [n]) = o := by
  have hlist : compare [m] [n] = compare m n := by
    rw [List.compare_cons_cons]
    cases compare m n <;> rfl
  unfold ComparisonType.onInt gapCompare
  dsimp only
  rw [hop.holds_iff, hlist]

theorem rank_null (h : v.isNull = true) : rank v = none := if_pos h

theorem checkComparable_of_canCompare (htype : w.getTypeId = v.getTypeId) (hcan : CanCompare v w) :
    v.checkComparable w = true := by
  unfold Value.checkComparable
  rw [htype]
  cases v <;> first | rfl | exact hcan.elim

/-- A NULL is neither less nor greater. -/
theorem compare_null (hop : Finds op o) (htype : w.getTypeId = v.getTypeId) (hcan : CanCompare v w)
    (hnull : v.isNull = true ∨ w.isNull = true) : v.compare op w = .ok .cmpNull ∧ gapCompare (rank v) (rank w) ≠ o := by
  constructor
  · have hcheck := checkComparable_of_canCompare htype hcan
    have hcomparable : ∀ body, Value.comparable v w body = .ok .cmpNull := by
      intro body
      simp [Value.comparable, hcheck, hnull]
    cases v <;> first | exact hcomparable _ | exact hcan.elim
  · have hgap : gapCompare (rank v) (rank w) = .eq := by
      rcases hnull with h | h
      · rw [rank_null h]
        rfl
      · rw [rank_null h]
        cases rank v <;> rfl
    rw [hgap]
    exact hop.ne_eq.symm

/-- **A column is less or greater by the ranks of its values.** -/
theorem compare_rank (hop : Finds op o) (htype : w.getTypeId = v.getTypeId) (hcan : CanCompare v w) :
    ∃ c, v.compare op w = .ok c ∧ (c = .cmpTrue ↔ gapCompare (rank v) (rank w) = o) := by
  by_cases hnull : v.isNull = true ∨ w.isNull = true
  · obtain ⟨hc, hne⟩ := compare_null hop htype hcan hnull
    exact ⟨.cmpNull, hc, nofun, fun h => absurd h hne⟩
  obtain ⟨hv, hw⟩ := not_or.mp hnull
  have hcheck := checkComparable_of_canCompare htype hcan
  have hbody : ∀ body, Value.comparable v w body = body := by
    intro body
    simp [Value.comparable, hcheck, hv, hw]
  have hrank : ∀ {a b : Option (List Int)}, rank v = a → rank w = b → ∀ {c : CmpBool},
      (c = .cmpTrue ↔ gapCompare a b = o) → (c = .cmpTrue ↔ gapCompare (rank v) (rank w) = o) := by
    rintro _ _ rfl rfl c h
    exact h
  cases v with
  | boolean i =>
    cases w with
    | boolean j => exact ⟨_, hbody _, hrank (if_neg hv) (if_neg hw) (hop.onInt_iff _ _)⟩
    | _ => cases htype
  | tinyint i =>
    cases w with
    | tinyint j => exact ⟨_, hbody _, hrank (if_neg hv) (if_neg hw) (hop.onInt_iff _ _)⟩
    | _ => cases htype
  | smallint i =>
    cases w with
    | smallint j => exact ⟨_, hbody _, hrank (if_neg hv) (if_neg hw) (hop.onInt_iff _ _)⟩
    | _ => cases htype
  | integer i =>
    cases w with
    | integer j => exact ⟨_, hbody _, hrank (if_neg hv) (if_neg hw) (hop.onInt_iff _ _)⟩
    | _ => cases htype
  | bigint i =>
    cases w with
    | bigint j => exact ⟨_, hbody _, hrank (if_neg hv) (if_neg hw) (hop.onInt_iff _ _)⟩
    | _ => cases htype
  | decimal bits =>
    cases w with
    | decimal bits' => exact ⟨_, hbody _, hrank (if_neg hv) (if_neg hw) (hop.onDouble_iff _ _)⟩
    | _ => cases htype
  | varchar data =>
    cases w with
    | varchar data' =>
      cases data with
      | none => exact absurd rfl hv
      | some l =>
        cases data' with
        | none => exact absurd rfl hw
        | some r =>
          have hstrings : compareStrings (some l) (some r) = .ok (List.compareLex compare l.1.dropLast r.1.dropLast) :=
            if_pos hcan
          refine ⟨getCmpBool (op.holds (List.compareLex compare l.1.dropLast r.1.dropLast)), ?_, ?_⟩
          · refine (hbody _).trans ?_
            show (compareStrings (some l) (some r) >>= _) = _
            rw [hstrings]
            rfl
          · refine hrank (if_neg hv) (if_neg hw) ?_
            rw [hop.holds_iff]
            unfold gapCompare
            dsimp only
            rw [compare_bytes]
    | _ => cases htype
  | _ => exact hcan.elim

/-- What cannot be compared is not. -/
theorem compare_error (op : ComparisonType) (htype : w.getTypeId = v.getTypeId) (hcan : ¬CanCompare v w) :
    ∃ e, v.compare op w = .error e := by
  cases v with
  | varchar data =>
    cases w with
    | varchar data' =>
      cases data with
      | none => exact absurd trivial hcan
      | some l =>
        cases data' with
        | none => exact absurd trivial hcan
        | some r =>
          have hstrings : compareStrings (some l) (some r) = .error .assertion := if_neg hcan
          have hcomparable : ∀ body, Value.comparable (.varchar (some l)) (.varchar (some r)) body = body := by
            intro body
            have hl : Value.isNull (.varchar (some l)) = false := beq_eq_false_iff_ne.mpr (varlenLen_ne_null l)
            have hr : Value.isNull (.varchar (some r)) = false := beq_eq_false_iff_ne.mpr (varlenLen_ne_null r)
            have hcheck : Value.checkComparable (.varchar (some l)) (.varchar (some r)) = true := rfl
            simp [Value.comparable, hcheck, hl, hr]
          refine ⟨.assertion, (hcomparable _).trans ?_⟩
          show (compareStrings (some l) (some r) >>= _) = _
          rw [hstrings]
          rfl
    | _ => cases htype
  | invalid => exact ⟨_, rfl⟩
  | timestamp i => exact ⟨_, rfl⟩
  | vector data => exact ⟨_, rfl⟩
  | _ => exact absurd trivial hcan

end Columns

/-! ## The comparator -/

section Comparator

variable {keySize : ℕ} {cols : List Column} {values values' : List Value} {key key' : GenericKey keySize}

/-- What the columns of a row are compared by. -/
def ranks (values : List Value) : List (Option (List Int)) := values.map rank

/-- The columns of two rows can be compared, up to the first that tells them apart. -/
def Meet : List Value → List Value → Prop
  | v :: vs, w :: ws => CanCompare v w ∧ (gapCompare (rank v) (rank w) = .eq → Meet vs ws)
  | _, _ => True

/-- One round of the loop, on the values of the column. -/
theorem compareColumns_cons {v w : Value} {i : ℕ} {columns : List ℕ} (hv : key.toValue (.create cols) i = .ok v)
    (hw : key'.toValue (.create cols) i = .ok w) (htype : w.getTypeId = v.getTypeId) (hcan : CanCompare v w) :
    compareColumns (.create cols) key key' (i :: columns) =
      match gapCompare (rank v) (rank w) with
      | .lt => .ok (-1)
      | .gt => .ok 1
      | .eq => compareColumns (.create cols) key key' columns := by
  obtain ⟨less, hless, hlt⟩ := compare_rank (.inl ⟨rfl, rfl⟩) htype hcan
  obtain ⟨greater, hgreater, hgt⟩ := compare_rank (.inr ⟨rfl, rfl⟩) htype hcan
  rw [compareColumns, hv, hw, ok_bind, ok_bind]
  unfold Value.compareLessThan Value.compareGreaterThan
  rw [hless, hgreater, ok_bind, ok_bind]
  cases hord : gapCompare (rank v) (rank w) with
  | lt => rw [if_pos (hlt.mpr hord)]; rfl
  | gt =>
    have hne : less ≠ .cmpTrue := by
      intro h
      rw [hlt.mp h] at hord
      cases hord
    rw [if_neg hne, if_pos (hgt.mpr hord)]
    rfl
  | eq =>
    have hne : less ≠ .cmpTrue := by
      intro h
      rw [hlt.mp h] at hord
      cases hord
    have hne' : greater ≠ .cmpTrue := by
      intro h
      rw [hgt.mp h] at hord
      cases hord
    rw [if_neg hne, if_neg hne']

/-- The loop, from column `i` on. -/
theorem compareColumns_ranks (hf : FitsKey keySize cols values) (hf' : FitsKey keySize cols values')
    (he : Encodes cols values key) (he' : Encodes cols values' key') :
    ∀ k i, i + k = cols.length →
      (Meet (values.drop i) (values'.drop i) → compareColumns (.create cols) key key' (List.range' i k) =
        .ok (signOf (lexGaps (ranks (values.drop i)) (ranks (values'.drop i))))) ∧
      (¬Meet (values.drop i) (values'.drop i) →
        ∃ e, compareColumns (.create cols) key key' (List.range' i k) = .error e)
  | 0, i, hi => by
    have hlen := hf.typed.length_eq
    rw [List.drop_eq_nil_of_le (by omega : values.length ≤ i)]
    exact ⟨fun _ => rfl, fun h => absurd trivial h⟩
  | k + 1, i, hi => by
    have hlen := hf.typed.length_eq
    have hlen' := hf'.typed.length_eq
    have hl : i < values.length := by omega
    have hr : i < values'.length := by omega
    obtain ⟨c, hc, htype⟩ := hf.typed.column_at (List.getElem?_eq_getElem hl)
    obtain ⟨c', hc', htype'⟩ := hf'.typed.column_at (List.getElem?_eq_getElem hr)
    rw [hc] at hc'
    cases hc'
    have hsame : values'[i].getTypeId = values[i].getTypeId := by rw [htype, htype']
    have hv := hf.toValue_eq he (List.getElem?_eq_getElem hl)
    have hw := hf'.toValue_eq he' (List.getElem?_eq_getElem hr)
    have hrec := compareColumns_ranks hf hf' he he' k (i + 1) (by omega)
    rw [List.drop_eq_getElem_cons hl, List.drop_eq_getElem_cons hr, List.range'_succ]
    by_cases hcan : CanCompare values[i] values'[i]
    · rw [compareColumns_cons hv hw hsame hcan]
      show (_ ∧ _ → _ = Except.ok (signOf ((gapCompare _ _).then (lexGaps (ranks _) (ranks _))))) ∧ (¬(_ ∧ _) → _)
      cases hord : gapCompare (rank values[i]) (rank values'[i]) with
      | lt => exact ⟨fun _ => rfl, fun h => absurd ⟨hcan, nofun⟩ h⟩
      | gt => exact ⟨fun _ => rfl, fun h => absurd ⟨hcan, nofun⟩ h⟩
      | eq =>
        refine ⟨fun h => hrec.1 (h.2 rfl), fun h => hrec.2 ?_⟩
        intro hmeet
        exact h ⟨hcan, fun _ => hmeet⟩
    · refine ⟨fun h => absurd h.1 hcan, fun _ => ?_⟩
      obtain ⟨e, he⟩ := compare_error .lessThan hsame hcan
      refine ⟨e, ?_⟩
      rw [compareColumns, hv, hw, ok_bind, ok_bind]
      unfold Value.compareLessThan
      rw [he]
      rfl

/-- **The comparator compares the ranks**, if the rows meet in columns that can be compared. -/
theorem genericComparator_ranks (hf : FitsKey keySize cols values) (hf' : FitsKey keySize cols values')
    (he : Encodes cols values key) (he' : Encodes cols values' key') (hmeet : Meet values values') :
    genericComparator (.create cols) key key' = .ok (signOf (lexGaps (ranks values) (ranks values'))) := by
  unfold genericComparator
  rw [hf.count, List.range_eq_range']
  exact (compareColumns_ranks hf hf' he he' cols.length 0 (by omega)).1 hmeet

/-- It does not return if they do not. -/
theorem genericComparator_error (hf : FitsKey keySize cols values) (hf' : FitsKey keySize cols values')
    (he : Encodes cols values key) (he' : Encodes cols values' key') (hmeet : ¬Meet values values') :
    ∃ e, genericComparator (.create cols) key key' = .error e := by
  unfold genericComparator
  rw [hf.count, List.range_eq_range']
  exact (compareColumns_ranks hf hf' he he' cols.length 0 (by omega)).2 hmeet

end Comparator

/-! ## Sorting -/

section Sorting

variable {keySize : ℕ} {cols : List Column} {rows : Set (List Value)}

/-- `comparator(a, b) < 0`. -/
def KeyLess (keySchema : Schema) (a b : GenericKey keySize) : Prop := ∃ r < 0, genericComparator keySchema a b = .ok r

/-- `comparator(a, b) == 0`. -/
def KeyTie (keySchema : Schema) (a b : GenericKey keySize) : Prop := genericComparator keySchema a b = .ok 0

/-- **What a map asks of the comparator**, for the keys that it is given. -/
structure SortsKeys (keySchema : Schema) (keys : Set (GenericKey keySize)) : Prop where
  returns : ∀ a ∈ keys, ∀ b ∈ keys, ∃ r, genericComparator keySchema a b = .ok r
  irrefl : ∀ a ∈ keys, ¬KeyLess keySchema a a
  asymm : ∀ a ∈ keys, ∀ b ∈ keys, KeyLess keySchema a b → ¬KeyLess keySchema b a
  trans : ∀ a ∈ keys, ∀ b ∈ keys, ∀ c ∈ keys, KeyLess keySchema a b → KeyLess keySchema b c → KeyLess keySchema a c
  ties : ∀ a ∈ keys, ∀ b ∈ keys, ∀ c ∈ keys, KeyTie keySchema a b → KeyTie keySchema b c → KeyTie keySchema a c
  opposite : ∀ a ∈ keys, ∀ b ∈ keys, ∀ r, genericComparator keySchema a b = .ok r →
    genericComparator keySchema b a = .ok (-r)

/-- The keys made from the rows. -/
def keysOf (keySize : ℕ) (cols : List Column) (rows : Set (List Value)) : Set (GenericKey keySize) :=
  { key | ∃ values ∈ rows, Encodes cols values key }

theorem signOf_swap (o : Ordering) : signOf o.swap = -signOf o := by cases o <;> rfl

/-- Rows that meet, and what the comparator says about their keys. -/
theorem keyLess_iff {values values' : List Value} {key key' : GenericKey keySize} (hf : FitsKey keySize cols values)
    (hf' : FitsKey keySize cols values') (he : Encodes cols values key) (he' : Encodes cols values' key')
    (hmeet : Meet values values') :
    (KeyLess (.create cols) key key' ↔ lexGaps (ranks values) (ranks values') = .lt) ∧
      (KeyTie (.create cols) key key' ↔ lexGaps (ranks values) (ranks values') = .eq) := by
  unfold KeyLess KeyTie
  rw [genericComparator_ranks hf hf' he he' hmeet]
  cases lexGaps (ranks values) (ranks values') <;> simp [signOf]

/-- The order of the keys is that of the ranks. -/
theorem sortsKeys_iff_weakOn (hrows : ∀ values ∈ rows, FitsKey keySize cols values)
    (hmeet : ∀ a ∈ rows, ∀ b ∈ rows, Meet a b) :
    SortsKeys (.create cols) (keysOf keySize cols rows) ↔ WeakOn lexGaps (ranks '' rows) := by
  have hkey : ∀ values ∈ rows, ∃ key : GenericKey keySize, Encodes cols values key := by
    intro values hv
    obtain ⟨t, hof, key, hkey, -⟩ := (hrows values hv).encodes
    exact ⟨key, t, hof, hkey⟩
  have hiff : ∀ a ∈ rows, ∀ b ∈ rows, ∀ {ka kb : GenericKey keySize}, Encodes cols a ka → Encodes cols b kb →
      (KeyLess (.create cols) ka kb ↔ lexGaps (ranks a) (ranks b) = .lt) ∧
        (KeyTie (.create cols) ka kb ↔ lexGaps (ranks a) (ranks b) = .eq) := by
    intro a ha b hb ka kb hka hkb
    exact keyLess_iff (hrows a ha) (hrows b hb) hka hkb (hmeet a ha b hb)
  constructor
  · intro h
    constructor
    · rintro _ ⟨a, ha, rfl⟩ _ ⟨b, hb, rfl⟩ _ ⟨c, hc, rfl⟩ hab hbc
      obtain ⟨ka, hka⟩ := hkey a ha
      obtain ⟨kb, hkb⟩ := hkey b hb
      obtain ⟨kc, hkc⟩ := hkey c hc
      have hless := h.trans ka ⟨a, ha, hka⟩ kb ⟨b, hb, hkb⟩ kc ⟨c, hc, hkc⟩ ((hiff a ha b hb hka hkb).1.mpr hab)
        ((hiff b hb c hc hkb hkc).1.mpr hbc)
      exact (hiff a ha c hc hka hkc).1.mp hless
    · rintro _ ⟨a, ha, rfl⟩ _ ⟨b, hb, rfl⟩ _ ⟨c, hc, rfl⟩ hab hbc
      obtain ⟨ka, hka⟩ := hkey a ha
      obtain ⟨kb, hkb⟩ := hkey b hb
      obtain ⟨kc, hkc⟩ := hkey c hc
      have htie := h.ties ka ⟨a, ha, hka⟩ kb ⟨b, hb, hkb⟩ kc ⟨c, hc, hkc⟩ ((hiff a ha b hb hka hkb).2.mpr hab)
        ((hiff b hb c hc hkb hkc).2.mpr hbc)
      exact (hiff a ha c hc hka hkc).2.mp htie
  · intro h
    constructor
    · rintro ka ⟨a, ha, hka⟩ kb ⟨b, hb, hkb⟩
      exact ⟨_, genericComparator_ranks (hrows a ha) (hrows b hb) hka hkb (hmeet a ha b hb)⟩
    · rintro ka ⟨a, ha, hka⟩
      rw [(hiff a ha a ha hka hka).1, lexGaps_self]
      nofun
    · rintro ka ⟨a, ha, hka⟩ kb ⟨b, hb, hkb⟩
      rw [(hiff a ha b hb hka hkb).1, (hiff b hb a ha hkb hka).1, lexGaps_swap (ranks a) (ranks b)]
      intro hab
      rw [hab]
      nofun
    · rintro ka ⟨a, ha, hka⟩ kb ⟨b, hb, hkb⟩ kc ⟨c, hc, hkc⟩
      rw [(hiff a ha b hb hka hkb).1, (hiff b hb c hc hkb hkc).1, (hiff a ha c hc hka hkc).1]
      exact h.trans _ ⟨a, ha, rfl⟩ _ ⟨b, hb, rfl⟩ _ ⟨c, hc, rfl⟩
    · rintro ka ⟨a, ha, hka⟩ kb ⟨b, hb, hkb⟩ kc ⟨c, hc, hkc⟩
      rw [(hiff a ha b hb hka hkb).2, (hiff b hb c hc hkb hkc).2, (hiff a ha c hc hka hkc).2]
      exact h.ties _ ⟨a, ha, rfl⟩ _ ⟨b, hb, rfl⟩ _ ⟨c, hc, rfl⟩
    · rintro ka ⟨a, ha, hka⟩ kb ⟨b, hb, hkb⟩ r hr
      rw [genericComparator_ranks (hrows a ha) (hrows b hb) hka hkb (hmeet a ha b hb)] at hr
      cases hr
      rw [genericComparator_ranks (hrows b hb) (hrows a ha) hkb hka (hmeet b hb a ha), lexGaps_swap (ranks a),
        signOf_swap]

theorem length_ranks (hrows : ∀ values ∈ rows, FitsKey keySize cols values) :
    ∀ xs ∈ ranks '' rows, xs.length = cols.length := by
  rintro _ ⟨values, hv, rfl⟩
  rw [ranks, List.length_map, (hrows values hv).typed.length_eq]

/-- **Rows that can be compared, without NULLs and without `double`s that are not numbers, are sorted.** -/
theorem sortsKeys_of_ranked (hrows : ∀ values ∈ rows, FitsKey keySize cols values)
    (hmeet : ∀ a ∈ rows, ∀ b ∈ rows, Meet a b) (hranked : ∀ values ∈ rows, ∀ v ∈ values, rank v ≠ none) :
    SortsKeys (.create cols) (keysOf keySize cols rows) := by
  rw [sortsKeys_iff_weakOn hrows hmeet, weakOn_lexGaps_iff (length_ranks hrows)]
  rintro _ - _ ⟨values, hv, rfl⟩ _ -
  refine gapTold_of_some ?_
  intro y hy
  obtain ⟨v, hmem, rfl⟩ := List.mem_map.mp hy
  exact hranked values hv v hmem

/-- **The comparator can be sorted by exactly if the rows can be compared and every gap is told**: where a NULL, or a
`double` that is not a number, stands between two values that differ, the columns after it put it behind the row of
the smaller or before that of the larger. -/
theorem sortsKeys_iff (hrows : ∀ values ∈ rows, FitsKey keySize cols values) :
    SortsKeys (.create cols) (keysOf keySize cols rows) ↔
      (∀ a ∈ rows, ∀ b ∈ rows, Meet a b) ∧
        ∀ a ∈ rows, ∀ b ∈ rows, ∀ c ∈ rows, GapTold (ranks a) (ranks b) (ranks c) := by
  have htold : (∀ a ∈ rows, ∀ b ∈ rows, Meet a b) → (SortsKeys (.create cols) (keysOf keySize cols rows) ↔
      ∀ a ∈ rows, ∀ b ∈ rows, ∀ c ∈ rows, GapTold (ranks a) (ranks b) (ranks c)) := by
    intro hmeet
    rw [sortsKeys_iff_weakOn hrows hmeet, weakOn_lexGaps_iff (length_ranks hrows)]
    simp only [Set.forall_mem_image]
  constructor
  · intro h
    have hmeet : ∀ a ∈ rows, ∀ b ∈ rows, Meet a b := by
      intro a ha b hb
      by_contra hnot
      obtain ⟨t, hof, ka, hka, -⟩ := (hrows a ha).encodes
      obtain ⟨t', hof', kb, hkb, -⟩ := (hrows b hb).encodes
      obtain ⟨e, he⟩ := genericComparator_error (hrows a ha) (hrows b hb) ⟨t, hof, hka⟩ ⟨t', hof', hkb⟩ hnot
      obtain ⟨r, hr⟩ := h.returns ka ⟨a, ha, t, hof, hka⟩ kb ⟨b, hb, t', hof', hkb⟩
      rw [he] at hr
      cases hr
    exact ⟨hmeet, (htold hmeet).mp h⟩
  · rintro ⟨hmeet, h⟩
    exact (htold hmeet).mpr h

/-- Two `INTEGER` columns. -/
def pointColumns : List Column := [.fixed "x" .integer 4 integer_fixed integer_size, .fixed "y" .integer 4 integer_fixed integer_size]

/-- `(1, 1)`, `(NULL, 2)` and `(2, 3)`: the second column makes up for the gap in the first. -/
theorem sortsKeys_iff_points :
    SortsKeys (.create pointColumns) (keysOf 8 pointColumns
      {[.integer 1, .integer 1], [.integer int32Null, .integer 2], [.integer 2, .integer 3]}) := by
  refine (sortsKeys_iff ?_).mpr ⟨?_, ?_⟩
  · rintro values (rfl | rfl | rfl) <;> exact ⟨rfl, by decide, by decide⟩
  · rintro a (rfl | rfl | rfl) b (rfl | rfl | rfl) <;> simp [Meet, CanCompare]
  · rintro a (rfl | rfl | rfl) b (rfl | rfl | rfl) c (rfl | rfl | rfl) <;>
      refine ⟨fun _ _ _ => ⟨fun _ _ _ => trivial, ?_⟩, ?_⟩ <;> decide

/-- An `INTEGER` column. -/
def numberColumns : List Column := [.fixed "x" .integer 4 integer_fixed integer_size]

/-- `1` and `2` tie with NULL, but not with each other. -/
theorem comparator_ties_with_null : ¬ ∀ (cols : List Column) (rows : Set (List Value)),
    (∀ values ∈ rows, FitsKey 8 cols values) → SortsKeys (.create cols) (keysOf 8 cols rows) := by
  intro hclaim
  have hfits : ∀ values ∈ ({[.integer 1], [.integer int32Null], [.integer 2]} : Set (List Value)),
      FitsKey 8 numberColumns values := by
    rintro values (rfl | rfl | rfl) <;> exact ⟨rfl, by decide, by decide⟩
  have hmeet : ∀ i j : Int32, Meet [.integer i] [.integer j] := fun _ _ => ⟨trivial, fun _ => trivial⟩
  have hweak := (sortsKeys_iff_weakOn hfits (by rintro a (rfl | rfl | rfl) b (rfl | rfl | rfl) <;> exact hmeet _ _)).mp
    (hclaim _ _ hfits)
  have htie := hweak.ties (ranks [.integer 1]) ⟨_, by simp, rfl⟩ (ranks [.integer int32Null]) ⟨_, by simp, rfl⟩
    (ranks [.integer 2]) ⟨_, by simp, rfl⟩ (by decide) (by decide)
  exact absurd htie (by decide)

end Sorting

end Journey.Storage
