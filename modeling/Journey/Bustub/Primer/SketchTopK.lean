import Journey.Lib.Sorting
import Journey.Bustub.Primer.SketchRep

/-!
# Journey.Bustub.Primer.SketchTopK — `CountMinSketch::TopK`

`TopK` counts every candidate, sorts the pairs by count, the largest first, and cuts the vector off behind `k`
pairs.  `std::sort` is not stable: pairs with equal counts may come in any order, so the sort is an argument of the
model, any function that answers with one of the ways to sort its list.

* `topK`: the code's function.
* `Selects`: what an answer has to be, said of the candidates and their counts alone.
* `topK_selects`: after every sequence of calls, every answer of `TopK` is such a selection.
-/

namespace Journey.Sketch

variable {K : Type}

/-! ## The code's model -/

section Model

/-- The comparator of the sort: `a.second > b.second`. -/
def moreFrequent (a b : K × UInt32) : Bool := decide (b.2 < a.2)

/-- `result.emplace_back(candidate, Count(candidate))` for every candidate. -/
def candidateCounts (hash : ℕ → K → ℕ) (a : ℕ) (candidates : List K) (w : World) :
    Except Fault (List (K × UInt32)) :=
  candidates.mapM fun candidate => do
    let count ← count hash a candidate w
    return (candidate, count)

def topK (sort : List (K × UInt32) → List (K × UInt32)) (hash : ℕ → K → ℕ) (a : ℕ) (k : UInt16)
    (candidates : List K) (w : World) : Except Fault (List (K × UInt32)) := do
  let counts ← candidateCounts hash a candidates w
  let result := sort counts
  return if result.length > k.toNat then result.take k.toNat else result

end Model

/-! ## What a selection is -/

section Selection

/-- The answer has as many pairs as there may be, each a candidate and its count, in non-increasing order.  Its
candidates and the ones that are left out make up the list, so none is used more often than it occurs; nobody who is
left out has a larger count than one who is returned. -/
structure Selects (count : K → Except Fault UInt32) (k : ℕ) (candidates : List K) (result : List (K × UInt32)) :
    Prop where
  length : result.length = min k candidates.length
  counted : ∀ p ∈ result, count p.1 = .ok p.2
  descending : result.Pairwise fun p q => q.2 ≤ p.2
  leaves : ∃ leftOut : List K, (result.map Prod.fst ++ leftOut).Perm candidates ∧
    ∀ c ∈ leftOut, ∃ n, count c = .ok n ∧ ∀ p ∈ result, n ≤ p.2

/-- The comparator is an order up to ties, as `std::sort` asks of it. -/
theorem ranks_moreFrequent (xs : List (K × UInt32)) : Ranks moreFrequent xs := by
  constructor
  · intro a _ b _ hab
    unfold moreFrequent at *
    exact decide_eq_false (UInt32.lt_asymm (of_decide_eq_true hab))
  · intro a _ b _ c _ hab hbc
    unfold moreFrequent at *
    have hle : a.2 ≤ b.2 := UInt32.not_lt.mp (of_decide_eq_false hab)
    have hle' : b.2 ≤ c.2 := UInt32.not_lt.mp (of_decide_eq_false hbc)
    exact decide_eq_false (UInt32.not_lt.mpr (UInt32.le_trans hle hle'))

/-- A stable sort is one of the sorts there may be. -/
theorem mergeSort_mem_sortings (xs : List (K × UInt32)) :
    xs.mergeSort (fun p q => !moreFrequent q p) ∈ sortings moreFrequent xs := by
  refine ⟨List.mergeSort_perm xs _, fun _ => ?_⟩
  have hsorted : (xs.mergeSort fun p q => !moreFrequent q p).Pairwise fun p q => (!moreFrequent q p) = true := by
    refine List.pairwise_mergeSort ?_ ?_ xs
    · intro p q r hpq hqr
      simp only [moreFrequent, Bool.not_eq_true', decide_eq_false_iff_not, UInt32.not_lt] at *
      exact UInt32.le_trans hqr hpq
    · intro p q
      simp only [moreFrequent, Bool.or_eq_true, Bool.not_eq_true', decide_eq_false_iff_not, UInt32.not_lt]
      exact UInt32.le_total q.2 p.2
  refine hsorted.imp ?_
  intro p q hpq
  simpa using hpq

/-- A vector that `std::sort` has sorted is descending, whatever it did with the ties. -/
theorem descending_of_sorting {xs ys : List (K × UInt32)} (h : ys ∈ sortings moreFrequent xs) :
    ys.Pairwise fun p q => q.2 ≤ p.2 := by
  refine (h.2 (ranks_moreFrequent xs).exists_inOrder).imp ?_
  intro p q hpq
  exact UInt32.not_lt.mp (of_decide_eq_false hpq)

/-- The first `k` of a descending list of counted candidates are a selection. -/
theorem selects_take {count : K → Except Fault UInt32} {candidates : List K} {counts sorted : List (K × UInt32)}
    (hcounts : List.Forall₂ (fun c p => p.1 = c ∧ count c = .ok p.2) candidates counts)
    (hperm : sorted.Perm counts) (hdesc : sorted.Pairwise fun p q => q.2 ≤ p.2) (k : ℕ) :
    Selects count k candidates (sorted.take k) := by
  have hfst : (sorted.map Prod.fst).Perm candidates := by
    have heq : candidates = counts.map Prod.fst := by
      simpa using map_eq_of_forall₂ (f := id) (g := Prod.fst) (hcounts.imp fun c p h => h.1.symm)
    rw [heq]
    exact hperm.map _
  have hcounted : ∀ p ∈ sorted, count p.1 = .ok p.2 := by
    intro p hp
    obtain ⟨i, hi, rfl⟩ := List.getElem_of_mem (hperm.mem_iff.mp hp)
    obtain ⟨h1, h2⟩ := (List.forall₂_iff_get.mp hcounts).2 i (by rw [hcounts.length_eq]; exact hi) hi
    simp only [List.get_eq_getElem] at h1 h2
    rw [h1, h2]
  -- the sorted list falls into what is returned and what is not
  have hsplit := hdesc
  rw [← List.take_append_drop k sorted, List.pairwise_append] at hsplit
  obtain ⟨htake, -, hcross⟩ := hsplit
  refine ⟨?_, fun p hp => hcounted p (List.mem_of_mem_take hp), htake, (sorted.drop k).map Prod.fst, ?_, ?_⟩
  · rw [List.length_take, ← hfst.length_eq, List.length_map]
  · rw [← List.map_append, List.take_append_drop]
    exact hfst
  · intro c hc
    obtain ⟨q, hq, rfl⟩ := List.mem_map.mp hc
    exact ⟨q.2, hcounted q (List.mem_of_mem_drop hq), fun p hp => hcross p hp q hq⟩

end Selection

/-! ## `TopK` selects -/

section TopK

variable {hash : ℕ → K → ℕ} {a : ℕ} {candidates : List K} {w : World}

theorem candidateCounts_ok (h : ∀ c ∈ candidates, ∃ n, count hash a c w = .ok n) :
    ∃ counts, candidateCounts hash a candidates w = .ok counts := by
  unfold candidateCounts
  induction candidates with
  | nil => exact ⟨[], rfl⟩
  | cons c cs ih =>
    obtain ⟨n, hn⟩ := h c (by simp)
    obtain ⟨counts, hcounts⟩ := ih fun c' hc' => h c' (by simp [hc'])
    refine ⟨(c, n) :: counts, ?_⟩
    rw [List.mapM_cons, hn, hcounts]
    rfl

theorem candidateCounts_pairs {counts : List (K × UInt32)} (h : candidateCounts hash a candidates w = .ok counts) :
    List.Forall₂ (fun c p => p.1 = c ∧ count hash a c w = .ok p.2) candidates counts := by
  refine (forall₂_of_mapM_eq_ok h).imp ?_
  intro c p hp
  obtain ⟨n, hn, heq⟩ := bind_eq_ok.mp hp
  cases heq
  exact ⟨rfl, hn⟩

variable {sort : List (K × UInt32) → List (K × UInt32)}

/-- In every state in which `Count` answers for the candidates, `TopK` answers with a selection. -/
theorem topK_of_counts (hsort : ∀ xs, sort xs ∈ sortings moreFrequent xs) (k : UInt16)
    (h : ∀ c ∈ candidates, ∃ n, count hash a c w = .ok n) :
    ∃ result, topK sort hash a k candidates w = .ok result ∧
      Selects (fun c => count hash a c w) k.toNat candidates result := by
  obtain ⟨counts, hcounts⟩ := candidateCounts_ok h
  have hselects := selects_take (candidateCounts_pairs hcounts) (hsort counts).1
    (descending_of_sorting (hsort counts)) k.toNat
  refine ⟨(sort counts).take k.toNat, ?_, hselects⟩
  unfold topK
  rw [hcounts, ok_bind]
  show Except.ok (if (sort counts).length > k.toNat then _ else _) = _
  split_ifs with hlen
  · rfl
  · rw [List.take_of_length_le (by omega)]

/-- **`TopK` selects the most frequent candidates.**  After every sequence of calls on existing objects, for every
sketch among them, every `k`, every list of candidates and every order that the sort gives to ties, `TopK` answers
with a selection. -/
theorem topK_selects (hash : ℕ → K → ℕ) (junk : ℕ → ℕ → ℕ → UInt32) (ops : List (Op K)) (outs : List Out)
    (aw : AbsWorld K) (hops : run (astep hash) (fun _ => none) ops = .ok (outs, aw)) (a : ℕ) (o : AbsObj K)
    (ha : aw a = some o) (sort : List (K × UInt32) → List (K × UInt32))
    (hsort : ∀ xs, sort xs ∈ sortings moreFrequent xs) (k : UInt16) (candidates : List K) :
    ∃ w, run (step hash) (World.empty junk) ops = .ok (outs, w) ∧
      ∃ result, topK sort hash a k candidates w = .ok result ∧
        Selects (fun c => count hash a c w) k.toNat candidates result := by
  obtain ⟨w, hw, hR⟩ := run_sim (Rep hash)
    (fun w aw op out aw' h hs => step_rep h op hs) ops _ _ outs aw (rep_empty hash junk) hops
  exact ⟨w, hw, topK_of_counts hsort k fun c _ => ⟨_, count_rep hR ha c⟩⟩

/-- A sketch of width 3 and depth 2 that has seen one item twice, asked for two of four candidates. -/
theorem topK_selects_repeated :
    ∃ w, run (step fun i y => 7 * i + y) (World.empty fun _ _ _ => 77)
        [.construct 0 3 2, .insert 0 5, .insert 0 5, .insert 0 9] = .ok ([.unit, .unit, .unit, .unit], w) ∧
      ∃ result, topK (fun xs => xs.mergeSort fun p q => !moreFrequent q p) (fun i y => 7 * i + y) 0 2 [9, 5, 1, 5] w =
          .ok result ∧
        Selects (fun c => count (fun i y => 7 * i + y) 0 c w) 2 [9, 5, 1, 5] result :=
  topK_selects (fun i y => 7 * i + y) (fun _ _ _ => 77) [.construct 0 3 2, .insert 0 5, .insert 0 5, .insert 0 9] _ _ rfl
    0 _ rfl _ mergeSort_mem_sortings 2 [9, 5, 1, 5]

end TopK

end Journey.Sketch
