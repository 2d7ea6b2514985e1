import Journey.Bustub.Execution.Pipeline

/-!
# Journey.Bustub.Execution.Restart — Init in the middle of a run

`Init` of a Filter and of a Projection initializes the child, and nothing else: the child batch that was
fetched and the offset in there stay.

* `stale p s`: what the executors emit for the rows still held in child batches.
* `left_init`: after `Init` these come first, then the rows of the plan.
* `restart_iff`: a drain after `Init` gives the rows of the first drain exactly when nothing is stale.
-/

namespace Journey.Execution

open SqlType Catalog Storage

/-! ## Histories -/

section Histories

variable {schema : Schema}

/-- A call of the history. -/
inductive Call
  | init
  | next (batchSize : ℕ)

/-- The state after a call, whether it returns or throws. -/
def applyCall (p : Plan schema) (s : State p) : Call → State p
  | .init => init p s
  | .next batchSize => (next p batchSize s).state

/-- The state after a history of calls. -/
def afterCalls (p : Plan schema) (history : List Call) : State p := history.foldl (applyCall p) (create p)

/-- Draining from `s`, the `i`-th call for `sizes i` rows, ends with the given rows, or throws. -/
def Drains (p : Plan schema) (sizes : ℕ → ℕ) (s : State p) (rows : Option (List Row)) : Prop :=
  ∃ fuel, ∀ k ≥ fuel, ∃ result, drain (next p) sizes k 0 s [] = some result ∧ result.toOption = rows

/-- **A drain gives what is left.** -/
theorem drains_iff (p : Plan schema) {sizes : ℕ → ℕ} (hsizes : ∀ i, 0 < sizes i) (s : State p)
    (rows : Option (List Row)) : Drains p sizes s rows ↔ rows = left p s := by
  have hdrain : ∀ k ≥ pending p s + 1, ∃ result, drain (next p) sizes k 0 s [] = some result ∧
      result.toOption = left p s := by
    intro k hk
    obtain ⟨result, hres, heq⟩ := drain_spec (next_produces p) hsizes k 0 s [] (by omega)
    exact ⟨result, hres, by rw [heq, nil_append?]⟩
  constructor
  · rintro ⟨fuel, h⟩
    obtain ⟨r, hr, rfl⟩ := h (max fuel (pending p s + 1)) (le_max_left _ _)
    obtain ⟨r', hr', heq⟩ := hdrain (max fuel (pending p s + 1)) (le_max_right _ _)
    rw [hr] at hr'
    cases hr'
    exact heq
  · rintro rfl
    exact ⟨_, hdrain⟩

end Histories

/-! ## Stale rows -/

section Stale

variable {schema : Schema}

/-- What the executors emit for the rows of child batches past a nonzero `child_offset_`: those held by a
node, and those held below it, as far as they get through. -/
def stale : ∀ {schema : Schema} (p : Plan schema), State p → Option (List Row)
  | _, .values _ _, _ => some []
  | _, .mockScan _ _, _ => some []
  | _, .filter _childSchema predicate _schema child, (st : Buffered (State child)) =>
    leftBuffered (filterRow predicate) (stale child) st
  | _, .projection childSchema expressions schema child, (st : Buffered (State child)) =>
    leftBuffered (projectRow expressions schema childSchema) (stale child) st

/-- `Init` of an operator, when its child has stale rows and then the rows of its plan left. -/
theorem leftBuffered_init {σ : Type} (emit : Row → Except Fault (Option Row)) (st : Buffered σ)
    {leftChild staleChild : σ → Option (List Row)} {c : σ} {rows : Option (List Row)}
    (h : leftChild c = append? (staleChild st.child) rows) :
    leftBuffered emit leftChild { st with child := c } =
      append? (leftBuffered emit staleChild st) (rows.bind (emitAll emit)) := by
  unfold leftBuffered
  dsimp only
  rw [h, bind_emitAll_append, append?_assoc]
  rfl

/-- **After `Init`** the stale rows come first, then the rows of the plan. -/
theorem left_init (p : Plan schema) (s : State p) :
    left p (init p s) = append? (stale p s) (denote p) := by
  induction p with
  | values rows schema =>
    show left (.values rows schema) (create (.values rows schema)) = append? (some []) _
    rw [left_create, nil_append?]
  | mockScan table schema =>
    show left (.mockScan table schema) (create (.mockScan table schema)) = append? (some []) _
    rw [left_create, nil_append?]
  | filter childSchema predicate schema child ih =>
    refine (leftBuffered_init (filterRow predicate) s (ih s.child)).trans ?_
    exact congrArg _ (congrArg _ (funext (emitAll_filterRow predicate)))
  | projection childSchema expressions schema child ih =>
    refine (leftBuffered_init (projectRow expressions schema childSchema) s (ih s.child)).trans ?_
    exact congrArg _ (congrArg _ (funext (emitAll_projectRow expressions schema childSchema)))

/-- **Restarting.**  After any history of calls, `Init` and a drain give what the drain after the first
`Init` gives, if and only if no rows are stale (or the drain throws anyway). -/
theorem restart_iff (p : Plan schema) (history : List Call) (sizes sizes' : ℕ → ℕ)
    (hsizes : ∀ i, 0 < sizes i) (hsizes' : ∀ i, 0 < sizes' i) :
    (∀ rows, Drains p sizes (init p (create p)) rows →
      Drains p sizes' (init p (afterCalls p history)) rows) ↔
    (denote p = none ∨ stale p (afterCalls p history) = some []) := by
  have hfirst : ∀ rows, Drains p sizes (init p (create p)) rows ↔ rows = denote p := by
    intro rows
    rw [drains_iff p hsizes, init_create, left_create]
  have hagain : ∀ rows, Drains p sizes' (init p (afterCalls p history)) rows ↔
      rows = append? (stale p (afterCalls p history)) (denote p) := by
    intro rows
    rw [drains_iff p hsizes', left_init]
  constructor
  · intro h
    have heq := (hagain _).mp (h _ ((hfirst _).mpr rfl))
    cases hrows : denote p with
    | none => exact .inl rfl
    | some rows =>
      right
      rw [hrows] at heq
      cases hstale : stale p (afterCalls p history) with
      | none =>
        rw [hstale] at heq
        cases heq
      | some l =>
        rw [hstale] at heq
        have happ : rows = l ++ rows := Option.some.inj heq
        rw [List.self_eq_append_left.mp happ]
  · rintro h rows hdrain
    rw [hfirst] at hdrain
    subst hdrain
    rw [hagain]
    rcases h with hnone | hstale
    · rw [hnone, append?_none]
    · rw [hstale, nil_append?]

/-- Once the second `Next` has used up the child batch, nothing is stale. -/
theorem restart_iff_second_next :
    Drains flagPlan (fun _ => 2) (init flagPlan (afterCalls flagPlan [.init, .next 2, .next 2]))
      (denote flagPlan) := by
  refine (restart_iff flagPlan [.init, .next 2, .next 2] (fun _ => 2) (fun _ => 2) (fun _ => by decide)
    (fun _ => by decide)).mpr (.inr (by decide +kernel)) _ ?_
  rw [drains_iff flagPlan (fun _ => by decide), init_create, left_create]

/-- The first `Next` for two rows fetches two child batches and stops in the second one.  After `Init` its
last row comes first, so the drain gives four rows, and three right after the first `Init`. -/
theorem init_keeps_row :
    (pollExecutor flagPlan 2 9 (init flagPlan (create flagPlan))).map
      (fun result => result.toOption.map List.length) = some (some 3) ∧
    (pollExecutor flagPlan 2 9 (init flagPlan (afterCalls flagPlan [.init, .next 2]))).map
      (fun result => result.toOption.map List.length) = some (some 4) := by
  constructor
  · decide +kernel
  · decide +kernel

end Stale

end Journey.Execution
