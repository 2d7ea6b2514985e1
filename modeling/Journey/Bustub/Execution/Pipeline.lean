import Journey.Bustub.Execution.Executors

/-!
# Journey.Bustub.Execution.Pipeline — what a pipeline of executors produces

* `left p s`: the rows that the executors of `p` still have to give in state `s`.
* `next_produces`: `Next` keeps the contract of a producer of these rows, at every node of the tree.
* `denote`: the rows of a plan, read off the tree; it names nothing of the executors.
* `poll_denotes`: polling the initialised executors gives the rows of the plan, for every batch size.
-/

namespace Journey.Execution

open SqlType Catalog Storage

/-! ## One round -/

section Rounds

variable {σ : Type} {emit : Row → Except Fault (Option Row)} {childNext : σ → Pulled Fault Row σ}
  {leftChild : σ → Option (List Row)} {pendingChild : σ → ℕ} {n : ℕ} {st : Buffered σ}

/-- What an operator has left: its output for the rest of the child batch and for what its child has
left. -/
def leftBuffered (emit : Row → Except Fault (Option Row)) (leftChild : σ → Option (List Row))
    (st : Buffered σ) : Option (List Row) :=
  append? (emitAll emit st.rest) ((leftChild st.child).bind (emitAll emit))

/-- How many rows can still come through an operator. -/
def pendingBuffered (pendingChild : σ → ℕ) (st : Buffered σ) : ℕ := st.rest.length + pendingChild st.child

/-- A round that used up its child batch: the child has fewer rows pending, and the output is not empty
if the operator emits something for every row. -/
structure GoesOn (emit : Row → Except Fault (Option Row)) (leftChild : σ → Option (List Row))
    (pendingChild : σ → ℕ) (batch : List Row) (st : Buffered σ) (batch' : List Row) (st' : Buffered σ) :
    Prop where
  fewer : pendingChild st'.child < pendingChild st.child
  pending_le : pendingBuffered pendingChild st' + batch'.length ≤ pendingBuffered pendingChild st + batch.length
  rows : append? (some batch) (leftBuffered emit leftChild st) =
    append? (some batch') (leftBuffered emit leftChild st')
  emitted : (∀ row, emit row ≠ .ok none) → batch' ≠ []

theorem rest_fetched (rows : List Row) (s : σ) : (⟨rows, 0, s⟩ : Buffered σ).rest = [] := rfl

/-- The rest of a child batch after a full output batch. -/
theorem rest_full (pre post : List Row) (s : σ) (hpre : pre ≠ []) :
    (⟨pre ++ post, if post.isEmpty then 0 else 0 + pre.length, s⟩ : Buffered σ).rest = post := by
  unfold Buffered.rest
  cases post with
  | nil => rfl
  | cons row post =>
    have hpos := List.length_pos_iff.mpr hpre
    simp only [List.isEmpty_cons, Bool.false_eq_true, if_false, Nat.zero_add]
    rw [if_pos (by omega), List.drop_left]

theorem emitAll_ne_nil (hemit : ∀ row, emit row ≠ .ok none) {rows out : List Row} (hrows : rows ≠ [])
    (h : emitAll emit rows = some out) : out ≠ [] := by
  obtain ⟨row, rows, rfl⟩ := List.exists_cons_of_ne_nil hrows
  cases hrow : emit row with
  | error e =>
    rw [emitAll_cons_error hrow] at h
    cases h
  | ok o =>
    cases o with
    | none => exact absurd hrow (hemit row)
    | some r =>
      rw [emitAll_cons_some hrow] at h
      obtain ⟨l, -, rfl⟩ := Option.map_eq_some_iff.mp h
      exact List.cons_ne_nil _ _

/-- **What a round can do**, with its outcome, its output batch and its state. -/
inductive Round (emit : Row → Except Fault (Option Row)) (childNext : σ → Pulled Fault Row σ) (n : ℕ)
    (batch : List Row) (st : Buffered σ) : Option (Outcome Fault) → List Row → Buffered σ → Prop
  | restThrew (e : Fault) (batch' : List Row) (hrest : emitAll emit st.rest = none)
      (hlen : batch'.length ≤ batch.length + st.rest.length) :
      Round emit childNext n batch st (some (.threw e)) batch' st
  | childStopped (out : List Row) (o : Outcome Fault) (hrest : emitAll emit st.rest = some out)
      (hchild : (childNext st.child).outcome = o) (hstop : ∀ more, o ≠ .returned more) :
      Round emit childNext n batch st (some o) (batch ++ out)
        ⟨(childNext st.child).batch, 0, (childNext st.child).state⟩
  | childEnded (out : List Row) (hrest : emitAll emit st.rest = some out)
      (hchild : (childNext st.child).outcome = .returned false) :
      Round emit childNext n batch st (some (.returned (!(batch ++ out).isEmpty))) (batch ++ out)
        ⟨(childNext st.child).batch, 0, (childNext st.child).state⟩
  | fillThrew (out : List Row) (e : Fault) (batch' : List Row) (hrest : emitAll emit st.rest = some out)
      (hchild : (childNext st.child).outcome = .returned true)
      (hfill : emitAll emit (childNext st.child).batch = none)
      (hlen : (batch ++ out).length < n → batch'.length < n) :
      Round emit childNext n batch st (some (.threw e)) batch'
        ⟨(childNext st.child).batch, 0, (childNext st.child).state⟩
  | full (out pre post out2 : List Row) (hrest : emitAll emit st.rest = some out)
      (hchild : (childNext st.child).outcome = .returned true)
      (hsplit : (childNext st.child).batch = pre ++ post) (hfill : emitAll emit pre = some out2)
      (hpre : pre ≠ []) (hout : out2 ≠ [])
      (hlen : (batch ++ out).length < n → (batch ++ out ++ out2).length ≤ n) :
      Round emit childNext n batch st (some (.returned true)) (batch ++ out ++ out2)
        ⟨(childNext st.child).batch, if post.isEmpty then 0 else 0 + pre.length, (childNext st.child).state⟩
  | usedUp (out out2 : List Row) (hrest : emitAll emit st.rest = some out)
      (hchild : (childNext st.child).outcome = .returned true)
      (hfill : emitAll emit (childNext st.child).batch = some out2)
      (hlen : (batch ++ out).length < n → (batch ++ out ++ out2).length < n) :
      Round emit childNext n batch st none (batch ++ out ++ out2)
        ⟨(childNext st.child).batch, 0, (childNext st.child).state⟩

theorem nextRound_cases (emit : Row → Except Fault (Option Row)) (childNext : σ → Pulled Fault Row σ)
    (n : ℕ) (batch : List Row) (st : Buffered σ) :
    ∃ o batch' st', nextRound emit childNext n batch st = (o, batch', st') ∧
      Round emit childNext n batch st o batch' st' := by
  unfold nextRound
  rcases emitRest_spec emit st.rest batch with ⟨out, hout, heq⟩ | ⟨e, batch', hnone, heq, hle⟩
  · rw [heq]
    dsimp only
    cases hr : (childNext st.child).outcome with
    | threw e => exact ⟨_, _, _, rfl, .childStopped out _ hout hr nofun⟩
    | diverged => exact ⟨_, _, _, rfl, .childStopped out _ hout hr nofun⟩
    | returned more =>
      cases more with
      | false => exact ⟨_, _, _, rfl, .childEnded out hout hr⟩
      | true =>
        dsimp only
        rcases fill_spec emit n 0 (childNext st.child).batch (batch ++ out) with
          ⟨out2, hout2, hfill, hlt⟩ | ⟨pre, post, out2, hsplit, hout2, hpre, hne, hfill, hlt⟩ |
          ⟨e, batch', hnone, hfill, hlt⟩
        · rw [hfill]
          exact ⟨_, _, _, rfl, .usedUp out out2 hout hr hout2 hlt⟩
        · rw [hfill]
          exact ⟨_, _, _, rfl, .full out pre post out2 hout hr hsplit hout2 hpre hne hlt⟩
        · rw [hfill]
          exact ⟨_, _, _, rfl, .fillThrew out e batch' hout hr hnone hlt⟩
  · rw [heq]
    exact ⟨_, _, _, rfl, .restThrew e batch' hnone hle⟩

/-- What an operator has left once its child has answered. -/
theorem leftBuffered_of_rows {out : List Row} {more : Bool} (hrest : emitAll emit st.rest = some out)
    (h : Produces leftChild pendingChild n [] st.child (childNext st.child))
    (hr : (childNext st.child).outcome = .returned more) :
    leftBuffered emit leftChild st = append? (some out) (append? (emitAll emit (childNext st.child).batch)
      ((leftChild (childNext st.child).state).bind (emitAll emit))) := by
  have hrows := h.rows more hr
  rw [nil_append?] at hrows
  unfold leftBuffered
  rw [hrest, hrows, bind_emitAll_append]
  rfl

/-- The child had nothing more: the rest of its last batch is given out. -/
theorem produces_childEnded {batch out : List Row} (hrest : emitAll emit st.rest = some out)
    (h : Produces leftChild pendingChild n [] st.child (childNext st.child))
    (hr : (childNext st.child).outcome = .returned false) :
    Produces (leftBuffered emit leftChild) (pendingBuffered pendingChild) n batch st
      (⟨.returned (!(batch ++ out).isEmpty), batch ++ out,
        ⟨(childNext st.child).batch, 0, (childNext st.child).state⟩⟩ : Pulled Fault Row (Buffered σ)) := by
  have hleft := leftBuffered_of_rows hrest h hr
  have hnil := h.batch_eq_nil hr
  have hle := h.pending_le false hr
  have hout := length_emitAll_le hrest
  refine ⟨nofun, ?_, ?_, ?_, ?_, nofun⟩
  · intro _ _
    rw [hnil, List.length_nil] at hle
    unfold pendingBuffered
    rw [rest_fetched, List.length_nil, List.length_append]
    dsimp only
    omega
  · intro more hmore
    cases hmore
    rfl
  · intro _ _
    rw [hleft, hnil, some_append?_some]
    rfl
  · intro hn _
    unfold leftBuffered
    rw [rest_fetched]
    dsimp only
    rw [h.done hn hr]
    rfl

/-- The output batch is full: what is behind `pre` in the child batch stays for the next call. -/
theorem produces_full {batch out pre post out2 : List Row} (hrest : emitAll emit st.rest = some out)
    (h : Produces leftChild pendingChild n [] st.child (childNext st.child))
    (hr : (childNext st.child).outcome = .returned true) (hsplit : (childNext st.child).batch = pre ++ post)
    (hfill : emitAll emit pre = some out2) (hpre : pre ≠ []) (hne : out2 ≠ []) :
    Produces (leftBuffered emit leftChild) (pendingBuffered pendingChild) n batch st
      (⟨.returned true, batch ++ out ++ out2, ⟨(childNext st.child).batch,
        if post.isEmpty then 0 else 0 + pre.length, (childNext st.child).state⟩⟩ : Pulled Fault Row (Buffered σ)) := by
  have hrest' := rest_full pre post (childNext st.child).state hpre
  rw [← hsplit] at hrest'
  have hle := h.pending_le true hr
  have hout := length_emitAll_le hrest
  have hout2 := length_emitAll_le hfill
  refine ⟨nofun, ?_, ?_, ?_, nofun, nofun⟩
  · intro _ _
    rw [hsplit, List.length_append, List.length_nil] at hle
    unfold pendingBuffered
    dsimp only
    rw [hrest', List.length_append, List.length_append]
    omega
  · intro more hmore
    cases hmore
    cases hb : batch ++ out ++ out2 with
    | nil => exact absurd (List.append_eq_nil_iff.mp hb).2 hne
    | cons row rows => rfl
  · intro _ _
    have hemit : emitAll emit (childNext st.child).batch = append? (some out2) (emitAll emit post) := by
      rw [hsplit, emitAll_append, hfill]
    rw [leftBuffered_of_rows hrest h hr, hemit, append?_assoc, some_append?_some, some_append?_some,
      List.append_assoc]
    unfold leftBuffered
    rw [hrest']

theorem goesOn_usedUp {batch out out2 : List Row} (hrest : emitAll emit st.rest = some out)
    (h : Produces leftChild pendingChild n [] st.child (childNext st.child))
    (hr : (childNext st.child).outcome = .returned true) (hfill : emitAll emit (childNext st.child).batch = some out2) :
    GoesOn emit leftChild pendingChild batch st (batch ++ out ++ out2)
      ⟨(childNext st.child).batch, 0, (childNext st.child).state⟩ := by
  have hne := h.batch_ne_nil hr
  have hpos := List.length_pos_iff.mpr hne
  have hle := h.pending_le true hr
  have hout := length_emitAll_le hrest
  have hout2 := length_emitAll_le hfill
  rw [List.length_nil] at hle
  refine ⟨?_, ?_, ?_, ?_⟩
  · dsimp only
    omega
  · unfold pendingBuffered
    rw [rest_fetched, List.length_nil, List.length_append, List.length_append]
    dsimp only
    omega
  · rw [leftBuffered_of_rows hrest h hr, hfill, some_append?_some, some_append?_some, List.append_assoc]
    unfold leftBuffered
    rw [rest_fetched]
    exact congrArg _ (nil_append? _).symm
  · intro hemit hnil
    exact emitAll_ne_nil hemit hne hfill (List.append_eq_nil_iff.mp hnil).2

/-- **One round** ends the call as the contract says, or uses up a child batch. -/
theorem nextRound_spec (emit : Row → Except Fault (Option Row)) (batch : List Row) (st : Buffered σ)
    (hchild : ∀ c, Produces leftChild pendingChild n [] c (childNext c)) :
    (∃ o batch' st', nextRound emit childNext n batch st = (some o, batch', st') ∧
      Produces (leftBuffered emit leftChild) (pendingBuffered pendingChild) n batch st ⟨o, batch', st'⟩) ∨
    ∃ batch' st', nextRound emit childNext n batch st = (none, batch', st') ∧
      GoesOn emit leftChild pendingChild batch st batch' st' := by
  have h := hchild st.child
  obtain ⟨o, batch', st', heq, hround⟩ := nextRound_cases emit childNext n batch st
  cases hround with
  | restThrew e batch' hrest hlen =>
    refine .inl ⟨_, _, _, heq, nofun, nofun, nofun, nofun, nofun, ?_⟩
    intro e' _
    unfold leftBuffered
    rw [hrest]
    rfl
  | childStopped out o hrest hr hstop =>
    refine .inl ⟨_, _, _, heq, fun hdiv => h.total (hr.trans hdiv), ?_, ?_, ?_, ?_, ?_⟩
    · exact fun more hmore => absurd hmore (hstop more)
    · exact fun more hmore => absurd hmore (hstop more)
    · exact fun more hmore => absurd hmore (hstop more)
    · exact fun _ hmore => absurd hmore (hstop false)
    · intro e he
      unfold leftBuffered
      rw [hrest, h.threw e (hr.trans he)]
      exact append?_none _
  | childEnded out hrest hr => exact .inl ⟨_, _, _, heq, produces_childEnded hrest h hr⟩
  | fillThrew out e batch' hrest hr hfill hlen =>
    refine .inl ⟨_, _, _, heq, nofun, nofun, nofun, nofun, nofun, ?_⟩
    intro e' _
    rw [leftBuffered_of_rows hrest h hr, hfill]
    exact append?_none _
  | full out pre post out2 hrest hr hsplit hfill hpre hne hlen =>
    exact .inl ⟨_, _, _, heq, produces_full hrest h hr hsplit hfill hpre hne⟩
  | usedUp out out2 hrest hr hfill hlen => exact .inr ⟨_, _, heq, goesOn_usedUp hrest h hr hfill⟩

/-- **The loop of a filter** keeps the contract, with more fuel than the child has rows pending. -/
theorem filterLoop_produces (hchild : ∀ c, Produces leftChild pendingChild n [] c (childNext c))
    (fuel : ℕ) (batch : List Row) (st : Buffered σ) (hfuel : pendingChild st.child < fuel) :
    Produces (leftBuffered emit leftChild) (pendingBuffered pendingChild) n batch st
      (filterLoop emit childNext n fuel batch st) := by
  induction fuel generalizing batch st with
  | zero => exact absurd hfuel (Nat.not_lt_zero _)
  | succ fuel ih =>
    unfold filterLoop
    rcases nextRound_spec emit batch st hchild with
      ⟨o, batch', st', heq, hprod⟩ | ⟨batch', st', heq, hgo⟩
    · rw [heq]
      exact hprod
    · rw [heq]
      have hfewer := hgo.fewer
      have hle := hgo.pending_le
      have h := ih batch' st' (by omega)
      refine ⟨h.total, ?_, h.status, ?_, h.done, ?_⟩
      · intro more hmore
        exact (h.pending_le more hmore).trans hle
      · intro more hmore
        rw [hgo.rows]
        exact h.rows more hmore
      · intro e he
        have hrows := hgo.rows
        rw [h.threw e he, append?_none] at hrows
        exact (Option.map_eq_none_iff.mp hrows)

/-- **The round of a projection** keeps the contract. -/
theorem projectOnce_produces (hchild : ∀ c, Produces leftChild pendingChild n [] c (childNext c))
    (hemit : ∀ row, emit row ≠ .ok none) (st : Buffered σ) :
    Produces (leftBuffered emit leftChild) (pendingBuffered pendingChild) n [] st
      (projectOnce emit childNext n st) := by
  unfold projectOnce
  rcases nextRound_spec emit [] st hchild with
    ⟨o, batch', st', heq, hprod⟩ | ⟨batch', st', heq, hgo⟩
  · rw [heq]
    exact hprod
  · rw [heq]
    obtain ⟨row, rows, rfl⟩ := List.exists_cons_of_ne_nil (hgo.emitted hemit)
    refine ⟨nofun, fun _ _ => hgo.pending_le, ?_, fun _ _ => hgo.rows, nofun, nofun⟩
    intro more hmore
    cases hmore
    rfl

end Rounds

/-! ## Next -/

section Contract

/-- The rows that the executors of a plan still have to give; nothing if computing them throws. -/
def left : ∀ {schema : Schema} (p : Plan schema), State p → Option (List Row)
  | _, .values rows schema, (cursor : ℕ) => rowsFrom (valuesRow rows schema) (rows.length - cursor) cursor
  | _, .mockScan table _schema, (cursor : ℕ) => rowsFrom (mockRow table) (table.size - cursor) cursor
  | _, .filter _childSchema predicate _schema child, (st : Buffered (State child)) =>
    leftBuffered (filterRow predicate) (left child) st
  | _, .projection childSchema expressions schema child, (st : Buffered (State child)) =>
    leftBuffered (projectRow expressions schema childSchema) (left child) st

theorem fetch_produces (row : ℕ → Except Fault Row) (size n cursor : ℕ) :
    Produces (fun cursor => rowsFrom row (size - cursor) cursor) (fun cursor => size - cursor) n [] cursor
      (fetch row n (size - cursor) cursor []) := by
  obtain ⟨o, j, out, heq, hlen, hj, -, hcase⟩ := fetch_spec row n (size - cursor) cursor []
  rw [heq]
  rw [List.nil_append] at hcase ⊢
  have hsub : size - cursor - j = size - (cursor + j) := by omega
  rcases hcase with ⟨rfl, hfull, hrows⟩ | ⟨e, rfl, hnone⟩
  · rw [hsub] at hrows
    refine ⟨nofun, ?_, ?_, ?_, ?_, nofun⟩
    · intro _ _
      dsimp only
      omega
    · intro more hmore
      cases hmore
      rfl
    · intro _ _
      rw [nil_append?]
      exact hrows
    · intro hn hmore
      -- an empty batch is not full, so the rows have ended
      have hnil : out = [] := by
        cases out with
        | nil => rfl
        | cons r l => cases hmore
      subst hnil
      rw [List.length_nil] at hlen hfull
      have hend : size - (cursor + j) = 0 := by omega
      dsimp only
      rw [hend]
      rfl
  · refine ⟨nofun, nofun, nofun, nofun, nofun, ?_⟩
    intro _ _
    exact hnone

theorem projectRow_ne_none (expressions : List Expression) (schema childSchema : Schema) (row : Row) :
    projectRow expressions schema childSchema row ≠ .ok none := by
  unfold projectRow
  cases computeRow expressions schema childSchema row with
  | error e => nofun
  | ok r => nofun

variable {schema : Schema}

/-- **`Next` keeps the contract**, at every node of the tree, for every batch size and in every state. -/
theorem next_produces (p : Plan schema) (n : ℕ) (s : State p) :
    Produces (left p) (pending p) n [] s (next p n s) := by
  induction p with
  | values rows schema => exact fetch_produces (valuesRow rows schema) rows.length n s
  | mockScan table schema => exact fetch_produces (mockRow table) table.size n s
  | filter childSchema predicate schema child ih => exact filterLoop_produces ih _ [] s (Nat.lt_succ_self _)
  | projection childSchema expressions schema child ih =>
    exact projectOnce_produces ih (projectRow_ne_none expressions schema childSchema) s

end Contract

/-! ## Batch sizes -/

section Sizes

variable {σ : Type} {emit : Row → Except Fault (Option Row)} {childNext : σ → Pulled Fault Row σ}
  {SmallChild : σ → Prop} {n : ℕ} {batch : List Row} {st : Buffered σ} {schema : Schema}

/-- No child batch in the tree has more than `n` rows. -/
def Small (n : ℕ) : ∀ {schema : Schema} (p : Plan schema), State p → Prop
  | _, .values _ _, _ => True
  | _, .mockScan _ _, _ => True
  | _, .filter _childSchema _predicate _schema child, (st : Buffered (State child)) =>
    st.childTuples.length ≤ n ∧ Small n child st.child
  | _, .projection _childSchema _expressions _schema child, (st : Buffered (State child)) =>
    st.childTuples.length ≤ n ∧ Small n child st.child

theorem rest_length_lt (hn : 0 < n) (h : st.childTuples.length ≤ n) : st.rest.length < n := by
  unfold Buffered.rest
  split_ifs with hoff
  · rw [List.length_drop]
    omega
  · exact hn

/-- A round adds to the batch at most until it is full. -/
theorem nextRound_small (emit : Row → Except Fault (Option Row))
    (hchild : ∀ c, SmallChild c → (childNext c).batch.length ≤ n ∧ SmallChild (childNext c).state)
    (hst : st.childTuples.length ≤ n ∧ SmallChild st.child) (hbatch : batch.length + st.rest.length < n) :
    ∃ o batch' st', nextRound emit childNext n batch st = (o, batch', st') ∧ batch'.length ≤ n ∧
      (st'.childTuples.length ≤ n ∧ SmallChild st'.child) ∧
      (o = none → batch'.length + st'.rest.length < n) := by
  obtain ⟨o, batch', st', heq, hround⟩ := nextRound_cases emit childNext n batch st
  refine ⟨o, batch', st', heq, ?_⟩
  have hfetched := hchild st.child hst.2
  -- what the rest of the last child batch adds leaves room for a row
  have hrest : ∀ out, emitAll emit st.rest = some out → (batch ++ out).length < n := by
    intro out hout
    have hle := length_emitAll_le hout
    rw [List.length_append]
    omega
  cases hround with
  | restThrew e batch' hnone hlen => exact ⟨by omega, hst, nofun⟩
  | childStopped out o hout hr hstop => exact ⟨(hrest out hout).le, hfetched, nofun⟩
  | childEnded out hout hr => exact ⟨(hrest out hout).le, hfetched, nofun⟩
  | fillThrew out e batch' hout hr hfill hlen => exact ⟨(hlen (hrest out hout)).le, hfetched, nofun⟩
  | full out pre post out2 hout hr hsplit hfill hpre hne hlen =>
    exact ⟨hlen (hrest out hout), hfetched, nofun⟩
  | usedUp out out2 hout hr hfill hlen =>
    have hlt := hlen (hrest out hout)
    refine ⟨hlt.le, hfetched, ?_⟩
    intro _
    rw [rest_fetched, List.length_nil]
    exact hlt

theorem filterLoop_small
    (hchild : ∀ c, SmallChild c → (childNext c).batch.length ≤ n ∧ SmallChild (childNext c).state)
    (fuel : ℕ) (batch : List Row) (st : Buffered σ) (hst : st.childTuples.length ≤ n ∧ SmallChild st.child)
    (hbatch : batch.length + st.rest.length < n) :
    (filterLoop emit childNext n fuel batch st).batch.length ≤ n ∧
      (filterLoop emit childNext n fuel batch st).state.childTuples.length ≤ n ∧
      SmallChild (filterLoop emit childNext n fuel batch st).state.child := by
  induction fuel generalizing batch st with
  | zero => exact ⟨by show batch.length ≤ n; omega, hst⟩
  | succ fuel ih =>
    obtain ⟨o, batch', st', heq, hlen, hst', hgo⟩ := nextRound_small emit hchild hst hbatch
    unfold filterLoop
    rw [heq]
    cases o with
    | some o => exact ⟨hlen, hst'⟩
    | none => exact ih batch' st' hst' (hgo rfl)

theorem fetch_small (row : ℕ → Except Fault Row) (size n cursor : ℕ) :
    (fetch row n (size - cursor) cursor []).batch.length ≤ n := by
  obtain ⟨o, j, out, heq, -, -, hlen, -⟩ := fetch_spec row n (size - cursor) cursor []
  rw [heq]
  exact hlen (Nat.zero_le _)

/-- **No batch has more than `n` rows**, and the child batches stay that small. -/
theorem next_small (p : Plan schema) (hn : 0 < n) (s : State p) (h : Small n p s) :
    (next p n s).batch.length ≤ n ∧ Small n p (next p n s).state := by
  induction p with
  | values rows schema => exact ⟨fetch_small (valuesRow rows schema) rows.length n s, trivial⟩
  | mockScan table schema => exact ⟨fetch_small (mockRow table) table.size n s, trivial⟩
  | filter childSchema predicate schema child ih =>
    refine filterLoop_small ih _ [] s h ?_
    rw [List.length_nil, Nat.zero_add]
    exact rest_length_lt hn h.1
  | projection childSchema expressions schema child ih =>
    obtain ⟨o, batch', st', heq, hlen, hst', -⟩ := nextRound_small
      (projectRow expressions schema childSchema) ih h
      (by rw [List.length_nil, Nat.zero_add]; exact rest_length_lt hn h.1)
    show (projectOnce _ _ _ _).batch.length ≤ n ∧ (projectOnce _ _ _ _).state.childTuples.length ≤ n ∧
      Small n child (projectOnce _ _ _ _).state.child
    unfold projectOnce
    rw [heq]
    cases o with
    | some o => exact ⟨hlen, hst'⟩
    | none => exact ⟨hlen, hst'⟩

end Sizes

/-! ## The rows of a plan -/

section Denotation

variable {schema : Schema}

/-- The order in which a mock table is scanned. -/
def MockTable.order (table : MockTable) : List ℕ :=
  if table.shuffledIdx.isEmpty then List.range table.size else table.shuffledIdx

/-- The rows that pass a test. -/
def keepPassing (pass : Row → Option Bool) : List Row → Option (List Row)
  | [] => some []
  | row :: rows => do
    let keep ← pass row
    let kept ← keepPassing pass rows
    return if keep then row :: kept else kept

/-- A value that lets a row through a filter: a boolean that is not null and not false. -/
def letsThrough : Value → Bool
  | .boolean i => i ≠ booleanNull ∧ i ≠ 0
  | _ => false

/-- The tuple of a schema whose columns are the values of expressions on a tuple; nothing if one of them throws. -/
def tupleOf (expressions : List Expression) (tuple : Option Tuple) (tupleSchema schema : Schema) : Option Tuple := do
  let values ← expressions.mapM fun expr => (expr tuple tupleSchema).toOption
  (Tuple.ofValues values schema).toOption

/-- **The rows of a plan**, read off the tree without the executors; nothing if evaluating one of them throws.  Values: a
tuple for each list of expressions.  A scan: the tuples of the table in its order.  A filter: the rows of the child on
which the predicate is true.  A projection: for each row of the child the tuple of the expressions on it. -/
def denote : ∀ {schema : Schema}, Plan schema → Option (List Row)
  | _, .values rows schema =>
    rows.mapM fun rowExpr => (tupleOf rowExpr none (.create []) schema).map fun tuple => (tuple, ⟨invalidPageId, 0⟩)
  | _, .mockScan table _ =>
    table.order.mapM fun i => (table.func i).toOption.map fun tuple => (tuple, ⟨0, 0⟩)
  | _, .filter childSchema predicate _ child =>
    (denote child).bind (keepPassing fun row => (predicate.1 (some row.1) childSchema).toOption.map letsThrough)
  | _, .projection childSchema expressions schema child =>
    (denote child).bind fun rows =>
      rows.mapM fun row => (tupleOf expressions (some row.1) childSchema schema).map fun tuple => (tuple, row.2)

theorem toOption_bind {α β : Type} (x : Except Fault α) (f : α → Except Fault β) :
    (x >>= f).toOption = x.toOption.bind fun a => (f a).toOption := by
  cases x <;> rfl

theorem toOption_mapM {α β : Type} (f : α → Except Fault β) (l : List α) :
    (l.mapM f).toOption = l.mapM fun a => (f a).toOption := by
  induction l with
  | nil => rfl
  | cons a l ih =>
    rw [List.mapM_cons, List.mapM_cons, toOption_bind, ← ih]
    refine congrArg ((f a).toOption.bind ·) ?_
    ext1 b
    rw [toOption_bind]
    rfl

/-- Evaluating expressions and making the tuple, as the executors do it. -/
theorem toOption_tupleOf (expressions : List Expression) (tuple : Option Tuple) (tupleSchema schema : Schema)
    (rid : RID) :
    (do
      let values ← expressions.mapM fun expr => expr tuple tupleSchema
      let tuple ← Tuple.ofValues values schema
      return (tuple, rid) : Except Fault Row).toOption =
    (tupleOf expressions tuple tupleSchema schema).map fun tuple => (tuple, rid) := by
  unfold tupleOf
  rw [toOption_bind, toOption_mapM]
  show Option.bind _ _ = Option.map _ (Option.bind _ _)
  rw [Option.map_bind]
  refine congrArg (Option.bind _) ?_
  ext1 values
  rw [toOption_bind]
  show _ = (Tuple.ofValues values schema).toOption.map _
  cases Tuple.ofValues values schema <;> rfl

theorem toOption_evaluateRow (schema : Schema) (rowExpr : List Expression) :
    (evaluateRow schema rowExpr).toOption =
      (tupleOf rowExpr none (.create []) schema).map fun tuple => (tuple, ⟨invalidPageId, 0⟩) :=
  toOption_tupleOf rowExpr none (.create []) schema _

theorem toOption_computeRow (expressions : List Expression) (schema childSchema : Schema) (row : Row) :
    (computeRow expressions schema childSchema row).toOption =
      (tupleOf expressions (some row.1) childSchema schema).map fun tuple => (tuple, row.2) :=
  toOption_tupleOf expressions (some row.1) childSchema schema row.2

theorem toOption_passes (predicate : Predicate schema) (row : Row) :
    (passes predicate row).toOption = (predicate.1 (some row.1) schema).toOption.map letsThrough := by
  unfold passes
  cases hvalue : predicate.1 (some row.1) schema with
  | error e => rfl
  | ok value =>
    have htype := predicate.2 row.1 value hvalue
    cases value with
    | boolean i =>
      show some (!(Value.boolean i).isNull && i != 0) = some (letsThrough (.boolean i))
      by_cases hnull : i = booleanNull
      · simp [letsThrough, Value.isNull, Value.len, hnull]
      · simp [letsThrough, Value.isNull, Value.len, hnull, valueNull]
        rfl
    | _ => cases htype

theorem rowsFrom_eq_mapM {α : Type} (row : ℕ → Except Fault Row) (f : α → Option Row) (l : List α) (c : ℕ)
    (h : ∀ (i : ℕ) (a : α), l[i]? = some a → (row (c + i)).toOption = f a) :
    rowsFrom row l.length c = l.mapM f := by
  induction l generalizing c with
  | nil => rfl
  | cons a l ih =>
    have hhead : (row c).toOption = f a := h 0 a rfl
    have htail := ih (c + 1) fun i b hb => by
      rw [Nat.add_assoc, Nat.add_comm 1 i]
      exact h (i + 1) b hb
    rw [List.length_cons, rowsFrom, List.mapM_cons, ← hhead, ← htail]
    cases row c with
    | error e => rfl
    | ok r => exact Option.map_eq_bind

theorem length_order (table : MockTable) : table.order.length = table.size := by
  unfold MockTable.order
  split_ifs with hempty
  · exact List.length_range
  · rcases table.shuffled with hnil | hperm
    · rw [hnil] at hempty
      exact absurd rfl hempty
    · rw [hperm.length_eq, List.length_range]

theorem getElem?_order (table : MockTable) {i k : ℕ} (h : table.order[i]? = some k) :
    table.shuffledIdx[i]?.getD i = k := by
  unfold MockTable.order at h
  split_ifs at h with hempty
  · obtain ⟨hi, rfl⟩ := List.getElem?_eq_some_iff.mp h
    rw [List.isEmpty_iff.mp hempty, List.getElem_range]
    rfl
  · rw [h, Option.getD_some]

theorem emitAll_filterRow (predicate : Predicate schema) (rows : List Row) :
    emitAll (filterRow predicate) rows =
      keepPassing (fun row => (predicate.1 (some row.1) schema).toOption.map letsThrough) rows := by
  induction rows with
  | nil => rfl
  | cons row rows ih =>
    rw [keepPassing, ← ih, ← toOption_passes]
    cases hpass : passes predicate row with
    | error e =>
      refine emitAll_cons_error (e := e) ?_
      unfold filterRow
      rw [hpass, error_bind]
    | ok keep =>
      cases keep with
      | true =>
        have hrow : filterRow predicate row = .ok (some row) := by
          unfold filterRow
          rw [hpass]
          rfl
        rw [emitAll_cons_some hrow]
        exact Option.map_eq_bind
      | false =>
        have hrow : filterRow predicate row = .ok none := by
          unfold filterRow
          rw [hpass]
          rfl
        rw [emitAll_cons_none hrow]
        cases emitAll (filterRow predicate) rows <;> rfl

theorem emitAll_projectRow (expressions : List Expression) (schema childSchema : Schema)
    (rows : List Row) :
    emitAll (projectRow expressions schema childSchema) rows =
      rows.mapM fun row => (tupleOf expressions (some row.1) childSchema schema).map fun tuple => (tuple, row.2) := by
  induction rows with
  | nil => rfl
  | cons row rows ih =>
    rw [List.mapM_cons, ← ih, ← toOption_computeRow]
    cases hrow : computeRow expressions schema childSchema row with
    | error e =>
      refine emitAll_cons_error (e := e) ?_
      unfold projectRow
      rw [hrow, error_bind]
    | ok r =>
      have hemit : projectRow expressions schema childSchema row = .ok (some r) := by
        unfold projectRow
        rw [hrow]
        rfl
      rw [emitAll_cons_some hemit]
      exact Option.map_eq_bind

/-- **New executors have the rows of the plan left.** -/
theorem left_create (p : Plan schema) : left p (create p) = denote p := by
  induction p with
  | values rows schema =>
    refine rowsFrom_eq_mapM _ _ rows 0 ?_
    intro i rowExpr hrow
    unfold valuesRow
    rw [Nat.zero_add, hrow]
    exact toOption_evaluateRow schema rowExpr
  | mockScan table schema =>
    show rowsFrom (mockRow table) table.size 0 = _
    rw [← length_order]
    refine rowsFrom_eq_mapM _ _ table.order 0 ?_
    intro i k hk
    unfold mockRow
    rw [Nat.zero_add, getElem?_order table hk]
    cases table.func k <;> rfl
  | filter childSchema predicate schema child ih =>
    show append? (some []) ((left child (create child)).bind _) = _
    rw [nil_append?, ih]
    exact congrArg _ (funext (emitAll_filterRow predicate))
  | projection childSchema expressions schema child ih =>
    show append? (some []) ((left child (create child)).bind _) = _
    rw [nil_append?, ih]
    exact congrArg _ (funext (emitAll_projectRow expressions schema childSchema))

theorem init_create (p : Plan schema) : init p (create p) = create p := by
  induction p with
  | values rows schema => rfl
  | mockScan table schema => rfl
  | filter childSchema predicate schema child ih =>
    show (⟨[], 0, init child (create child)⟩ : Buffered (State child)) = _
    rw [ih]
    rfl
  | projection childSchema expressions schema child ih =>
    show (⟨[], 0, init child (create child)⟩ : Buffered (State child)) = _
    rw [ih]
    rfl

theorem small_create (n : ℕ) (p : Plan schema) : Small n p (create p) := by
  induction p with
  | values rows schema => trivial
  | mockScan table schema => trivial
  | filter childSchema predicate schema child ih => exact ⟨Nat.zero_le n, ih⟩
  | projection childSchema expressions schema child ih => exact ⟨Nat.zero_le n, ih⟩

/-- **Pipeline semantics.**  For every plan and every positive batch size: polling the initialised
executors ends, and gives exactly the rows of the plan in their order (or throws, if evaluating one of
them does); and no call of `Next` answers more rows than it was asked for. -/
theorem poll_denotes (p : Plan schema) (batchSize : ℕ) (hn : 0 < batchSize) :
    (∃ fuel, ∀ k ≥ fuel, ∃ result, pollExecutor p batchSize k (init p (create p)) = some result ∧
      result.toOption = denote p) ∧
    ∀ calls, (next p batchSize
      ((fun s => (next p batchSize s).state)^[calls] (init p (create p)))).batch.length ≤ batchSize := by
  rw [init_create]
  refine ⟨⟨pending p (create p) + 1, ?_⟩, ?_⟩
  · intro k hk
    obtain ⟨result, hres, heq⟩ := drain_spec (next_produces p) (fun _ : ℕ => hn) k 0 (create p) []
      (by omega)
    exact ⟨result, hres, by rw [heq, nil_append?, left_create]⟩
  · -- the child batches stay small along the calls
    intro calls
    have hsmall : Small batchSize p ((fun s => (next p batchSize s).state)^[calls] (create p)) := by
      induction calls with
      | zero => exact small_create batchSize p
      | succ calls ih =>
        rw [Function.iterate_succ_apply']
        exact (next_small p hn _ ih).2
    exact (next_small p hn _ hsmall).1

/-- A table of one `BOOLEAN` column. -/
def flagSchema : Schema := .create [.fixed "flag" .boolean 1 boolean_fixed boolean_size]

/-- `SELECT * FROM (VALUES (false), (true), (true), (true)) WHERE flag`. -/
def flagPlan : Plan flagSchema :=
  .filter flagSchema (booleanColumn flagSchema 0 _ rfl rfl) flagSchema
    (.values [[constantValueExpression (.boolean 0)], [constantValueExpression (.boolean 1)],
      [constantValueExpression (.boolean 1)], [constantValueExpression (.boolean 1)]] flagSchema)

/-- A table of a `BOOLEAN` and an `INTEGER` column, and one with the two exchanged. -/
def pairSchema : Schema :=
  .create [.fixed "flag" .boolean 1 boolean_fixed boolean_size, .fixed "n" .integer 4 integer_fixed integer_size]

def swappedSchema : Schema :=
  .create [.fixed "n" .integer 4 integer_fixed integer_size, .fixed "flag" .boolean 1 boolean_fixed boolean_size]

/-- `SELECT n, flag FROM (VALUES (false, 1), (true, 2), (NULL, 3), (true, 4)) WHERE flag`. -/
def swapPlan : Plan swappedSchema :=
  .projection pairSchema [columnValueExpression 1, columnValueExpression 0] swappedSchema
    (.filter pairSchema (booleanColumn pairSchema 0 _ rfl rfl) pairSchema
      (.values
        [[constantValueExpression (.boolean 0), constantValueExpression (.integer 1)],
          [constantValueExpression (.boolean 1), constantValueExpression (.integer 2)],
          [constantValueExpression (.boolean booleanNull), constantValueExpression (.integer 3)],
          [constantValueExpression (.boolean 1), constantValueExpression (.integer 4)]] pairSchema))

/-- With batches of one row. -/
theorem poll_denotes_swap :
    (∃ fuel, ∀ k ≥ fuel, ∃ result, pollExecutor swapPlan 1 k (init swapPlan (create swapPlan)) = some result ∧
      result.toOption = denote swapPlan) ∧
    (denote swapPlan).map (List.map fun row => row.1.data) = some [[2, 0, 0, 0, 1], [4, 0, 0, 0, 1]] :=
  ⟨(poll_denotes swapPlan 1 (by decide)).1, by decide +kernel⟩

end Denotation

end Journey.Execution
