import Journey.Lib.Machine

/-!
# Journey.Lib.Producer — batches pulled from a stateful producer

Nothing here knows a program.  A producer answers each call with a batch, a status and its next state.

* `append?`: rows one after the other, when both can be computed.
* `Produces`: the contract of one call, against what the producer still has to give (`left`, nothing if
  that cannot be computed) and a bound on how many rows that can be (`pending`).
* `drain`: call until the status says that there is no more; `drain_spec` is what a drain collects.
* `emitAll`: the rows that an operator emits for its input rows.
-/

namespace Journey

variable {ε ρ σ : Type}

/-! ## Rows one after the other -/

section Append

/-- Two lists of rows, one after the other; nothing if one of them cannot be computed. -/
def append? (x y : Option (List ρ)) : Option (List ρ) := x.bind fun a => y.map (a ++ ·)

variable {a b : List ρ} {x y z : Option (List ρ)}

@[simp] theorem append?_nil (x : Option (List ρ)) : append? x (some []) = x := by
  unfold append?
  cases x <;> simp

@[simp] theorem nil_append? (x : Option (List ρ)) : append? (some []) x = x := by
  unfold append?
  cases x <;> simp

@[simp] theorem append?_none (x : Option (List ρ)) : append? x none = none := by
  unfold append?
  cases x <;> rfl

theorem append?_assoc (x y z : Option (List ρ)) : append? (append? x y) z = append? x (append? y z) := by
  unfold append?
  cases x <;> cases y <;> cases z <;> simp

theorem some_append?_some (a b : List ρ) (x : Option (List ρ)) :
    append? (some a) (append? (some b) x) = append? (some (a ++ b)) x :=
  (append?_assoc _ _ _).symm

end Append

/-! ## Calls and drains -/

section Drain

/-- How a call ends; `diverged` stands for a loop that has run out of fuel. -/
inductive Outcome (ε : Type)
  | returned (more : Bool)
  | threw (e : ε)
  | diverged
deriving DecidableEq

/-- What a call leaves behind: its outcome, the batch, and the state. -/
structure Pulled (ε ρ σ : Type) where
  outcome : Outcome ε
  batch : List ρ
  state : σ

/-- **The contract of a call** for `n` rows, whose batch holds `batch` already: it ends; every row it
adds to the batch is taken from those pending; the status says whether there are rows in the batch; what
was left is what it adds to the batch and what is left then; if the batch stays empty nothing is left,
for a positive `n`; and if the call throws, what was left could not be computed. -/
structure Produces (left : σ → Option (List ρ)) (pending : σ → ℕ) (n : ℕ) (batch : List ρ) (s : σ)
    (r : Pulled ε ρ σ) : Prop where
  total : r.outcome ≠ .diverged
  pending_le : ∀ more, r.outcome = .returned more →
    pending r.state + r.batch.length ≤ pending s + batch.length
  status : ∀ more, r.outcome = .returned more → more = !r.batch.isEmpty
  rows : ∀ more, r.outcome = .returned more →
    append? (some batch) (left s) = append? (some r.batch) (left r.state)
  done : 0 < n → r.outcome = .returned false → left r.state = some []
  threw : ∀ e, r.outcome = .threw e → left s = none

variable {left : σ → Option (List ρ)} {pending : σ → ℕ} {n : ℕ} {batch : List ρ} {s : σ}
  {r : Pulled ε ρ σ}

theorem Produces.batch_ne_nil (h : Produces left pending n batch s r) (hr : r.outcome = .returned true) :
    r.batch ≠ [] := by
  intro hnil
  have hstatus := h.status true hr
  rw [hnil] at hstatus
  cases hstatus

theorem Produces.batch_eq_nil (h : Produces left pending n batch s r) (hr : r.outcome = .returned false) :
    r.batch = [] := by
  have hstatus := h.status false hr
  cases hb : r.batch with
  | nil => rfl
  | cons row rows =>
    rw [hb] at hstatus
    cases hstatus

/-- Call until there is no more, the `i`-th time for `sizes i` rows; nothing if the fuel runs out. -/
def drain (next : ℕ → σ → Pulled ε ρ σ) (sizes : ℕ → ℕ) : ℕ → ℕ → σ → List ρ → Option (Except ε (List ρ))
  | 0, _, _, _ => none
  | fuel + 1, i, s, rows =>
    let r := next (sizes i) s
    match r.outcome with
    | .returned true => drain next sizes fuel (i + 1) r.state (rows ++ r.batch)
    | .returned false => some (.ok rows)
    | .threw e => some (.error e)
    | .diverged => none

/-- **A drain collects what is left**, and throws if that cannot be computed. -/
theorem drain_spec {next : ℕ → σ → Pulled ε ρ σ} (hnext : ∀ n s, Produces left pending n [] s (next n s))
    {sizes : ℕ → ℕ} (hsizes : ∀ i, 0 < sizes i) (fuel i : ℕ) (s : σ) (rows : List ρ)
    (hfuel : pending s < fuel) :
    ∃ res, drain next sizes fuel i s rows = some res ∧ res.toOption = append? (some rows) (left s) := by
  induction fuel generalizing i s rows with
  | zero => exact absurd hfuel (Nat.not_lt_zero _)
  | succ fuel ih =>
    have h := hnext (sizes i) s
    unfold drain
    dsimp only
    cases hout : (next (sizes i) s).outcome with
    | returned more =>
      have hrows := h.rows more hout
      rw [nil_append?] at hrows
      cases more with
      | true =>
        -- the batch is not empty, so fewer rows are pending
        have hpos := List.length_pos_iff.mpr (h.batch_ne_nil hout)
        have hle := h.pending_le true hout
        rw [List.length_nil] at hle
        obtain ⟨res, hres, heq⟩ := ih (i + 1) (next (sizes i) s).state
          (rows ++ (next (sizes i) s).batch) (by omega)
        exact ⟨res, hres, by rw [heq, hrows, some_append?_some]⟩
      | false =>
        refine ⟨.ok rows, rfl, ?_⟩
        rw [hrows, h.batch_eq_nil hout, h.done (hsizes i) hout, append?_nil, append?_nil]
        rfl
    | threw e =>
      refine ⟨.error e, rfl, ?_⟩
      rw [h.threw e hout, append?_none]
      rfl
    | diverged => exact absurd hout h.total

end Drain

/-! ## Operators -/

section Emit

/-- The rows an operator emits for the given input rows: at most one for each; nothing if one of them
throws. -/
def emitAll (emit : ρ → Except ε (Option ρ)) : List ρ → Option (List ρ)
  | [] => some []
  | row :: rows =>
    match emit row with
    | .error _ => none
    | .ok none => emitAll emit rows
    | .ok (some out) => (emitAll emit rows).map (out :: ·)

variable {emit : ρ → Except ε (Option ρ)} {row out : ρ} {rows l l' : List ρ}

theorem emitAll_cons_error {e : ε} (h : emit row = .error e) : emitAll emit (row :: rows) = none := by
  unfold emitAll
  rw [h]

theorem emitAll_cons_none (h : emit row = .ok none) : emitAll emit (row :: rows) = emitAll emit rows := by
  unfold emitAll
  rw [h]
  cases rows <;> rfl

theorem emitAll_cons_some (h : emit row = .ok (some out)) :
    emitAll emit (row :: rows) = (emitAll emit rows).map (out :: ·) := by
  unfold emitAll
  rw [h]
  cases rows <;> rfl

theorem emitAll_append (emit : ρ → Except ε (Option ρ)) (l l' : List ρ) :
    emitAll emit (l ++ l') = append? (emitAll emit l) (emitAll emit l') := by
  induction l with
  | nil => exact (nil_append? _).symm
  | cons row l ih =>
    cases hrow : emit row with
    | error e =>
      rw [List.cons_append, emitAll_cons_error hrow, emitAll_cons_error hrow]
      rfl
    | ok o =>
      cases o with
      | none => rw [List.cons_append, emitAll_cons_none hrow, emitAll_cons_none hrow, ih]
      | some out =>
        rw [List.cons_append, emitAll_cons_some hrow, emitAll_cons_some hrow, ih]
        unfold append?
        cases emitAll emit l <;> cases emitAll emit l' <;> simp

/-- What is emitted for rows and for those after them. -/
theorem bind_emitAll_append (emit : ρ → Except ε (Option ρ)) (x y : Option (List ρ)) :
    (append? x y).bind (emitAll emit) = append? (x.bind (emitAll emit)) (y.bind (emitAll emit)) := by
  cases x with
  | none => rfl
  | some l =>
    cases y with
    | none => rw [append?_none, Option.bind_none, append?_none]
    | some l' => exact emitAll_append emit l l'

theorem length_emitAll_le {l out : List ρ} (h : emitAll emit l = some out) : out.length ≤ l.length := by
  induction l generalizing out with
  | nil =>
    cases h
    exact le_refl _
  | cons row l ih =>
    cases hrow : emit row with
    | error e =>
      rw [emitAll_cons_error hrow] at h
      cases h
    | ok o =>
      cases o with
      | none =>
        rw [emitAll_cons_none hrow] at h
        exact Nat.le_succ_of_le (ih h)
      | some out' =>
        rw [emitAll_cons_some hrow] at h
        obtain ⟨l', hl, rfl⟩ := Option.map_eq_some_iff.mp h
        exact Nat.succ_le_succ (ih hl)

end Emit

end Journey
