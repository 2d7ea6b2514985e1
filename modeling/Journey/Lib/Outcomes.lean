import Journey.Lib.Machine

/-!
# Journey.Lib.Outcomes — what comes of a computation that may fail

Nothing here knows a program.  `Meets x P E`: if `x` ends well its result is in `P`, and if it fails its error is in
`E`.  There is one rule for each way to put computations together, so that a proof about a `do` block follows the block.

* `Meets.bind`: one computation after the other; `Meets.ite`: one of two.
* `Meets.mapM`, `Meets.foldlM`: lists.
* `Meets.and`: two results about one computation.
-/

namespace Journey

variable {ε α β : Type}

/-- The result is in `P`, or the error is in `E`. -/
def Meets (x : Except ε α) (P : α → Prop) (E : ε → Prop) : Prop :=
  match x with
  | .ok a => P a
  | .error e => E e

variable {x : Except ε α} {f : α → Except ε β} {P Q : α → Prop} {R : β → Prop} {E E' : ε → Prop}

@[simp] theorem meets_ok {a : α} : Meets (.ok a : Except ε α) P E ↔ P a := Iff.rfl

@[simp] theorem meets_error {e : ε} : Meets (.error e : Except ε α) P E ↔ E e := Iff.rfl

@[simp] theorem meets_pure {a : α} : Meets (pure a : Except ε α) P E ↔ P a := Iff.rfl

theorem meets_iff : Meets x P E ↔ (∀ a, x = .ok a → P a) ∧ ∀ e, x = .error e → E e := by
  cases x <;> simp

theorem Meets.of_ok {a : α} (h : Meets x P E) (hx : x = .ok a) : P a := (meets_iff.mp h).1 a hx

theorem Meets.of_error {e : ε} (h : Meets x P E) (hx : x = .error e) : E e := (meets_iff.mp h).2 e hx

theorem Meets.imp (h : Meets x P E) (hP : ∀ a, P a → Q a) (hE : ∀ e, E e → E' e) : Meets x Q E' := by
  cases x with
  | ok a => exact hP a h
  | error e => exact hE e h

/-- What comes after may use what is known of the result. -/
theorem Meets.bind (h : Meets x P E) (hf : ∀ a, P a → Meets (f a) R E) : Meets (x >>= f) R E := by
  cases x with
  | ok a => exact hf a h
  | error e => exact h

theorem Meets.and (h : Meets x P E) (hQ : Meets x Q E') : Meets x (fun a => P a ∧ Q a) (fun e => E e ∧ E' e) := by
  cases x with
  | ok a => exact ⟨h, hQ⟩
  | error e => exact ⟨h, hQ⟩

theorem Meets.ite {c : Prop} [Decidable c] {y : Except ε α} (hx : c → Meets x P E) (hy : ¬ c → Meets y P E) :
    Meets (if c then x else y) P E := by
  split_ifs with h
  · exact hx h
  · exact hy h

/-- Each element of the list. -/
theorem Meets.mapM {l : List α} (h : ∀ a ∈ l, Meets (f a) R E) : Meets (l.mapM f) (fun bs => ∀ b ∈ bs, R b) E := by
  induction l with
  | nil => simp
  | cons a l ih =>
    rw [List.mapM_cons]
    refine (h a (.head l)).bind ?_
    intro b hb
    refine Meets.bind (ih fun c hc => h c (.tail a hc)) ?_
    intro bs hbs
    simpa using ⟨hb, hbs⟩

/-- An invariant of a fold. -/
theorem Meets.foldlM {g : β → α → Except ε β} {l : List α} {b : β} (hb : R b)
    (h : ∀ b, R b → ∀ a ∈ l, Meets (g b a) R E) : Meets (l.foldlM g b) R E := by
  induction l generalizing b with
  | nil => exact hb
  | cons a l ih =>
    rw [List.foldlM_cons]
    refine (h b hb a (.head l)).bind ?_
    intro b' hb'
    exact ih hb' fun c hc d hd => h c hc d (.tail a hd)

end Journey
