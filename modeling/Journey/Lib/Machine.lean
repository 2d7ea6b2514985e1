import Mathlib.Tactic.Common
import Mathlib.Data.Nat.Basic
import Mathlib.Data.List.Forall2

/-!
# Journey.Lib.Machine — counted loops, runs of a machine, forward simulation

Nothing here knows a program.  Three tools for code that may fail (`Except ε`):

* `forRange body n s`: the loop `for (i = 0; i < n; ++i) s = body(i, s)`, with the invariant rule
  `forRange_ok` (total: the loop ends without an error).
* `foldl_along`: an invariant of a fold whose steps each meet a condition in the state they start in.
* `foldlM_along`: an invariant of a fold that may fail, under a condition on each step, with failures of a given kind
  allowed.
* `run step s ops`: a state machine driven by a list of operations, collecting the outputs.
* `Along step P s ops`: every operation of the run meets `P` in the state it is called in;
  `run_track` carries a relation to an abstract state along such a run.
* `run_sim`: a step-wise forward simulation of one machine by another lifts to whole runs, outputs
  included.
-/

namespace Journey

variable {ε δ σ τ α β ο : Type}

/-! ## Computations that may fail -/

theorem bind_eq_ok {x : Except ε σ} {f : σ → Except ε β} {b : β} :
    x >>= f = .ok b ↔ ∃ a, x = .ok a ∧ f a = .ok b := by
  cases x with
  | error e => simp [bind, Except.bind]
  | ok a => simp [bind, Except.bind]

/-- A chain of tests that answers did so in one of its branches. -/
theorem ite_eq_ok {P : Prop} [Decidable P] {x y : Except ε β} {b : β} (h : (if P then x else y) = .ok b) :
    x = .ok b ∨ y = .ok b := by
  split_ifs at h
  · exact .inl h
  · exact .inr h

@[simp] theorem ok_bind (a : σ) (f : σ → Except ε β) :
    (Except.ok a >>= f) = f a := rfl

@[simp] theorem error_bind (e : ε) (f : σ → Except ε β) :
    ((Except.error e : Except ε σ) >>= f) = .error e := rfl

theorem stateM_get (s : σ) : (EStateM.get : EStateM ε σ σ) s = .ok s s := rfl

theorem stateM_modifyGet (f : σ → α × σ) (s : σ) : (EStateM.modifyGet f : EStateM ε σ α) s = .ok (f s).1 (f s).2 := rfl

/-- Two computations that agree up to `v`, followed by two that keep such an agreement. -/
theorem map_bind_congr {v : σ → τ} {w : β → δ} {x y : Except ε σ} {f g : σ → Except ε β}
    (h : x.map v = y.map v) (hfg : ∀ a b, v a = v b → (f a).map w = (g b).map w) :
    (x >>= f).map w = (y >>= g).map w := by
  cases x with
  | error e =>
    cases y with
    | error e' =>
      cases h
      rfl
    | ok b => cases h
  | ok a =>
    cases y with
    | error e => cases h
    | ok b => exact hfg a b (Except.ok.inj h)

theorem mapM_congr_map {v : β → τ} {f g : α → Except ε β} (h : ∀ a, (f a).map v = (g a).map v) (l : List α) :
    (l.mapM f).map (List.map v) = (l.mapM g).map (List.map v) := by
  induction l with
  | nil => rfl
  | cons a l ih =>
    rw [List.mapM_cons, List.mapM_cons]
    refine map_bind_congr (h a) ?_
    intro b b' hb
    refine map_bind_congr ih ?_
    intro bs bs' hbs
    exact congrArg Except.ok (by rw [List.map_cons, List.map_cons, hb, hbs])

theorem map_mapM {v : β → τ} (f : α → Except ε β) (l : List α) :
    (l.mapM f).map (List.map v) = l.mapM fun a => (f a).map v := by
  induction l with
  | nil => rfl
  | cons a l ih =>
    rw [List.mapM_cons, List.mapM_cons, ← ih]
    cases f a with
    | error e => rfl
    | ok b => cases l.mapM f <;> rfl

theorem toOption_eq_some {x : Except ε σ} {a : σ} : x.toOption = some a ↔ x = .ok a := by
  cases x <;> simp [Except.toOption]

theorem mapM_ok {f : α → Except ε β} {g : α → β} {l : List α} (h : ∀ a ∈ l, f a = .ok (g a)) :
    l.mapM f = .ok (l.map g) := by
  induction l with
  | nil => rfl
  | cons a l ih =>
    rw [List.mapM_cons, h a (List.mem_cons_self ..), ok_bind, ih fun b hb => h b (List.mem_cons_of_mem _ hb)]
    rfl

theorem forall₂_of_mapM_eq_ok {f : α → Except ε β} {l : List α} {bs : List β} (h : l.mapM f = .ok bs) :
    List.Forall₂ (fun a b => f a = .ok b) l bs := by
  induction l generalizing bs with
  | nil =>
    cases h
    exact .nil
  | cons a l ih =>
    rw [List.mapM_cons] at h
    obtain ⟨b, hb, h⟩ := bind_eq_ok.mp h
    obtain ⟨bs', hbs, h⟩ := bind_eq_ok.mp h
    cases h
    exact .cons hb (ih hbs)

theorem mapM_eq_ok_of_forall₂ {f : α → Except ε β} {l : List α} {bs : List β}
    (h : List.Forall₂ (fun a b => f a = .ok b) l bs) : l.mapM f = .ok bs := by
  induction h with
  | nil => rfl
  | cons hab _ ih =>
    rw [List.mapM_cons, hab, ok_bind, ih]
    rfl

theorem exists_of_mapM_eq_ok {f : α → Except ε β} {l : List α} {bs : List β} (h : l.mapM f = .ok bs) {a : α}
    (ha : a ∈ l) : ∃ b, f a = .ok b := by
  obtain ⟨k, hk, rfl⟩ := List.getElem_of_mem ha
  have hf := forall₂_of_mapM_eq_ok h
  exact ⟨_, (List.forall₂_iff_get.mp hf).2 k hk (hf.length_eq ▸ hk)⟩

theorem map_eq_of_forall₂ {R : α → β → Prop} {f : α → τ} {g : β → τ} {l : List α} {bs : List β}
    (h : List.Forall₂ R l bs) (hR : ∀ a b, R a b → f a = g b) : l.map f = bs.map g := by
  induction h with
  | nil => rfl
  | cons hab _ ih => rw [List.map_cons, List.map_cons, hR _ _ hab, ih]

theorem map_of_mapM_eq_some {f : α → Option β} {l : List α} {bs : List β} (h : l.mapM f = some bs) :
    l.map f = bs.map some := by
  induction l generalizing bs with
  | nil =>
    cases h
    rfl
  | cons a l ih =>
    simp only [List.mapM_cons, Option.bind_eq_bind, Option.bind_eq_some_iff, Option.pure_def,
      Option.some.injEq] at h
    obtain ⟨b, hb, bs', hbs, rfl⟩ := h
    rw [List.map_cons, List.map_cons, hb, ih hbs]

theorem mapM_eq_some_of_map {f : α → Option β} {l : List α} {bs : List β} (h : l.map f = bs.map some) :
    l.mapM f = some bs := by
  induction l generalizing bs with
  | nil =>
    rw [List.map_nil, eq_comm, List.map_eq_nil_iff] at h
    rw [h]
    rfl
  | cons a l ih =>
    cases bs with
    | nil => cases h
    | cons b bs =>
      rw [List.map_cons, List.map_cons, List.cons.injEq] at h
      rw [List.mapM_cons, h.1, ih h.2]
      rfl

/-- **Two maps side by side.**  If, on related elements, the first map fails where the second one does, and has
something related to what the second one has, so it is for the lists. -/
theorem mapM_rel {R : α → β → Prop} {S : σ → τ → Prop} {f : α → Option σ} {g : β → Option τ} {as : List α} {bs : List β}
    (h : List.Forall₂ R as bs) (hnone : ∀ a b, R a b → g b = none → f a = none)
    (hsome : ∀ cs, bs.mapM g = some cs → ∀ a b c, R a b → g b = some c → c ∈ cs → ∃ x, f a = some x ∧ S x c) :
    Option.Rel (List.Forall₂ S) (as.mapM f) (bs.mapM g) := by
  induction h with
  | nil => exact .some .nil
  | @cons a b as bs hab htail ih =>
    rw [List.mapM_cons] at hsome
    rw [List.mapM_cons, List.mapM_cons]
    cases hb : g b with
    | none =>
      rw [hnone a b hab hb]
      exact .none
    | some c =>
      rw [hb] at hsome
      have htails : Option.Rel (List.Forall₂ S) (as.mapM f) (bs.mapM g) := by
        refine ih ?_
        intro cs hcs a' b' c' hab' hb' hc'
        refine hsome (c :: cs) ?_ a' b' c' hab' hb' (List.mem_cons_of_mem _ hc')
        rw [hcs]
        rfl
      cases hcs : bs.mapM g with
      | none =>
        rw [hcs] at htails
        cases hf : as.mapM f with
        | some xs =>
          rw [hf] at htails
          cases htails
        | none =>
          cases f a <;> exact .none
      | some cs =>
        rw [hcs] at htails hsome
        obtain ⟨x, hx, hS⟩ := hsome (c :: cs) rfl a b c hab hb (List.mem_cons_self ..)
        cases hf : as.mapM f with
        | none =>
          rw [hf] at htails
          cases htails
        | some xs =>
          rw [hf] at htails
          cases htails with
          | some hxs =>
            rw [hx]
            exact .some (.cons hS hxs)

/-! ## Counted loops -/

/-- `for (i = 0; i < n; ++i) s = body(i, s)`. -/
def forRange (body : ℕ → σ → Except ε σ) : ℕ → σ → Except ε σ
  | 0, s => .ok s
  | n + 1, s => forRange body n s >>= body n

theorem forRange_succ (body : ℕ → σ → Except ε σ) (n : ℕ) (s : σ) :
    forRange body (n + 1) s = forRange body n s >>= body n := rfl

/-- **Loop rule**: an invariant indexed by the number of completed iterations. -/
theorem forRange_ok (body : ℕ → σ → Except ε σ) (I : ℕ → σ → Prop) :
    ∀ (n : ℕ) (s : σ), I 0 s → (∀ i < n, ∀ s, I i s → ∃ s', body i s = .ok s' ∧ I (i + 1) s') →
      ∃ s', forRange body n s = .ok s' ∧ I n s'
  | 0, s, h0, _ => ⟨s, rfl, h0⟩
  | n + 1, s, h0, hstep => by
    obtain ⟨s1, h1, hI1⟩ := forRange_ok body I n s h0 (fun i hi => hstep i (by omega))
    obtain ⟨s2, h2, hI2⟩ := hstep n (by omega) s1 hI1
    exact ⟨s2, by rw [forRange_succ, h1, ok_bind, h2], hI2⟩

/-- **Invariant rule** for a fold whose every step meets `P` in the state it is taken in. -/
theorem foldl_along {f : σ → α → σ} {P : σ → α → Prop} (I : σ → Prop)
    (hstep : ∀ s a, I s → P s a → I (f s a)) :
    ∀ (l : List α) (s : σ), I s → (∀ pre a post, l = pre ++ a :: post → P (pre.foldl f s) a) →
      I (l.foldl f s)
  | [], _, h, _ => h
  | a :: l, s, h, hP => by
    have h1 : I (f s a) := hstep s a h (hP [] a l rfl)
    refine foldl_along I hstep l (f s a) h1 ?_
    intro pre b post heq
    exact hP (a :: pre) b post (by rw [heq]; rfl)

/-- Every step of the fold meets `P` in the state it is taken in. -/
def AlongM (f : σ → α → Except ε σ) (P : σ → α → Prop) : σ → List α → Prop
  | _, [] => True
  | s, a :: as => P s a ∧ ∀ s', f s a = .ok s' → AlongM f P s' as

/-- Whether they do can be found out by folding. -/
instance decidableAlongM {f : σ → α → Except ε σ} {P : σ → α → Prop} [∀ s a, Decidable (P s a)] :
    ∀ (s : σ) (as : List α), Decidable (AlongM f P s as)
  | _, [] => isTrue trivial
  | s, a :: as =>
    match h : f s a with
    | .error _ => decidable_of_iff (P s a) ⟨fun hP => ⟨hP, fun _ hok => by rw [h] at hok; cases hok⟩, And.left⟩
    | .ok s' =>
      have : Decidable (AlongM f P s' as) := decidableAlongM s' as
      decidable_of_iff (P s a ∧ AlongM f P s' as) ⟨fun hP => ⟨hP.1, fun _ hok => by rw [h] at hok; cases hok; exact hP.2⟩,
        fun hP => ⟨hP.1, hP.2 s' h⟩⟩

/-- **Conditional invariant rule**: while the steps meet `P`, the invariant is kept and a step that
fails does so with an error of the kind `E`. -/
theorem foldlM_along {f : σ → α → Except ε σ} {P : σ → α → Prop} (I : σ → Prop) (E : ε → Prop)
    (hstep : ∀ s a, I s → P s a → (∃ s', f s a = .ok s' ∧ I s') ∨ ∃ e, f s a = .error e ∧ E e) :
    ∀ (l : List α) (s : σ), I s → AlongM f P s l →
      (∃ s', l.foldlM f s = .ok s' ∧ I s') ∨ ∃ e, l.foldlM f s = .error e ∧ E e
  | [], s, h, _ => .inl ⟨s, rfl, h⟩
  | a :: l, s, h, hP => by
    rcases hstep s a h hP.1 with ⟨s1, h1, hI1⟩ | ⟨e, he, hE⟩
    · rw [List.foldlM_cons, h1, ok_bind]
      exact foldlM_along I E hstep l s1 hI1 (hP.2 s1 h1)
    · exact .inr ⟨e, by rw [List.foldlM_cons, he, error_bind], hE⟩

/-! ## Runs of a machine -/

/-- Run the operations in order, collecting the outputs; the first error stops the run. -/
def run (step : σ → α → Except ε (ο × σ)) : σ → List α → Except ε (List ο × σ)
  | s, [] => .ok ([], s)
  | s, a :: as => do
    let (o, s1) ← step s a
    let (os, s2) ← run step s1 as
    return (o :: os, s2)

@[simp] theorem run_nil (step : σ → α → Except ε (ο × σ)) (s : σ) : run step s [] = .ok ([], s) := rfl

theorem run_cons_eq_ok {step : σ → α → Except ε (ο × σ)} {s s2 : σ} {a : α} {as : List α}
    {os : List ο} : run step s (a :: as) = .ok (os, s2) ↔
      ∃ o s1 os', step s a = .ok (o, s1) ∧ run step s1 as = .ok (os', s2) ∧ os = o :: os' := by
  simp only [run, bind_eq_ok]
  constructor
  · rintro ⟨⟨o, s1⟩, h1, ⟨os', s2'⟩, h2, h3⟩
    simp only [pure, Except.pure, Except.ok.injEq, Prod.mk.injEq] at h3
    obtain ⟨h3, rfl⟩ := h3
    exact ⟨o, s1, os', h1, h2, h3.symm⟩
  · rintro ⟨o, s1, os', h1, h2, rfl⟩
    exact ⟨(o, s1), h1, (os', s2), h2, rfl⟩

/-- Every operation meets `P` in the state it is called in. -/
def Along (step : σ → α → Except ε (ο × σ)) (P : σ → α → Prop) : σ → List α → Prop
  | _, [] => True
  | s, a :: as => P s a ∧ ∀ o s', step s a = .ok (o, s') → Along step P s' as

/-- Whether they do can be found out by running them. -/
instance decidableAlong {step : σ → α → Except ε (ο × σ)} {P : σ → α → Prop} [∀ s a, Decidable (P s a)] :
    ∀ (s : σ) (as : List α), Decidable (Along step P s as)
  | _, [] => isTrue trivial
  | s, a :: as =>
    match h : step s a with
    | .error _ => decidable_of_iff (P s a) ⟨fun hP => ⟨hP, fun _ _ hok => by rw [h] at hok; cases hok⟩, And.left⟩
    | .ok (o, s') =>
      have : Decidable (Along step P s' as) := decidableAlong s' as
      decidable_of_iff (P s a ∧ Along step P s' as) ⟨fun hP => ⟨hP.1, fun _ _ hok => by rw [h] at hok; cases hok; exact hP.2⟩,
        fun hP => ⟨hP.1, hP.2 o s' h⟩⟩

/-- A condition on the operations alone. -/
theorem along_of_forall {step : σ → α → Except ε (ο × σ)} {Q : α → Prop} :
    ∀ {as : List α}, (∀ a ∈ as, Q a) → ∀ s : σ, Along step (fun _ a => Q a) s as
  | [], _, _ => trivial
  | _ :: _, h, _ =>
    ⟨h _ (List.mem_cons_self ..), fun _ s' _ =>
      along_of_forall (fun _ ha => h _ (List.mem_cons_of_mem _ ha)) s'⟩

/-- Fold an abstract state over the operations and their outputs. -/
def track (g : τ → α → ο → τ) : τ → List α → List ο → τ
  | t, a :: as, o :: os => track g (g t a o) as os
  | t, _, _ => t

/-- **Tracking**: along a run whose operations meet `P`, a relation to an abstract state that every
step keeps holds at the end, and no step fails. -/
theorem run_track {step : σ → α → Except ε (ο × σ)} {P : σ → α → Prop} (g : τ → α → ο → τ)
    (R : σ → τ → Prop)
    (hstep : ∀ s t a, R s t → P s a → ∃ o s', step s a = .ok (o, s') ∧ R s' (g t a o)) :
    ∀ (as : List α) (s : σ) (t : τ), R s t → Along step P s as →
      ∃ os s', run step s as = .ok (os, s') ∧ R s' (track g t as os)
  | [], s, t, hR, _ => ⟨[], s, rfl, hR⟩
  | a :: as, s, t, hR, hP => by
    obtain ⟨o, s1, h1, hR1⟩ := hstep s t a hR hP.1
    obtain ⟨os, s2, h2, hR2⟩ := run_track g R hstep as s1 _ hR1 (hP.2 o s1 h1)
    exact ⟨o :: os, s2, run_cons_eq_ok.mpr ⟨o, s1, os, h1, h2, rfl⟩, hR2⟩

/-- **Forward simulation**: if every step of the abstract machine is matched by a step of the
concrete one with the same output, every run is matched by a run with the same outputs. -/
theorem run_sim {step : σ → α → Except ε (ο × σ)} {astep : τ → α → Except δ (ο × τ)}
    (R : σ → τ → Prop)
    (hstep : ∀ s t a o t', R s t → astep t a = .ok (o, t') → ∃ s', step s a = .ok (o, s') ∧ R s' t') :
    ∀ (ops : List α) (s : σ) (t : τ) (os : List ο) (t' : τ), R s t → run astep t ops = .ok (os, t') →
      ∃ s', run step s ops = .ok (os, s') ∧ R s' t'
  | [], s, t, os, t', hR, h => by
    simp only [run_nil, Except.ok.injEq, Prod.mk.injEq] at h
    obtain ⟨rfl, rfl⟩ := h
    exact ⟨s, rfl, hR⟩
  | a :: as, s, t, os, t', hR, h => by
    obtain ⟨o, t1, os', h1, h2, rfl⟩ := run_cons_eq_ok.mp h
    obtain ⟨s1, hs1, hR1⟩ := hstep s t a o t1 hR h1
    obtain ⟨s2, hs2, hR2⟩ := run_sim R hstep as s1 t1 os' t' hR1 h2
    exact ⟨s2, run_cons_eq_ok.mpr ⟨o, s1, os', hs1, hs2, rfl⟩, hR2⟩

end Journey
