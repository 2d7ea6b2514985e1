import Journey.Lib.Latches
import Journey.Lib.Monitors

/-!
# Journey.Lib.Threads — threads that share data and take latches

Nothing here knows a program.  A thread makes calls, one after the other.  A step of a call takes a latch, reads and
writes the data once, or returns and lets go of the latches; a thread that waits for a latch stays where it is.

* `Code`: the calls, step by step, and what is held where; `step`, `run`: a schedule.
* `Keeps`, `Keeps.run`: **the rule for invariants**.  `G` is about the data and the answers, `Ok` about one thread; what
  a thread does has to leave alone what the others know, given that they hold nothing that it holds exclusively.
* `exists_goes`: **latches taken in an order never block all the threads**.
* `exists_finish`: **calls that come nearer to their end with each step can all be brought to it**.
-/

namespace Journey.Threads

open Latches

variable {ι κ σ π L ρ η : Type}

/-- What a thread does next. -/
inductive Act (σ π L ρ η : Type)
  | take (l : L) (m : Mode) (p : π)
  | go (d : σ) (p : π)
  | return_ (r : ρ)
  /-- the process ends -/
  | halt (e : η)

structure Code (κ σ π L ρ η : Type) where
  enter : κ → σ → Option π
  act : σ → π → Act σ π L ρ η
  holds : π → L → Option Mode
  holds_enter : ∀ {k d p}, enter k d = some p → ∀ l, holds p l = none
  holds_take : ∀ {d p l m p'}, act d p = .take l m p' →
    ∀ l' m', holds p' l' = some m' → holds p l' = some m' ∨ l' = l ∧ m' = m
  holds_go : ∀ {d p d' p'}, act d p = .go d' p' → ∀ l m, holds p' l = some m → holds p l = some m

/-- `returned` is a history variable: no step reads it. -/
structure State (ι σ π ρ η : Type) where
  data : σ
  pc : ι → Option π
  returned : List (ι × ρ)
  halted : Option η

def start (d : σ) : State ι σ π ρ η := ⟨d, fun _ => none, [], none⟩

inductive Move (κ : Type)
  | call (k : κ)
  | go
deriving DecidableEq, Repr

/-- What a thread holds; one without a call holds nothing. -/
def Code.held (C : Code κ σ π L ρ η) (p : Option π) (l : L) : Option Mode := p.bind fun p => C.holds p l

section Steps

variable [DecidableEq ι] (C : Code κ σ π L ρ η)

def State.goto (s : State ι σ π ρ η) (t : ι) (p : Option π) : State ι σ π ρ η :=
  { s with pc := Function.update s.pc t p }

def State.holds (s : State ι σ π ρ η) (t : ι) : L → Option Mode := C.held (s.pc t)

variable [Fintype ι]

/-- One step of the thread `m.1`; it stays where it is if the move is not open to it. -/
def step (s : State ι σ π ρ η) (m : ι × Move κ) : State ι σ π ρ η :=
  if s.halted.isSome then s
  else
    match s.pc m.1, m.2 with
    | none, .call k => s.goto m.1 (C.enter k s.data)
    | some p, .go =>
      match C.act s.data p with
      | .take l mode p' => if Free (s.holds C) m.1 l mode then s.goto m.1 (some p') else s
      | .go d p' => { s.goto m.1 (some p') with data := d }
      | .return_ r => { s.goto m.1 none with returned := s.returned ++ [(m.1, r)] }
      | .halt e => { s with halted := some e }
    | _, _ => s

/-- A schedule. -/
def run (s : State ι σ π ρ η) (ms : List (ι × Move κ)) : State ι σ π ρ η := ms.foldl (step C) s

/-- Each call is allowed, given the answers up to then. -/
def Along (allowed : List (ι × ρ) → ι → κ → Prop) : State ι σ π ρ η → List (ι × Move κ) → Prop
  | _, [] => True
  | s, m :: ms => (∀ k, m.2 = .call k → allowed s.returned m.1 k) ∧ Along allowed (step C s m) ms

theorem along_of_forall {allowed : ι → κ → Prop} {ms : List (ι × Move κ)}
    (h : ∀ t k, (t, .call k) ∈ ms → allowed t k) (s : State ι σ π ρ η) : Along C (fun _ => allowed) s ms := by
  induction ms generalizing s with
  | nil => trivial
  | cons m ms ih =>
    obtain ⟨t, move⟩ := m
    refine ⟨?_, ih (fun u k hm => h u k (List.mem_cons_of_mem _ hm)) _⟩
    rintro k rfl
    exact h t k (List.mem_cons_self ..)

end Steps

/-! ## The rule for invariants -/

section Invariants

variable (C : Code κ σ π L ρ η)

/-- Two threads hold nothing together, but what both of them share. -/
def Apart (p : π) (q : Option π) : Prop :=
  ∀ l, (C.holds p l = some .exclusive → C.held q l = none) ∧ (C.held q l = some .exclusive → C.holds p l = none)

/-- **The rule.**  `Fine` says how the process may end. -/
structure Keeps (allowed : List (ι × ρ) → ι → κ → Prop) (G : σ → List (ι × ρ) → Prop)
    (Ok : ι → Option π → σ → List (ι × ρ) → Prop) (Fine : η → σ → Prop) : Prop where
  enter : ∀ {d R t k p}, G d R → allowed R t k → Ok t none d R → C.enter k d = some p → Ok t (some p) d R
  take : ∀ {d R t p l m p'}, G d R → Ok t (some p) d R → C.act d p = .take l m p' → Ok t (some p') d R
  go : ∀ {d R t p d' p'}, G d R → Ok t (some p) d R → C.act d p = .go d' p' →
    G d' R ∧ Ok t (some p') d' R ∧ ∀ u q, u ≠ t → Apart C p q → Ok u q d R → Ok u q d' R
  return_ : ∀ {d R t p r}, G d R → Ok t (some p) d R → C.act d p = .return_ r →
    G d (R ++ [(t, r)]) ∧ Ok t none d (R ++ [(t, r)]) ∧
      ∀ u q, u ≠ t → Apart C p q → Ok u q d R → Ok u q d (R ++ [(t, r)])
  halt : ∀ {d R t p e}, G d R → Ok t (some p) d R → C.act d p = .halt e → Fine e d

structure Inv (G : σ → List (ι × ρ) → Prop) (Ok : ι → Option π → σ → List (ι × ρ) → Prop) (Fine : η → σ → Prop)
    (s : State ι σ π ρ η) : Prop where
  exclusion : Exclusion (s.holds C)
  shared : G s.data s.returned
  ok : ∀ t, Ok t (s.pc t) s.data s.returned
  fine : ∀ e, s.halted = some e → Fine e s.data

variable {C} {allowed : List (ι × ρ) → ι → κ → Prop} {G : σ → List (ι × ρ) → Prop}
  {Ok : ι → Option π → σ → List (ι × ρ) → Prop} {Fine : η → σ → Prop} {s : State ι σ π ρ η}

theorem Inv.apart (h : Inv C G Ok Fine s) {t u : ι} {p : π} (hp : s.pc t = some p) (hu : u ≠ t) :
    Apart C p (s.pc u) := by
  have hheld : ∀ l, s.holds C t l = C.holds p l := by
    intro l
    rw [State.holds, hp]
    rfl
  intro l
  rw [← hheld]
  exact ⟨h.exclusion t u l hu.symm, h.exclusion u t l hu⟩

variable [DecidableEq ι]

theorem holds_goto (s : State ι σ π ρ η) (t : ι) (p : Option π) :
    (s.goto t p).holds C = Function.update (s.holds C) t (C.held p) := by
  funext u
  show C.held (Function.update s.pc t p u) = _
  by_cases hu : u = t
  · subst hu
    rw [Function.update_self, Function.update_self]
  · rw [Function.update_of_ne hu, Function.update_of_ne hu]
    rfl

/-- One thread goes on, to a place where it holds what it has held or what was free. -/
theorem Inv.move (h : Inv C G Ok Fine s) (hrunning : s.halted = none) {t : ι} {p : Option π} {d : σ}
    {R : List (ι × ρ)} (hlatch : ∀ l m, C.held p l = some m → s.holds C t l = some m ∨ Free (s.holds C) t l m)
    (hG : G d R) (hok : Ok t p d R) (hothers : ∀ u, u ≠ t → Ok u (s.pc u) d R) :
    Inv C G Ok Fine { s.goto t p with data := d, returned := R } := by
  refine ⟨?_, hG, ?_, ?_⟩
  · have hexcl : Exclusion (Function.update (s.holds C) t (C.held p)) := h.exclusion.step hlatch
    rw [← holds_goto] at hexcl
    exact hexcl
  · intro u
    show Ok u (Function.update s.pc t p u) d R
    by_cases hu : u = t
    · subst hu
      rw [Function.update_self]
      exact hok
    · rw [Function.update_of_ne hu]
      exact hothers u hu
  · intro e he
    rw [show s.halted = some e from he] at hrunning
    cases hrunning

variable [Fintype ι]

/-- **Step lemma.** -/
theorem Keeps.step (hkeeps : Keeps C allowed G Ok Fine) (h : Inv C G Ok Fine s) {m : ι × Move κ}
    (hallowed : ∀ k, m.2 = .call k → allowed s.returned m.1 k) : Inv C G Ok Fine (Threads.step C s m) := by
  obtain ⟨t, move⟩ := m
  unfold Threads.step
  split_ifs with hhalted
  · exact h
  have hrunning : s.halted = none := Option.not_isSome_iff_eq_none.mp hhalted
  have hok := h.ok t
  dsimp only
  cases hpc : s.pc t with
  | none =>
    rw [hpc] at hok
    cases move with
    | go => exact h
    | call k =>
      dsimp only
      refine h.move hrunning ?_ h.shared ?_ fun u _ => h.ok u
      · intro l m hheld
        cases henter : C.enter k s.data with
        | none =>
          rw [henter] at hheld
          cases hheld
        | some p =>
          rw [henter] at hheld
          have hnone := C.holds_enter henter l
          rw [Code.held, Option.bind_some, hnone] at hheld
          cases hheld
      · cases henter : C.enter k s.data with
        | none => exact hok
        | some p => exact hkeeps.enter h.shared (hallowed k rfl) hok henter
  | some p =>
    rw [hpc] at hok
    have hheld : s.holds C t = C.holds p := by
      funext l
      rw [State.holds, hpc]
      rfl
    cases move with
    | call k => exact h
    | go =>
      dsimp only
      cases hact : C.act s.data p with
      | take l mode p' =>
        dsimp only
        split_ifs with hfree
        · refine h.move hrunning ?_ h.shared (hkeeps.take h.shared hok hact) fun u _ => h.ok u
          intro l' m' hl'
          rw [hheld]
          rcases C.holds_take hact l' m' hl' with hold | ⟨rfl, rfl⟩
          · exact .inl hold
          · exact .inr hfree
        · exact h
      | go d p' =>
        obtain ⟨hG, hmine, hothers⟩ := hkeeps.go h.shared hok hact
        refine h.move hrunning ?_ hG hmine fun u hu => hothers u _ hu (h.apart hpc hu) (h.ok u)
        intro l m hl
        rw [hheld]
        exact .inl (C.holds_go hact l m hl)
      | return_ r =>
        obtain ⟨hG, hmine, hothers⟩ := hkeeps.return_ h.shared hok hact
        refine h.move hrunning ?_ hG hmine fun u hu => hothers u _ hu (h.apart hpc hu) (h.ok u)
        intro l m hl
        cases hl
      | halt e =>
        refine ⟨h.exclusion, h.shared, h.ok, ?_⟩
        rintro e' ⟨⟩
        exact hkeeps.halt h.shared hok hact

/-- **Run lemma.** -/
theorem Keeps.run (hkeeps : Keeps C allowed G Ok Fine) {ms : List (ι × Move κ)} (h : Inv C G Ok Fine s)
    (hms : Along C allowed s ms) : Inv C G Ok Fine (Threads.run C s ms) := by
  induction ms generalizing s with
  | nil => exact h
  | cons m ms ih => exact ih (hkeeps.step h hms.1) hms.2

omit [DecidableEq ι] [Fintype ι] in
theorem inv_start {d : σ} (hG : G d []) (hok : ∀ t, Ok t none d []) : Inv C G Ok Fine (start d) := by
  refine ⟨?_, hG, hok, ?_⟩
  · intro t u l _ hheld
    cases hheld
  · intro e he
    cases he

end Invariants

/-! ## Progress -/

section Progress

variable (C : Code κ σ π L ρ η)

/-- The thread is in a call and does not wait. -/
def Goes (s : State ι σ π ρ η) (t : ι) : Prop :=
  ∃ p, s.pc t = some p ∧ ∀ l m p', C.act s.data p = .take l m p' → Free (s.holds C) t l m

variable {C} {s : State ι σ π ρ η}

/-- The rank of the latch that the thread takes next. -/
def wanted (C : Code κ σ π L ρ η) (s : State ι σ π ρ η) (rank : L → ℕ) (t : ι) : ℕ :=
  match s.pc t with
  | none => 0
  | some p =>
    match C.act s.data p with
    | .take l _ _ => rank l
    | _ => 0

/-- **Threads that take their latches in an order do not block each other.** -/
theorem exists_goes [Fintype ι] (rank : L → ℕ)
    (hrank : ∀ d p l m p', C.act d p = .take l m p' → ∀ l', C.holds p l' ≠ none → rank l' < rank l) {t : ι} {p : π}
    (hp : s.pc t = some p) : ∃ u, Goes C s u := by
  by_contra hnone
  rw [not_exists] at hnone
  -- a thread that waits, waits for one that waits for a latch of a higher rank
  have hchain : ∀ n, ∃ u p l m p', s.pc u = some p ∧ C.act s.data p = .take l m p' ∧ n ≤ rank l := by
    have hwaits : ∀ u p, s.pc u = some p → ∃ l m p', C.act s.data p = .take l m p' ∧ ¬ Free (s.holds C) u l m := by
      intro u p hu
      by_contra hgo
      refine hnone u ⟨p, hu, ?_⟩
      intro l m p' hact
      by_contra hfree
      exact hgo ⟨l, m, p', hact, hfree⟩
    intro n
    induction n with
    | zero =>
      obtain ⟨l, m, p', hact, -⟩ := hwaits t p hp
      exact ⟨t, p, l, m, p', hp, hact, Nat.zero_le _⟩
    | succ n ih =>
      obtain ⟨u, q, l, m, q', hu, hact, hn⟩ := ih
      obtain ⟨l₁, m₁, q₁, hact₁, hfree⟩ := hwaits u q hu
      rw [hact] at hact₁
      cases hact₁
      rw [Free] at hfree
      push Not at hfree
      obtain ⟨v, -, hheld⟩ := hfree
      cases hv : s.pc v with
      | none =>
        rw [State.holds, hv] at hheld
        exact absurd rfl hheld
      | some r =>
        obtain ⟨l₂, m₂, r', hact₂, -⟩ := hwaits v r hv
        refine ⟨v, r, l₂, m₂, r', hv, hact₂, ?_⟩
        have hlt := hrank _ _ _ _ _ hact₂ l ?_
        · omega
        · intro hfree
          rw [State.holds, hv, Code.held, Option.bind_some, hfree] at hheld
          exact hheld rfl
  -- but the threads are finitely many
  obtain ⟨u, q, l, m, q', hu, hact, hle⟩ := hchain (Finset.univ.sup (wanted C s rank) + 1)
  have hwanted : wanted C s rank u = rank l := by
    unfold wanted
    rw [hu]
    dsimp only
    rw [hact]
  have hsup := Finset.le_sup (f := wanted C s rank) (Finset.mem_univ u)
  omega

variable [Fintype ι] (effort : π → ℕ)

/-- What a call has left to do; nothing if there is none. -/
def left (p : Option π) : ℕ := p.elim 0 fun p => effort p + 1

def total (s : State ι σ π ρ η) : ℕ := ∑ t, left effort (s.pc t)

variable [DecidableEq ι]

theorem total_goto (s : State ι σ π ρ η) (t : ι) (p : Option π) :
    total effort (s.goto t p) + left effort (s.pc t) = total effort s + left effort p := by
  rw [total, total, ← Monitor.sum_update (fun u => left effort (s.pc u)) t (left effort p)]
  congr 1
  refine Finset.sum_congr rfl ?_
  intro u _
  exact Function.apply_update (fun _ q => left effort q) s.pc t p u

variable {effort}

/-- **A step of a thread that does not wait brings its call nearer to the end.** -/
theorem total_step (htake : ∀ d p l m p', C.act d p = .take l m p' → effort p' < effort p)
    (hgo : ∀ d p d' p', C.act d p = .go d' p' → effort p' < effort p) {t : ι} (hgoes : Goes C s t) :
    (step C s (t, .go)).halted.isSome ∨ total effort (step C s (t, .go)) < total effort s := by
  obtain ⟨p, hp, hfree⟩ := hgoes
  unfold step
  split_ifs with hhalted
  · exact .inl hhalted
  dsimp only
  rw [hp]
  dsimp only
  cases hact : C.act s.data p with
  | take l m p' =>
    dsimp only
    rw [if_pos (hfree l m p' hact)]
    have hsum := total_goto effort s t (some p')
    have hlt := htake _ _ _ _ _ hact
    rw [hp] at hsum
    simp only [left, Option.elim_some] at hsum
    exact .inr (by omega)
  | go d p' =>
    have hsum := total_goto effort s t (some p')
    have hlt := hgo _ _ _ _ hact
    rw [hp] at hsum
    simp only [left, Option.elim_some] at hsum
    right
    show total effort (s.goto t (some p')) < _
    omega
  | return_ r =>
    have hsum := total_goto effort s t none
    rw [hp] at hsum
    simp only [left, Option.elim_some, Option.elim_none] at hsum
    right
    show total effort (s.goto t none) < _
    omega
  | halt e => exact .inl rfl

/-- **All the calls can be brought to their ends**, unless the process ends before. -/
theorem exists_finish (rank : L → ℕ)
    (hrank : ∀ d p l m p', C.act d p = .take l m p' → ∀ l', C.holds p l' ≠ none → rank l' < rank l)
    (htake : ∀ d p l m p', C.act d p = .take l m p' → effort p' < effort p)
    (hgo : ∀ d p d' p', C.act d p = .go d' p' → effort p' < effort p) (s : State ι σ π ρ η) :
    ∃ ts : List ι, (run C s (ts.map (·, .go))).halted.isSome ∨ ∀ t, (run C s (ts.map (·, .go))).pc t = none := by
  generalize hn : total effort s = n
  induction n using Nat.strong_induction_on generalizing s with
  | _ n ih =>
    by_cases hidle : ∀ t, s.pc t = none
    · exact ⟨[], .inr hidle⟩
    rw [not_forall] at hidle
    obtain ⟨t, ht⟩ := hidle
    obtain ⟨p, hp⟩ := Option.ne_none_iff_exists'.mp ht
    obtain ⟨u, hu⟩ := exists_goes rank hrank hp
    rcases total_step htake hgo hu with hhalted | hlt
    · exact ⟨[u], .inl hhalted⟩
    · obtain ⟨ts, hts⟩ := ih _ (hn ▸ hlt) _ rfl
      exact ⟨u :: ts, hts⟩

end Progress

end Journey.Threads
