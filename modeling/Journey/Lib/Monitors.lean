import Mathlib.Algebra.BigOperators.Group.Finset.Piecewise
import Mathlib.Algebra.Order.BigOperators.Group.Finset
import Mathlib.Data.Fintype.Basic
import Mathlib.Logic.Function.Basic
import Mathlib.Tactic.Common

/-!
# Journey.Lib.Monitors — data behind a mutex, with one condition variable

Nothing here knows a program.  A call of a monitor takes the mutex, waits on the condition variable until the data are
ready for it, works on the data, lets go of the mutex and, if it is a call that notifies, then wakes all who wait.
A step is what one client does between two points where another client may go on; a sleeping client may also wake
without a notification.

* `Monitor.step`, `Monitor.runs`: the system; `Took` names the cases of a step.
* `Inv`: what every run keeps.  The mutex has at most one holder; the log of the finished critical sections is a run of
  the sequential object (`Legal`); each client gets back what its own entries of the log say.
* `Attended`: **no wake-up is lost**.  If a sleeping client could go on, a client is on its way to notify.  It needs
  `Quiet`: only calls that notify make the data ready for another call.
* `effort`: every step of a client that is neither a new call nor a wake-up by chance lowers it, so the calls that are
  under way come to an end; `quiescent` says where.
-/

namespace Journey

/-- A call `k` of the sequential object: it waits until `ready k`, and then answers and changes the data. -/
structure Monitor (κ σ ρ : Type) where
  ready : κ → σ → Bool
  body : κ → σ → ρ × σ
  notifies : κ → Bool

namespace Monitor

variable {ι κ σ ρ : Type}

/-- Where a client is. -/
inductive Pc (κ ρ : Type)
  | idle
  /-- before it takes the mutex, for the first time or after it slept -/
  | enter (k : κ)
  | test (k : κ)
  | asleep (k : κ)
  | run (k : κ)
  /-- after its work on the data, before it lets go of the mutex -/
  | leave (k : κ) (r : ρ)
  | notify (k : κ) (r : ρ)
deriving DecidableEq, Repr

/-- The client has the mutex. -/
@[simp] def Pc.holds : Pc κ ρ → Bool
  | .test _ | .run _ | .leave _ _ => true
  | _ => false

@[simp] def Pc.woken : Pc κ ρ → Pc κ ρ
  | .asleep k => .enter k
  | p => p

/-- The answer that the client has and has not returned yet. -/
@[simp] def Pc.pending : Pc κ ρ → List (κ × ρ)
  | .leave k r | .notify k r => [(k, r)]
  | _ => []

/-- `log` and `returned` are history variables: no step reads them. -/
structure State (ι κ σ ρ : Type) where
  data : σ
  owner : Option ι
  pc : ι → Pc κ ρ
  log : List (ι × κ × ρ)
  returned : ι → List (κ × ρ)

def init (d : σ) : State ι κ σ ρ := ⟨d, none, fun _ => .idle, [], fun _ => []⟩

/-- A client calls, goes on, or wakes up by chance. -/
inductive Move (κ : Type)
  | call (k : κ)
  | go
  | wake
deriving DecidableEq, Repr

section Steps

variable [DecidableEq ι] (M : Monitor κ σ ρ)

def State.goto (s : State ι κ σ ρ) (t : ι) (p : Pc κ ρ) : State ι κ σ ρ :=
  { s with pc := Function.update s.pc t p }

def State.return_ (s : State ι κ σ ρ) (t : ι) (k : κ) (r : ρ) : State ι κ σ ρ :=
  { s.goto t .idle with returned := Function.update s.returned t (s.returned t ++ [(k, r)]) }

/-- The client has done its work on the data. -/
def State.work (s : State ι κ σ ρ) (t : ι) (k : κ) : State ι κ σ ρ :=
  { s.goto t (.leave k (M.body k s.data).1) with
    data := (M.body k s.data).2
    log := s.log ++ [(t, k, (M.body k s.data).1)] }

@[simp] theorem goto_owner (s : State ι κ σ ρ) (t : ι) (p : Pc κ ρ) : (s.goto t p).owner = s.owner := rfl

@[simp] theorem return_owner (s : State ι κ σ ρ) (t : ι) (k : κ) (r : ρ) : (s.return_ t k r).owner = s.owner := rfl

@[simp] theorem work_owner (s : State ι κ σ ρ) (t : ι) (k : κ) : (s.work M t k).owner = s.owner := rfl

/-- A step of the client `t`; `none` where the move is not open to it. -/
def step (s : State ι κ σ ρ) (t : ι) (m : Move κ) : Option (State ι κ σ ρ) :=
  match m, s.pc t with
  | .call k, .idle => some (s.goto t (.enter k))
  | .wake, .asleep k => some (s.goto t (.enter k))
  | .go, .enter k => if s.owner.isNone then some { s.goto t (.test k) with owner := some t } else none
  | .go, .test k =>
    -- `wait` lets go of the mutex and falls asleep in one step
    if M.ready k s.data then some (s.goto t (.run k)) else some { s.goto t (.asleep k) with owner := none }
  | .go, .run k => some (s.work M t k)
  | .go, .leave k r =>
    if M.notifies k then some { s.goto t (.notify k r) with owner := none }
    else some { s.return_ t k r with owner := none }
  | .go, .notify k r => some ({ s with pc := fun u => (s.pc u).woken }.return_ t k r)
  | _, _ => none

/-- A schedule: who moves, and how. -/
def runs (s : State ι κ σ ρ) (ms : List (ι × Move κ)) : Option (State ι κ σ ρ) :=
  ms.foldlM (fun s m => M.step s m.1 m.2) s

/-- The cases of a step. -/
inductive Took (s : State ι κ σ ρ) (t : ι) : Move κ → State ι κ σ ρ → Prop
  | call {k : κ} (hpc : s.pc t = .idle) : Took s t (.call k) (s.goto t (.enter k))
  | wake {k : κ} (hpc : s.pc t = .asleep k) : Took s t .wake (s.goto t (.enter k))
  | enter {k : κ} (hpc : s.pc t = .enter k) (hfree : s.owner = none) :
    Took s t .go { s.goto t (.test k) with owner := some t }
  | ready {k : κ} (hpc : s.pc t = .test k) (hready : M.ready k s.data = true) : Took s t .go (s.goto t (.run k))
  | sleep {k : κ} (hpc : s.pc t = .test k) (hready : M.ready k s.data = false) :
    Took s t .go { s.goto t (.asleep k) with owner := none }
  | work {k : κ} (hpc : s.pc t = .run k) : Took s t .go (s.work M t k)
  | unlock {k : κ} {r : ρ} (hpc : s.pc t = .leave k r) (hn : M.notifies k = true) :
    Took s t .go { s.goto t (.notify k r) with owner := none }
  | leave {k : κ} {r : ρ} (hpc : s.pc t = .leave k r) (hn : M.notifies k = false) :
    Took s t .go { s.return_ t k r with owner := none }
  | notify {k : κ} {r : ρ} (hpc : s.pc t = .notify k r) :
    Took s t .go ({ s with pc := fun u => (s.pc u).woken }.return_ t k r)

variable {M}

theorem took_of_step {s s' : State ι κ σ ρ} {t : ι} {m : Move κ} (h : M.step s t m = some s') : Took M s t m s' := by
  unfold step at h
  split at h
  · cases h
    exact .call ‹_›
  · cases h
    exact .wake ‹_›
  · split_ifs at h with hfree
    cases h
    exact .enter ‹_› (Option.isNone_iff_eq_none.mp hfree)
  · split_ifs at h with hready
    · cases h
      exact .ready ‹_› hready
    · cases h
      exact .sleep ‹_› (Bool.not_eq_true _ ▸ hready)
  · cases h
    exact .work ‹_›
  · split_ifs at h with hn
    · cases h
      exact .unlock ‹_› hn
    · cases h
      exact .leave ‹_› (Bool.not_eq_true _ ▸ hn)
  · cases h
    exact .notify ‹_›
  · cases h

theorem runs_cons {s s' : State ι κ σ ρ} {m : ι × Move κ} {ms : List (ι × Move κ)} :
    M.runs s (m :: ms) = some s' ↔ ∃ s₁, M.step s m.1 m.2 = some s₁ ∧ M.runs s₁ ms = some s' := by
  unfold runs
  rw [List.foldlM_cons]
  exact Option.bind_eq_some_iff

/-- **Invariant rule** for runs. -/
theorem runs_inv {I : State ι κ σ ρ → Prop} (hstep : ∀ s t m s', I s → Took M s t m s' → I s') :
    ∀ {ms : List (ι × Move κ)} {s s' : State ι κ σ ρ}, I s → M.runs s ms = some s' → I s'
  | [], s, s', h, hr => by
    cases hr
    exact h
  | m :: ms, s, s', h, hr => by
    obtain ⟨s₁, h₁, hr⟩ := runs_cons.mp hr
    exact runs_inv hstep (hstep s _ _ s₁ h (took_of_step h₁)) hr

end Steps

/-! ## What every run keeps -/

section Safety

variable {M : Monitor κ σ ρ}

/-- The calls, one after the other, are a run of the sequential object. -/
def Legal (M : Monitor κ σ ρ) : σ → List (κ × ρ) → σ → Prop
  | d, [], d' => d = d'
  | d, (k, r) :: l, d' => M.ready k d = true ∧ (M.body k d).1 = r ∧ Legal M (M.body k d).2 l d'

theorem Legal.snoc {d d' : σ} {l : List (κ × ρ)} {k : κ} (h : Legal M d l d') (hk : M.ready k d' = true) :
    Legal M d (l ++ [(k, (M.body k d').1)]) (M.body k d').2 := by
  induction l generalizing d with
  | nil =>
    cases h
    exact ⟨hk, rfl, rfl⟩
  | cons e l ih => exact ⟨h.1, h.2.1, ih h.2.2⟩

variable [DecidableEq ι]

/-- The entries of one client. -/
def mine (t : ι) (l : List (ι × κ × ρ)) : List (κ × ρ) := (l.filter fun e => e.1 = t).map Prod.snd

omit [DecidableEq ι] in
theorem holds_woken (p : Pc κ ρ) : p.woken.holds = p.holds := by
  cases p <;> rfl

omit [DecidableEq ι] in
theorem pending_woken (p : Pc κ ρ) : p.woken.pending = p.pending := by
  cases p <;> rfl

omit [DecidableEq ι] in
theorem woken_eq_run {p : Pc κ ρ} {k : κ} (h : p.woken = .run k) : p = .run k := by
  cases p <;> first | exact h | cases h

theorem mine_snoc (t : ι) (l : List (ι × κ × ρ)) (u : ι) (e : κ × ρ) :
    mine t (l ++ [(u, e)]) = mine t l ++ if u = t then [e] else [] := by
  unfold mine
  rw [List.filter_append, List.map_append]
  by_cases h : u = t <;> simp [h]

structure Inv (M : Monitor κ σ ρ) (d : σ) (s : State ι κ σ ρ) : Prop where
  locked : ∀ t, (s.pc t).holds = true ↔ s.owner = some t
  ready : ∀ t k, s.pc t = .run k → M.ready k s.data = true
  legal : Legal M d (s.log.map Prod.snd) s.data
  calls : ∀ t, mine t s.log = s.returned t ++ (s.pc t).pending

theorem inv_init (d : σ) : Inv (ι := ι) M d (init d) := by
  constructor
  · intro t
    simp [init]
  · intro t k h
    cases h
  · rfl
  · intro t
    rfl

variable {d : σ} {s s' : State ι κ σ ρ} {t : ι} {m : Move κ}

/-- **Mutual exclusion.** -/
theorem Inv.exclusive (h : Inv M d s) {t u : ι} (ht : (s.pc t).holds = true) (hu : (s.pc u).holds = true) :
    t = u := by
  have h₁ := (h.locked t).mp ht
  rw [(h.locked u).mp hu] at h₁
  exact (Option.some.inj h₁).symm

/-- A step after which the mutex is held as the place of the client that moved says. -/
theorem locked_update (h : ∀ u, (s.pc u).holds = true ↔ s.owner = some u) {p : Pc κ ρ} {o : Option ι}
    (hto : p.holds = true ↔ o = some t) (hother : ∀ u, u ≠ t → (s.owner = some u ↔ o = some u)) (u : ι) :
    (Function.update s.pc t p u).holds = true ↔ o = some u := by
  by_cases hu : u = t
  · subst hu
    rw [Function.update_self]
    exact hto
  · rw [Function.update_of_ne hu, h u]
    exact hother u hu

theorem ready_update (h : ∀ u k, s.pc u = .run k → M.ready k s.data = true) {p : Pc κ ρ}
    (hp : ∀ k, p = .run k → M.ready k s.data = true) (u : ι) (k : κ) (hu : Function.update s.pc t p u = .run k) :
    M.ready k s.data = true := by
  by_cases hut : u = t
  · subst hut
    rw [Function.update_self] at hu
    exact hp k hu
  · rw [Function.update_of_ne hut] at hu
    exact h u k hu

theorem calls_update (h : ∀ u, mine u s.log = s.returned u ++ (s.pc u).pending) {p : Pc κ ρ}
    (hp : p.pending = (s.pc t).pending) (u : ι) :
    mine u s.log = s.returned u ++ (Function.update s.pc t p u).pending := by
  by_cases hu : u = t
  · subst hu
    rw [Function.update_self, hp]
    exact h u
  · rw [Function.update_of_ne hu]
    exact h u

theorem calls_return (h : ∀ u, mine u s.log = s.returned u ++ (s.pc u).pending) {k : κ} {r : ρ}
    (hp : (s.pc t).pending = [(k, r)]) (u : ι) :
    mine u s.log = Function.update s.returned t (s.returned t ++ [(k, r)]) u ++
      (Function.update s.pc t Pc.idle u).pending := by
  by_cases hu : u = t
  · subst hu
    rw [Function.update_self, Function.update_self, h u, hp]
    exact (List.append_nil _).symm
  · rw [Function.update_of_ne hu, Function.update_of_ne hu]
    exact h u

/-- Nobody but the holder of the mutex changes the data or lets go of it. -/
theorem Inv.owner_ne (h : Inv M d s) {u : ι} (ht : (s.pc t).holds = true) (hu : u ≠ t) : s.owner ≠ some u := by
  rw [(h.locked t).mp ht]
  simpa using hu.symm

/-- A call does its work with the mutex held: nobody else is at theirs. -/
theorem Inv.work (h : Inv M d s) {k : κ} (hpc : s.pc t = .run k) : Inv M d (s.work M t k) := by
  have hk := h.ready t k hpc
  have hholds : (s.pc t).holds = true := by rw [hpc]; rfl
  refine ⟨locked_update h.locked ?_ fun _ _ => Iff.rfl, ?_, ?_, ?_⟩
  · simpa [hpc] using h.locked t
  · intro u k' hu
    by_cases hut : u = t
    · subst hut
      have hu : Function.update s.pc u (.leave k (M.body k s.data).1) u = .run k' := hu
      rw [Function.update_self] at hu
      cases hu
    · have hu : Function.update s.pc t (.leave k (M.body k s.data).1) u = .run k' := hu
      rw [Function.update_of_ne hut] at hu
      exact absurd (h.exclusive (by rw [hu]; rfl) hholds) hut
  · show Legal M d ((s.log ++ [_]).map Prod.snd) _
    rw [List.map_append]
    exact h.legal.snoc hk
  · intro u
    show mine u (s.log ++ [_]) = s.returned u ++ (Function.update s.pc t _ u).pending
    rw [mine_snoc, h.calls u]
    by_cases hut : u = t
    · subst hut
      rw [Function.update_self, hpc, if_pos rfl]
      exact congrArg (· ++ _) (List.append_nil _)
    · rw [Function.update_of_ne hut, if_neg (Ne.symm hut), List.append_nil]

/-- Waking all that sleep changes their places only. -/
theorem Inv.woken (h : Inv M d s) : Inv M d { s with pc := fun u => (s.pc u).woken } := by
  refine ⟨?_, ?_, h.legal, ?_⟩
  · intro u
    show (s.pc u).woken.holds = true ↔ _
    rw [holds_woken]
    exact h.locked u
  · intro u k hu
    exact h.ready u k (woken_eq_run hu)
  · intro u
    show mine u s.log = s.returned u ++ (s.pc u).woken.pending
    rw [pending_woken]
    exact h.calls u

/-- **Step lemma.** -/
theorem Inv.step (h : Inv M d s) (hs : Took M s t m s') : Inv M d s' := by
  cases hs with
  | call hpc =>
    refine ⟨locked_update h.locked ?_ fun _ _ => Iff.rfl, ready_update h.ready ?_, h.legal, calls_update h.calls ?_⟩
    · simpa [hpc] using h.locked t
    · intro _ he
      cases he
    · simp [hpc]
  | wake hpc =>
    refine ⟨locked_update h.locked ?_ fun _ _ => Iff.rfl, ready_update h.ready ?_, h.legal, calls_update h.calls ?_⟩
    · simpa [hpc] using h.locked t
    · intro _ he
      cases he
    · simp [hpc]
  | enter hpc hfree =>
    refine ⟨locked_update h.locked ?_ ?_, ready_update h.ready ?_, h.legal, calls_update h.calls ?_⟩
    · simp
    · intro u hu
      simp [hfree, hu.symm]
    · intro _ he
      cases he
    · simp [hpc]
  | ready hpc hready =>
    refine ⟨locked_update h.locked ?_ fun _ _ => Iff.rfl, ready_update h.ready ?_, h.legal, calls_update h.calls ?_⟩
    · simpa [hpc] using h.locked t
    · intro _ he
      cases he
      exact hready
    · simp [hpc]
  | sleep hpc _ =>
    refine ⟨locked_update h.locked ?_ ?_, ready_update h.ready ?_, h.legal, calls_update h.calls ?_⟩
    · simp
    · intro u hu
      simpa using h.owner_ne (by simp [hpc]) hu
    · intro _ he
      cases he
    · simp [hpc]
  | work hpc => exact h.work hpc
  | unlock hpc _ =>
    refine ⟨locked_update h.locked ?_ ?_, ready_update h.ready ?_, h.legal, calls_update h.calls ?_⟩
    · simp
    · intro u hu
      simpa using h.owner_ne (by simp [hpc]) hu
    · intro _ he
      cases he
    · simp [hpc]
  | leave hpc _ =>
    refine ⟨locked_update h.locked ?_ ?_, ready_update h.ready ?_, h.legal, calls_return h.calls ?_⟩
    · simp
    · intro u hu
      simpa using h.owner_ne (by simp [hpc]) hu
    · intro _ he
      cases he
    · simp [hpc]
  | notify hpc =>
    -- the places of the others change only from asleep to awake
    have hw := h.woken
    have hwt : (s.pc t).woken = s.pc t := by rw [hpc]; rfl
    refine ⟨locked_update hw.locked ?_ fun _ _ => Iff.rfl, ready_update hw.ready ?_, hw.legal,
      calls_return hw.calls ?_⟩
    · have ht := h.locked t
      simpa [hpc] using ht
    · intro _ he
      cases he
    · show (s.pc t).woken.pending = _
      rw [hwt, hpc]
      rfl

/-- **Run lemma.** -/
theorem inv_of_runs {ms : List (ι × Move κ)} (hr : M.runs (init d) ms = some s) : Inv M d s :=
  runs_inv (fun _ _ _ _ h hs => h.step hs) (inv_init d) hr

/-- What is in the log stays there. -/
theorem log_grows (hs : Took M s t m s') : s.log <+: s'.log := by
  cases hs with
  | work => exact List.prefix_append ..
  | _ => exact List.prefix_rfl

end Safety

/-! ## No wake-up is lost, and every call comes to an end -/

section Progress

variable [DecidableEq ι] {M : Monitor κ σ ρ} {s s' : State ι κ σ ρ} {t : ι} {m : Move κ}

/-- Only calls that notify make the data ready for another call. -/
def Quiet (M : Monitor κ σ ρ) : Prop :=
  ∀ k k' d, M.notifies k = false → M.ready k d = true → M.ready k' (M.body k d).2 = true → M.ready k' d = true

/-- The client has yet to notify. -/
def Notifier (M : Monitor κ σ ρ) (p : Pc κ ρ) : Prop :=
  ∃ k r, M.notifies k = true ∧ (p = .leave k r ∨ p = .notify k r)

/-- Where a sleeping client could go on, somebody has yet to notify. -/
def Attended (M : Monitor κ σ ρ) (s : State ι κ σ ρ) : Prop :=
  ∀ t k, s.pc t = .asleep k → M.ready k s.data = true → ∃ u, Notifier M (s.pc u)

omit [DecidableEq ι] in
theorem attended_init (d : σ) : Attended (ι := ι) M (init d) := by
  intro t k h
  cases h

/-- A step that makes no notifier of the client, and no sleeper that could go on. -/
theorem attended_update (h : Attended M s) {p : Pc κ ρ} (hnot : ¬ Notifier M (s.pc t))
    (hp : ∀ k, p = .asleep k → M.ready k s.data = false) (u : ι) (k : κ)
    (hu : Function.update s.pc t p u = .asleep k) (hk : M.ready k s.data = true) :
    ∃ v, Notifier M (Function.update s.pc t p v) := by
  have hold : s.pc u = .asleep k := by
    by_cases hut : u = t
    · subst hut
      rw [Function.update_self] at hu
      rw [hp k hu] at hk
      cases hk
    · rwa [Function.update_of_ne hut] at hu
  obtain ⟨v, hv⟩ := h u k hold hk
  have hvt : v ≠ t := by
    rintro rfl
    exact hnot hv
  refine ⟨v, ?_⟩
  rwa [Function.update_of_ne hvt]

theorem not_notifier {p : Pc κ ρ} (hl : ∀ k r, p = .leave k r → M.notifies k = false)
    (hn : ∀ k r, p ≠ .notify k r) : ¬ Notifier M p := by
  rintro ⟨k, r, hk, rfl | rfl⟩
  · rw [hl k r rfl] at hk
    cases hk
  · exact hn k r rfl

theorem Attended.step (h : Attended M s) (hq : Quiet M) (hready : ∀ t k, s.pc t = .run k → M.ready k s.data = true)
    (hs : Took M s t m s') : Attended M s' := by
  cases hs with
  | call hpc => exact attended_update h (by rw [hpc]; exact not_notifier nofun nofun) nofun
  | wake hpc => exact attended_update h (by rw [hpc]; exact not_notifier nofun nofun) nofun
  | enter hpc _ => exact attended_update h (by rw [hpc]; exact not_notifier nofun nofun) nofun
  | ready hpc _ => exact attended_update h (by rw [hpc]; exact not_notifier nofun nofun) nofun
  | sleep hpc hk =>
    refine attended_update h (by rw [hpc]; exact not_notifier nofun nofun) ?_
    intro k' he
    cases he
    exact hk
  | @work k hpc =>
    intro u k' hu hk'
    by_cases hn : M.notifies k = true
    · refine ⟨t, k, (M.body k s.data).1, hn, .inl ?_⟩
      exact Function.update_self ..
    · -- the data were ready for the sleeper before, so the notifier is another client
      have hk' : M.ready k' s.data = true := hq k k' s.data (Bool.not_eq_true _ ▸ hn) (hready t k hpc) hk'
      exact attended_update h (by rw [hpc]; exact not_notifier nofun nofun) nofun u k' hu hk'
  | @unlock k r hpc hn =>
    intro u k' hu hk'
    refine ⟨t, k, r, hn, .inr ?_⟩
    exact Function.update_self ..
  | leave hpc hn =>
    refine attended_update h ?_ nofun
    rw [hpc]
    refine not_notifier ?_ nofun
    intro _ _ he
    cases he
    exact hn
  | notify hpc =>
    -- nobody sleeps any more
    intro u k hu _
    have hu : Function.update (fun u => (s.pc u).woken) t .idle u = .asleep k := hu
    by_cases hut : u = t
    · subst hut
      rw [Function.update_self] at hu
      cases hu
    · rw [Function.update_of_ne hut] at hu
      generalize s.pc u = p at hu
      cases p <;> cases hu

/-- Some step that is neither a new call nor a wake-up by chance is open to the client. -/
def CanGo (M : Monitor κ σ ρ) (s : State ι κ σ ρ) (t : ι) : Prop := ∃ s', M.step s t .go = some s'

theorem canGo_of_holds (h : (s.pc t).holds = true) : CanGo M s t := by
  unfold CanGo step
  cases hpc : s.pc t with
  | test k => by_cases hk : M.ready k s.data = true <;> simp [hk]
  | run k => exact ⟨_, rfl⟩
  | leave k r => by_cases hk : M.notifies k = true <;> simp [hk]
  | idle => rw [hpc] at h; cases h
  | enter k => rw [hpc] at h; cases h
  | asleep k => rw [hpc] at h; cases h
  | notify k r => rw [hpc] at h; cases h

/-- **Where a run ends**: if no client can go on, each is out of its call or sleeps, and the data are not ready for
those that sleep. -/
theorem quiescent {d : σ} (h : Inv M d s) (ha : Attended M s) (hstuck : ∀ t, ¬ CanGo M s t) (t : ι) :
    s.pc t = .idle ∨ ∃ k, s.pc t = .asleep k ∧ M.ready k s.data = false := by
  have hheld : ∀ u, (s.pc u).holds = false := by
    intro u
    rw [← Bool.not_eq_true]
    exact fun hu => hstuck u (canGo_of_holds hu)
  have hnotify : ∀ u k r, s.pc u ≠ .notify k r := by
    intro u k r hu
    refine hstuck u ?_
    unfold CanGo step
    simp [hu]
  cases hpc : s.pc t with
  | idle => exact .inl rfl
  | asleep k =>
    refine .inr ⟨k, rfl, ?_⟩
    rw [← Bool.not_eq_true]
    intro hk
    obtain ⟨u, k', r, _, hu | hu⟩ := ha t k hpc hk
    · have hh := hheld u
      rw [hu] at hh
      cases hh
    · exact hnotify u k' r hu
  | enter k =>
    -- the mutex is free, or its holder can go on
    cases ho : s.owner with
    | none =>
      refine absurd ?_ (hstuck t)
      unfold CanGo step
      simp [hpc, ho]
    | some u =>
      have hh := (h.locked u).mpr ho
      rw [hheld u] at hh
      cases hh
  | test k =>
    have hh := hheld t
    rw [hpc] at hh
    cases hh
  | run k =>
    have hh := hheld t
    rw [hpc] at hh
    cases hh
  | leave k r =>
    have hh := hheld t
    rw [hpc] at hh
    cases hh
  | notify k r => exact absurd hpc (hnotify t k r)

variable [Fintype ι]

/-- What a client has still to do; a call that notifies may send every client back to the mutex. -/
def Pc.effort (M : Monitor κ σ ρ) (n : ℕ) : Pc κ ρ → ℕ
  | .idle => 0
  | .asleep k => if M.notifies k then 4 * n + 1 else 0
  | .notify _ _ => 4 * n + 1
  | .leave k _ => (if M.notifies k then 4 * n + 1 else 0) + 1
  | .run k => (if M.notifies k then 4 * n + 1 else 0) + 2
  | .test k => (if M.notifies k then 4 * n + 1 else 0) + 3
  | .enter k => (if M.notifies k then 4 * n + 1 else 0) + 4

def effort (M : Monitor κ σ ρ) (s : State ι κ σ ρ) : ℕ := ∑ t, (s.pc t).effort M (Fintype.card ι)

omit [DecidableEq ι] [Fintype ι] in
theorem effort_woken (n : ℕ) (p : Pc κ ρ) : p.woken.effort M n ≤ p.effort M n + 4 := by
  cases p <;> simp [Pc.woken, Pc.effort]

theorem sum_update (f : ι → ℕ) (t : ι) (a : ℕ) : (∑ u, Function.update f t a u) + f t = (∑ u, f u) + a := by
  rw [Finset.sum_update_of_mem (Finset.mem_univ t), ← Finset.add_sum_erase _ f (Finset.mem_univ t),
    Finset.sdiff_singleton_eq_erase]
  omega

theorem effort_update {n : ℕ} (pc : ι → Pc κ ρ) (t : ι) (p : Pc κ ρ) :
    (∑ u, (Function.update pc t p u).effort M n) + (pc t).effort M n = (∑ u, (pc u).effort M n) + p.effort M n := by
  rw [← sum_update (fun u => (pc u).effort M n) t (p.effort M n)]
  congr 1
  refine Finset.sum_congr rfl ?_
  intro u _
  rw [Function.apply_update (fun _ q => Pc.effort M n q)]

/-- A step of the client that lowers what it has still to do. -/
theorem effort_lt {pc : ι → Pc κ ρ} {p : Pc κ ρ} {n : ℕ} (h : p.effort M n < (pc t).effort M n) :
    (∑ u, (Function.update pc t p u).effort M n) < ∑ u, (pc u).effort M n := by
  have := effort_update (M := M) (n := n) pc t p
  omega

/-- **Every step of a call brings the calls nearer to their end.** -/
theorem effort_go (h : Took M s t .go s') : effort M s' < effort M s := by
  cases h with
  | enter hpc _ => exact effort_lt (by rw [hpc]; simp [Pc.effort])
  | ready hpc _ => exact effort_lt (by rw [hpc]; simp [Pc.effort])
  | sleep hpc _ => exact effort_lt (by rw [hpc]; simp [Pc.effort])
  | work hpc => exact effort_lt (by rw [hpc]; simp [Pc.effort])
  | unlock hpc hn => exact effort_lt (by rw [hpc]; simp [Pc.effort, hn])
  | leave hpc _ => exact effort_lt (by rw [hpc]; simp [Pc.effort])
  | @notify k r hpc =>
    -- each of the others has at most four more steps to do, the notifier loses more
    have hup := effort_update (M := M) (n := Fintype.card ι) (fun u => (s.pc u).woken) t .idle
    have hle : ∑ u, (s.pc u).woken.effort M (Fintype.card ι) ≤ effort M s + Fintype.card ι * 4 := by
      refine (Finset.sum_le_sum fun u _ => effort_woken (M := M) (Fintype.card ι) (s.pc u)).trans ?_
      rw [Finset.sum_add_distrib, Finset.sum_const_nat fun _ _ => rfl, Finset.card_univ]
      rfl
    have ht : (s.pc t).woken.effort M (Fintype.card ι) = 4 * Fintype.card ι + 1 := by
      rw [hpc]
      rfl
    rw [ht, show (Pc.idle : Pc κ ρ).effort M (Fintype.card ι) = 0 from rfl] at hup
    show (∑ u, (Function.update (fun u => (s.pc u).woken) t .idle u).effort M (Fintype.card ι)) < effort M s
    omega

/-- **The calls come to an end**: a run without new calls and wake-ups by chance has no more steps than `effort`. -/
theorem effort_runs : ∀ {ms : List (ι × Move κ)} {s s' : State ι κ σ ρ}, (∀ m ∈ ms, m.2 = .go) →
    M.runs s ms = some s' → ms.length + effort M s' ≤ effort M s
  | [], s, s', _, hr => by
    cases hr
    exact (Nat.zero_add _).le
  | m :: ms, s, s', hgo, hr => by
    obtain ⟨s₁, h₁, hr⟩ := runs_cons.mp hr
    have hrest := effort_runs (fun a ha => hgo a (List.mem_cons_of_mem _ ha)) hr
    have hstep := took_of_step h₁
    rw [hgo m (List.mem_cons_self ..)] at hstep
    have := effort_go hstep
    rw [List.length_cons]
    omega

end Progress

end Monitor

end Journey
