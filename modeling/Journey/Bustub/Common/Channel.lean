import Mathlib.Tactic.FinCases
import Journey.Lib.Monitors

/-!
# Journey.Bustub.Common.Channel — the multi-producer multi-consumer channel

`Put` takes the mutex, pushes, lets go of the mutex and notifies all; `Get` takes the mutex, waits until the queue is
not empty, and pops its front.  The channel is the monitor of these two calls, for any number of clients.

* `channel_fifo`: under every schedule what `Get` answers is what `Put` was given, in the order of the pushes.
* `channel_drains`: every call comes to an end, but for a `Get` that finds the queue empty.
-/

namespace Journey.Bustub.Channel

open Monitor

variable {ι T : Type}

inductive Op (T : Type)
  | put (element : T)
  | get
deriving DecidableEq, Repr

/-- What the calls do with `q_`, front first. -/
def channel (T : Type) : Monitor (Op T) (List T) (Option T) where
  ready
    -- `Put` does not wait
    | .put _, _ => true
    | .get, q => !q.isEmpty
  body
    | .put element, q => (none, q ++ [element])
    | .get, q => (q.head?, q.tail)
  notifies
    | .put _ => true
    | .get => false

theorem ready_get {q : List T} : (channel T).ready .get q = true ↔ q ≠ [] := by
  cases q <;> simp [channel]

theorem notifies_iff {op : Op T} : (channel T).notifies op = true ↔ ∃ element, op = .put element := by
  cases op <;> simp [channel]

/-- Taking from the queue does not make it ready for anybody. -/
theorem quiet : Quiet (channel T) := by
  intro k k' q hk _ hq
  cases k with
  | put element => cases hk
  | get =>
    cases k' with
    | put element => rfl
    | get =>
      rw [ready_get] at hq ⊢
      rintro rfl
      exact hq rfl

/-! ## First in, first out -/

section Fifo

/-- What a finished call has pushed. -/
def pushed : Op T × Option T → Option T
  | (.put element, _) => some element
  | (.get, _) => none

/-- What a finished call has taken. -/
def popped : Op T × Option T → Option T
  | (.put _, _) => none
  | (.get, answer) => answer

theorem fifo {q q' : List T} {l : List (Op T × Option T)} (h : Legal (channel T) q l q') :
    q ++ l.filterMap pushed = l.filterMap popped ++ q' := by
  induction l generalizing q with
  | nil =>
    cases h
    simp
  | cons e l ih =>
    obtain ⟨op, answer⟩ := e
    obtain ⟨hready, rfl, hrest⟩ := h
    cases op with
    | put element => simpa [channel, List.filterMap_cons, pushed, popped] using ih hrest
    | get =>
      cases q with
      | nil => cases hready
      | cons x q => simpa [channel, List.filterMap_cons, pushed, popped] using ih hrest

/-- A `Get` answers with a value. -/
theorem answers {q q' : List T} {l : List (Op T × Option T)} (h : Legal (channel T) q l q') {answer : Option T}
    (he : (Op.get, answer) ∈ l) : answer.isSome = true := by
  induction l generalizing q with
  | nil => cases he
  | cons e l ih =>
    obtain ⟨op, a⟩ := e
    obtain ⟨hready, hanswer, hrest⟩ := h
    rcases List.mem_cons.mp he with he | he
    · cases he
      cases q with
      | nil => cases hready
      | cons x q =>
        rw [← hanswer]
        rfl
    · exact ih hrest he

variable [DecidableEq ι] {s : State ι (Op T) (List T) (Option T)} {ms : List (ι × Move (Op T))}

/-- **Nothing is lost, made up, doubled or overtaken.**  Whatever the clients do and in whatever order they are run:
what was pushed is what was taken and then what is in the queue; each client has got back, in its order, the answers
that stand beside its calls, up to the one it has not returned yet; a `Get` that returned has a value; the mutex has one
holder; and what is in the order of the calls stays there. -/
theorem channel_fifo (h : (channel T).runs (init []) ms = some s) :
    s.log.filterMap (fun e => pushed e.2) = s.log.filterMap (fun e => popped e.2) ++ s.data ∧
      (∀ t, mine t s.log = s.returned t ++ (s.pc t).pending) ∧
      (∀ t answer, (Op.get, answer) ∈ s.returned t → answer.isSome = true) ∧
      (∀ t u, (s.pc t).holds = true → (s.pc u).holds = true → t = u) ∧
      ∀ ms' s', (channel T).runs s ms' = some s' → s.log <+: s'.log := by
  have hinv : Inv (channel T) [] s := inv_of_runs h
  refine ⟨?_, hinv.calls, ?_, fun t u => hinv.exclusive, ?_⟩
  · simpa [List.filterMap_map, Function.comp_def] using fifo hinv.legal
  · intro t answer he
    have hmem : (Op.get, answer) ∈ mine t s.log := by
      rw [hinv.calls t]
      exact List.mem_append_left _ he
    obtain ⟨e, hlog, heq⟩ := List.mem_map.mp hmem
    refine answers hinv.legal ?_
    rw [← heq]
    exact List.mem_map_of_mem (List.mem_of_mem_filter hlog)
  · intro ms' s' hr
    refine runs_inv (I := fun s' => s.log <+: s'.log) ?_ List.prefix_rfl hr
    intro _ _ _ _ hpre hs
    exact hpre.trans (log_grows hs)

/-- A consumer comes first, and sleeps until the producer has notified. -/
def consumerFirst : List (Bool × Move (Op ℕ)) :=
  [(true, .call .get), (true, .go), (true, .go), (false, .call (.put 7)), (false, .go), (false, .go), (false, .go),
    (false, .go), (false, .go), (true, .go), (true, .go), (true, .go), (true, .go)]

theorem channel_fifo_consumerFirst :
    ((channel ℕ).runs (init []) consumerFirst).map (fun s => s.returned true) = some [(.get, some 7)] ∧
      ∃ s, (channel ℕ).runs (init []) consumerFirst = some s ∧
        s.log.filterMap (fun e => pushed e.2) = s.log.filterMap (fun e => popped e.2) ++ s.data := by
  obtain ⟨s, h⟩ : ∃ s, (channel ℕ).runs (init []) consumerFirst = some s := ⟨_, rfl⟩
  exact ⟨rfl, s, h, (channel_fifo h).1⟩

end Fifo

/-! ## Every call comes to an end -/

section Drains

variable {s s' : State ι (Op T) (List T) (Option T)} {ms ms' : List (ι × Move (Op T))}

theorem effort_le [Fintype ι] (s : State ι (Op T) (List T) (Option T)) :
    effort (channel T) s ≤ Fintype.card ι * (4 * Fintype.card ι + 5) := by
  refine (Finset.sum_le_card_nsmul _ _ (4 * Fintype.card ι + 5) ?_).trans ?_
  · intro t _
    cases s.pc t <;> simp [Pc.effort] <;> split_ifs <;> omega
  · simp

variable [DecidableEq ι]

theorem attended_of_runs (hs : Inv (channel T) [] s ∧ Attended (channel T) s) (h : (channel T).runs s ms = some s') :
    Inv (channel T) [] s' ∧ Attended (channel T) s' := by
  refine runs_inv (I := fun s => Inv (channel T) [] s ∧ Attended (channel T) s) ?_ hs h
  rintro s t m s' ⟨hinv, hatt⟩ hstep
  exact ⟨hinv.step hstep, hatt.step quiet hinv.ready hstep⟩

/-- **No wake-up is lost.**  From every state that `n` clients reach, whatever the order in which they go on, they make
at most `n * (4 * n + 5)` steps without a new call or a wake-up by chance; and where none of them can go on, each has
returned, or it is in a `Get` and the queue is empty. -/
theorem channel_drains [Fintype ι] (h : (channel T).runs (init []) ms = some s) (hgo : ∀ m ∈ ms', m.2 = .go)
    (h' : (channel T).runs s ms' = some s') :
    ms'.length ≤ Fintype.card ι * (4 * Fintype.card ι + 5) ∧
      ((∀ t, ¬ CanGo (channel T) s' t) → ∀ t, s'.pc t = .idle ∨ s'.pc t = .asleep .get ∧ s'.data = []) := by
  constructor
  · exact ((Nat.le_add_right _ _).trans (effort_runs hgo h')).trans (effort_le s)
  · intro hstuck t
    obtain ⟨hinv, hatt⟩ := attended_of_runs (attended_of_runs ⟨inv_init [], attended_init []⟩ h) h'
    rcases quiescent hinv hatt hstuck t with hidle | ⟨k, hsleep, hk⟩
    · exact .inl hidle
    · cases k with
      | put element => cases hk
      | get =>
        refine .inr ⟨hsleep, ?_⟩
        cases hq : s'.data with
        | nil => rfl
        | cons x q =>
          rw [hq] at hk
          cases hk

/-- Two consumers and a producer: one of the consumers is left, and the queue is empty. -/
def twoConsumers : List (Fin 3 × Move (Op ℕ)) :=
  [(0, .call .get), (1, .call .get), (2, .call (.put 7)), (0, .go), (0, .go)]

def drained : List (Fin 3 × Move (Op ℕ)) := [2, 2, 2, 2, 1, 1, 1, 1, 2, 0, 0].map fun t => (t, .go)

theorem channel_drains_left :
    ∃ s s', (channel ℕ).runs (init []) twoConsumers = some s ∧ (channel ℕ).runs s drained = some s' ∧
      s'.returned 1 = [(.get, some 7)] ∧ s'.pc 0 = .asleep .get ∧
      ∀ t, s'.pc t = .idle ∨ s'.pc t = .asleep .get ∧ s'.data = [] := by
  obtain ⟨s, h⟩ : ∃ s, (channel ℕ).runs (init []) twoConsumers = some s := ⟨_, rfl⟩
  obtain ⟨s', h'⟩ : ∃ s', (channel ℕ).runs s drained = some s' := by
    cases h
    exact ⟨_, rfl⟩
  have hends := (channel_drains h (by decide) h').2
  cases h
  cases h'
  refine ⟨_, _, rfl, rfl, rfl, rfl, hends ?_⟩
  rintro t ⟨s, hs⟩
  fin_cases t <;> cases hs

end Drains

end Journey.Bustub.Channel
