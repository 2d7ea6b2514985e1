import Journey.Lib.Slices
import Mathlib.Data.List.Induction
import Mathlib.Logic.Function.Basic

/-!
# Journey.Concurrency.ParallelAccumulate — a sum by eight threads

`parallel_accumulate` hands the first seven eighths of a vector to threads, adds up the rest itself, joins the threads
and adds up their results.  A step of the system is what one thread does between two points where another may go on:
reading an element, writing a result, starting, storing, joining a thread.  A schedule is the list of the threads in the
order in which they move.

`threads` is only reserved, never resized: its `size()` stays 0, and `threads[i]` names a slot of raw storage.  The model
goes on as the storage would: a slot that is assigned holds the thread, and `raw` says which of the raw slots look like a
joinable thread.

`accesses`, `ranges`, `summed` and the `written` field of a result are history variables: no step reads them.

* `next`, `interleave`: the code.
* `Live`: what every state has in which the process still runs; `next_live` is the step lemma.
* `parallel_accumulate_strays`: every run that returns has left the bounds of `threads`, and of nothing else; its
  ranges partition the vector, and its value is the sum.
* `can_return`: no run gets stuck.
-/

namespace Journey.ParallelAccumulate

/-! ## The code -/

section Model

/-- `num_threads`. -/
def numThreads : ℕ := 8

/-- The vectors whose elements are accessed. -/
inductive Name
  | vec
  | results
  | threads
deriving DecidableEq, Repr

/-- An access to an element, with the `size()` of the vector at that time. -/
structure Access where
  vector : Name
  index : ℕ
  size : ℕ
deriving DecidableEq, Repr

/-- `AlignedULL`, and whether a thread has written it. -/
structure AlignedULL where
  value : UInt64
  written : Bool
deriving DecidableEq, Repr

/-- A thread that runs `accumulate`: not started, before the element at `pos`, or at its end. -/
inductive Worker
  | unstarted
  | running (pos stop : ℕ) (sum : UInt64)
  | finished
deriving DecidableEq, Repr

/-- What a slot of `threads` holds: raw storage, a `std::thread`, or one that was joined. -/
inductive Slot
  | raw
  | thread (i : ℕ)
  | joined
deriving DecidableEq, Repr

/-- Where the calling thread is. -/
inductive Pc
  | start (i begin_ : ℕ)
  | assign (i stop : ℕ)
  | own (pos : ℕ) (sum : UInt64)
  | joinable (i : ℕ)
  | join (i : ℕ)
  | sum (i : ℕ) (sum : UInt64)
  | returned (value : UInt64)
  | terminated
deriving DecidableEq, Repr

structure State where
  pc : Pc
  workers : ℕ → Worker
  threads : ℕ → Slot
  results : ℕ → AlignedULL
  accesses : List Access
  ranges : List (ℕ × ℕ)
  summed : List Bool

/-- The threads of the process. -/
inductive Thread
  | caller
  | worker (i : ℕ)
deriving DecidableEq, Repr

/-- `std::accumulate` from 0. -/
def accumulate (l : List UInt64) : UInt64 := l.foldl (· + ·) 0

/-- When `parallel_accumulate` has made its vectors. -/
def init : State := ⟨.start 0 0, fun _ => .unstarted, fun _ => .raw, fun _ => ⟨0, false⟩, [], [], []⟩

/-- Note an access. -/
def State.note (s : State) (vector : Name) (index size : ℕ) : State :=
  { s with accesses := s.accesses ++ [⟨vector, index, size⟩] }

variable (raw : ℕ → Bool) (vec : List UInt64)

/-- `joinable` of a slot. -/
def Slot.joinable (i : ℕ) : Slot → Bool
  | .raw => raw i
  | .thread _ => true
  | .joined => false

/-- A step of the calling thread. -/
def callerStep (s : State) : State :=
  match s.pc with
  | .start i begin_ =>
    if i < numThreads - 1 then
      let stop := begin_ + vec.length / numThreads
      { s.note .results i numThreads with
        pc := .assign i stop
        workers := Function.update s.workers i (.running begin_ stop 0)
        ranges := s.ranges ++ [(begin_, stop)] }
    else
      { s.note .results (numThreads - 1) numThreads with
        pc := .own begin_ 0
        ranges := s.ranges ++ [(begin_, vec.length)] }
  | .assign i stop =>
    -- the assignment of a `std::thread` terminates if the left one is joinable
    if (s.threads i).joinable raw i then { s.note .threads i 0 with pc := .terminated }
    else
      { s.note .threads i 0 with
        pc := .start (i + 1) stop
        threads := Function.update s.threads i (.thread i) }
  | .own pos sum =>
    if pos = vec.length then
      { s.note .results (numThreads - 1) numThreads with
        pc := .joinable 0
        results := Function.update s.results (numThreads - 1) ⟨sum, true⟩ }
    else { s.note .vec pos vec.length with pc := .own (pos + 1) (sum + vec.getD pos 0) }
  | .joinable i =>
    if i < numThreads - 1 then
      { s.note .threads i 0 with
        pc := if (s.threads i).joinable raw i then .join i else .joinable (i + 1) }
    else { s with pc := .sum 0 0 }
  | .join i =>
    match s.threads i with
    | .thread j =>
      if s.workers j = .finished then
        { s.note .threads i 0 with
          pc := .joinable (i + 1)
          threads := Function.update s.threads i .joined }
      else s
    | _ => s
  | .sum i sum =>
    if i < numThreads then
      { s.note .results i numThreads with
        pc := .sum (i + 1) (sum + (s.results i).value)
        summed := s.summed ++ [(s.results i).written] }
    else { s with pc := .returned sum }
  | .returned _ => s
  | .terminated => s

/-- A step of a thread that runs `accumulate`. -/
def workerStep (s : State) (i : ℕ) : State :=
  match s.workers i with
  | .running pos stop sum =>
    if pos = stop then
      { s.note .results i numThreads with
        workers := Function.update s.workers i .finished
        results := Function.update s.results i ⟨sum, true⟩ }
    else
      { s.note .vec pos vec.length with
        workers := Function.update s.workers i (.running (pos + 1) stop (sum + vec.getD pos 0)) }
  | _ => s

/-- A step of the process. -/
def next (s : State) : Thread → State
  | .caller => callerStep raw vec s
  | .worker i => if s.pc = .terminated then s else workerStep vec s i

/-- Run a schedule. -/
def interleave (sched : List Thread) : State := sched.foldl (next raw vec) init

end Model

/-! ## What it is for -/

section Spec

/-- Every access to `results` and `threads` is below the `size()` of the vector. -/
def InBounds (s : State) : Prop :=
  ∀ a ∈ s.accesses, a.vector = .results ∨ a.vector = .threads → a.index < a.size

/-- One after another, the ranges name every position below `n` once. -/
def Partitions (n : ℕ) (ranges : List (ℕ × ℕ)) : Prop :=
  (∀ r ∈ ranges, r.1 ≤ r.2) ∧ ranges.flatMap (fun r => List.range' r.1 (r.2 - r.1)) = List.range n

/-- Every result was written when it was added. -/
def WrittenFirst (s : State) : Prop := ∀ written ∈ s.summed, written = true

/-- **The sum of the vector**: in every state of every run the accesses are in bounds and no result is read before it is
written; and when the function returns, its ranges partition the vector and its value is the sequential sum. -/
def Meets (raw : ℕ → Bool) (vec : List UInt64) : Prop :=
  ∀ sched, InBounds (interleave raw vec sched) ∧ WrittenFirst (interleave raw vec sched) ∧
    ∀ value, (interleave raw vec sched).pc = .returned value →
      Partitions vec.length (interleave raw vec sched).ranges ∧ value = accumulate vec

end Spec

/-! ## Ranges and sums -/

section Ranges

variable {vec : List UInt64} {n i a m e : ℕ}

/-- Where the range of the thread `i` begins and that of the one before it ends; the calling thread has the last. -/
def bound (n i : ℕ) : ℕ := if i < numThreads then i * (n / numThreads) else n

theorem bound_zero (n : ℕ) : bound n 0 = 0 := by simp [bound, numThreads]

theorem bound_succ (hi : i < numThreads - 1) : bound n (i + 1) = bound n i + n / numThreads := by
  unfold numThreads at *
  unfold bound numThreads
  rw [if_pos (by omega), if_pos (by omega), Nat.add_mul, Nat.one_mul]

theorem bound_last (n : ℕ) : bound n numThreads = n := if_neg (Nat.lt_irrefl _)

/-- The rest of the division goes to the last range. -/
theorem bound_le_succ (hi : i < numThreads) : bound n i ≤ bound n (i + 1) := by
  by_cases hlast : i < numThreads - 1
  · rw [bound_succ hlast]
    exact Nat.le_add_right _ _
  · have heq : i = numThreads - 1 := by omega
    subst heq
    show bound n 7 ≤ bound n 8
    unfold bound numThreads
    rw [if_pos (by decide), if_neg (by decide)]
    omega

theorem bound_le (hi : i ≤ numThreads) : bound n i ≤ n := by
  have hdown : ∀ k ≤ numThreads, bound n (numThreads - k) ≤ n := by
    intro k hk
    induction k with
    | zero => exact Nat.le_of_eq (bound_last n)
    | succ k ih =>
      have hstep : bound n (numThreads - (k + 1)) ≤ bound n (numThreads - (k + 1) + 1) := bound_le_succ (by omega)
      rw [show numThreads - (k + 1) + 1 = numThreads - k by omega] at hstep
      exact Nat.le_trans hstep (ih (by omega))
  have h := hdown (numThreads - i) (by omega)
  rwa [show numThreads - (numThreads - i) = i by omega] at h

theorem partitions_tiles (n : ℕ) : Partitions n (tiles (bound n) numThreads) := by
  have hmono : ∀ i < numThreads, bound n i ≤ bound n (i + 1) := fun i hi => bound_le_succ hi
  constructor
  · intro r hr
    obtain ⟨i, hi, rfl⟩ := List.mem_map.mp hr
    exact hmono i (List.mem_range.mp hi)
  · rw [indices_tiles numThreads hmono, bound_zero, bound_last, Nat.sub_zero, List.range_eq_range']

theorem accumulate_append (l l' : List UInt64) : accumulate (l ++ l') = accumulate l + accumulate l' :=
  foldl_append_op UInt64.add_zero l l'

/-- One more element of a range. -/
theorem accumulate_extract_succ (ha : a ≤ e) (he : e < vec.length) :
    accumulate (vec.extract a (e + 1)) = accumulate (vec.extract a e) + vec.getD e 0 := by
  rw [extract_succ ha he, accumulate_append, List.getD_eq_getElem?_getD, List.getElem?_eq_getElem he]
  congr 1
  exact UInt64.zero_add _

/-- One more range. -/
theorem accumulate_extract_append (ham : a ≤ m) (hme : m ≤ e) :
    accumulate (vec.extract a e) = accumulate (vec.extract a m) + accumulate (vec.extract m e) := by
  rw [← extract_append ham hme, accumulate_append]

end Ranges

/-! ## The invariant -/

section Invariant

/-- How many threads are started. -/
def Pc.started : Pc → ℕ
  | start i _ => i
  | assign i _ => i + 1
  | _ => numThreads - 1

/-- How many slots of `threads` are assigned. -/
def Pc.assigned : Pc → ℕ
  | start i _ => i
  | assign i _ => i
  | _ => numThreads - 1

/-- How many ranges are handed out. -/
def Pc.handed : Pc → ℕ
  | start i _ => i
  | assign i _ => i + 1
  | _ => numThreads

/-- How many threads are joined. -/
def Pc.joined : Pc → ℕ
  | joinable i => i
  | join i => i
  | sum _ _ => numThreads - 1
  | returned _ => numThreads - 1
  | _ => 0

/-- The calling thread has written its own result. -/
def Pc.ownWritten : Pc → Bool
  | joinable _ | join _ | sum _ _ | returned _ => true
  | _ => false

/-- The sum of the range of the thread `i`. -/
def part (vec : List UInt64) (i : ℕ) : UInt64 :=
  accumulate (vec.extract (bound vec.length i) (bound vec.length (i + 1)))

/-- What the calling thread has in its variables. -/
def Pc.Ok (vec : List UInt64) : Pc → Prop
  | start i begin_ => i ≤ numThreads - 1 ∧ begin_ = bound vec.length i
  | assign i stop => i < numThreads - 1 ∧ stop = bound vec.length (i + 1)
  | own pos total => bound vec.length (numThreads - 1) ≤ pos ∧ pos ≤ vec.length ∧
      total = accumulate (vec.extract (bound vec.length (numThreads - 1)) pos)
  | joinable i => i ≤ numThreads - 1
  | join i => i < numThreads - 1
  | sum i total => i ≤ numThreads ∧ total = accumulate (vec.extract 0 (bound vec.length i))
  | returned value => value = accumulate vec
  | terminated => False

/-- What the started thread `i` has in its variables, and in its result when it is at its end. -/
def Worker.Ok (vec : List UInt64) (results : ℕ → AlignedULL) (i : ℕ) : Worker → Prop
  | unstarted => False
  | running pos stop sum => bound vec.length i ≤ pos ∧ pos ≤ stop ∧ stop = bound vec.length (i + 1) ∧
      sum = accumulate (vec.extract (bound vec.length i) pos)
  | finished => results i = ⟨part vec i, true⟩

/-- The accesses to `vec` and `results` are in bounds. -/
def Bounded (accesses : List Access) : Prop := ∀ a ∈ accesses, a.vector ≠ .threads → a.index < a.size

/-- An access to `threads` is out of bounds. -/
def Strayed (accesses : List Access) : Prop := ∃ a ∈ accesses, a.vector = .threads ∧ a.size ≤ a.index

/-- **The invariant** while the process runs. -/
structure Live (vec : List UInt64) (s : State) : Prop where
  pc : s.pc.Ok vec
  workers : ∀ i < s.pc.started, (s.workers i).Ok vec s.results i
  unstarted : ∀ i, s.pc.started ≤ i → s.workers i = .unstarted
  joined : ∀ i < s.pc.joined, s.workers i = .finished
  slots : ∀ i, s.pc.joined ≤ i → i < s.pc.assigned → s.threads i = .thread i
  raws : ∀ i, s.pc.assigned ≤ i → s.threads i = .raw
  own : s.pc.ownWritten = true → s.results (numThreads - 1) = ⟨part vec (numThreads - 1), true⟩
  ranges : s.ranges = tiles (bound vec.length) s.pc.handed
  bounded : Bounded s.accesses
  strayed : 0 < s.pc.assigned → Strayed s.accesses
  summed : WrittenFirst s

/-- The process was ended by an assignment to a slot whose raw storage looks like a joinable thread. -/
structure Ended (raw : ℕ → Bool) (s : State) : Prop where
  pc : s.pc = .terminated
  raw : ∃ i < numThreads - 1, raw i = true
  bounded : Bounded s.accesses
  summed : WrittenFirst s

variable {vec : List UInt64} {accesses : List Access} {v : Name} {i n : ℕ}

theorem Bounded.append (h : Bounded accesses) (hin : v ≠ .threads → i < n) : Bounded (accesses ++ [⟨v, i, n⟩]) := by
  intro a ha hv
  rcases List.mem_append.mp ha with ha | ha
  · exact h a ha hv
  · rw [List.mem_singleton] at ha
    subst ha
    exact hin hv

theorem Strayed.append (h : Strayed accesses) (a : Access) : Strayed (accesses ++ [a]) := by
  obtain ⟨b, hb, hstray⟩ := h
  exact ⟨b, List.mem_append_left _ hb, hstray⟩

theorem strayed_note (accesses : List Access) (i : ℕ) : Strayed (accesses ++ [⟨.threads, i, 0⟩]) :=
  ⟨_, List.mem_append_right _ (List.mem_singleton_self _), rfl, Nat.zero_le _⟩

/-- A thread at its end keeps its variables when another one writes its result. -/
theorem Worker.Ok.frame {w : Worker} {results results' : ℕ → AlignedULL} (h : w.Ok vec results i)
    (heq : results' i = results i) : w.Ok vec results' i := by
  cases w with
  | unstarted => exact h
  | running pos stop sum => exact h
  | finished => exact heq.trans h

theorem Worker.Ok.unfinished {w : Worker} {results results' : ℕ → AlignedULL} (h : w.Ok vec results i)
    (hw : w ≠ .finished) : w.Ok vec results' i := by
  cases w with
  | unstarted => exact h
  | running pos stop sum => exact h
  | finished => exact absurd rfl hw

theorem live_init (vec : List UInt64) : Live vec init where
  pc := ⟨Nat.zero_le _, (bound_zero _).symm⟩
  workers := fun i hi => absurd hi (Nat.not_lt_zero i)
  unstarted := fun _ _ => rfl
  joined := fun i hi => absurd hi (Nat.not_lt_zero i)
  slots := fun i _ hi => absurd hi (Nat.not_lt_zero i)
  raws := fun _ _ => rfl
  own := by simp [init, Pc.ownWritten]
  ranges := rfl
  bounded := by simp [init, Bounded]
  strayed := fun h => absurd h (Nat.lt_irrefl 0)
  summed := by simp [init, WrittenFirst]

end Invariant

/-! ## The steps -/

section Steps

variable {raw : ℕ → Bool} {vec : List UInt64} {s : State} {i b stop pos : ℕ} {total : UInt64}

/-- A step to where as much is done as before. -/
theorem Live.move (h : Live vec s) (p : Pc) (hok : p.Ok vec) (hstarted : p.started = s.pc.started)
    (hassigned : p.assigned = s.pc.assigned) (hhanded : p.handed = s.pc.handed) (hjoined : p.joined = s.pc.joined)
    (hown : p.ownWritten = s.pc.ownWritten) : Live vec { s with pc := p } where
  pc := hok
  workers := by rw [hstarted]; exact h.workers
  unstarted := by rw [hstarted]; exact h.unstarted
  joined := by rw [hjoined]; exact h.joined
  slots := by rw [hjoined, hassigned]; exact h.slots
  raws := by rw [hassigned]; exact h.raws
  own := by rw [hown]; exact h.own
  ranges := by rw [hhanded]; exact h.ranges
  bounded := h.bounded
  strayed := by rw [hassigned]; exact h.strayed
  summed := h.summed

theorem Live.note (h : Live vec s) {v : Name} {n : ℕ} (hin : v ≠ .threads → i < n) : Live vec (s.note v i n) :=
  { h with
    bounded := h.bounded.append hin
    strayed := fun hpos => (h.strayed hpos).append _ }

/-- The next thread gets `[b, b + n / 8)`. -/
theorem live_spawn (h : Live vec s) (hpc : s.pc = .start i b) (hlt : i < numThreads - 1) :
    Live vec (callerStep raw vec s) := by
  obtain ⟨pc, workers, threads, results, accesses, ranges, summed⟩ := s
  obtain rfl : pc = .start i b := hpc
  obtain ⟨hi, hb⟩ := h.pc
  have hranges : ranges = tiles (bound vec.length) i := h.ranges
  have hstop : b + vec.length / numThreads = bound vec.length (i + 1) := by rw [hb, bound_succ hlt]
  have hin : i < numThreads := by omega
  unfold callerStep
  dsimp only
  rw [if_pos hlt]
  refine { h.note (v := .results) fun _ => hin with
    pc := ⟨hlt, hstop⟩
    workers := ?_
    unstarted := ?_
    joined := fun j hj => absurd hj (Nat.not_lt_zero j)
    own := fun h => absurd h (by simp [Pc.ownWritten])
    ranges := ?_ }
  · intro j hj
    change j < i + 1 at hj
    show (Function.update workers i _ j).Ok vec results j
    by_cases hji : j = i
    · subst hji
      rw [Function.update_self]
      refine ⟨Nat.le_of_eq hb.symm, Nat.le_add_right _ _, hstop, ?_⟩
      rw [hb, extract_self]
      rfl
    · rw [Function.update_of_ne hji]
      exact h.workers j (by show j < i; omega)
  · intro j hj
    change i + 1 ≤ j at hj
    show Function.update workers i _ j = _
    rw [Function.update_of_ne (by omega)]
    exact h.unstarted j (by show i ≤ j; omega)
  · show ranges ++ [(b, b + vec.length / numThreads)] = tiles (bound vec.length) (i + 1)
    rw [tiles_succ, hranges, hstop, hb]

/-- The calling thread keeps the rest. -/
theorem live_keep (h : Live vec s) (hpc : s.pc = .start i b) (hlt : ¬ i < numThreads - 1) :
    Live vec (callerStep raw vec s) := by
  obtain ⟨pc, workers, threads, results, accesses, ranges, summed⟩ := s
  obtain rfl : pc = .start i b := hpc
  obtain ⟨hi, hb⟩ := h.pc
  have hranges : ranges = tiles (bound vec.length) i := h.ranges
  have hin : numThreads - 1 < numThreads := by decide
  have hlast : i = numThreads - 1 := by omega
  subst hlast
  unfold callerStep
  dsimp only
  rw [if_neg hlt]
  refine { h.note (v := .results) fun _ => hin with
    pc := ⟨Nat.le_of_eq hb.symm, ?_, ?_⟩
    own := fun h => absurd h (by simp [Pc.ownWritten])
    ranges := ?_ }
  · rw [hb]
    exact bound_le (by decide)
  · rw [hb, extract_self]
    rfl
  · show ranges ++ [(b, vec.length)] = tiles (bound vec.length) (numThreads - 1 + 1)
    have hend : bound vec.length (numThreads - 1 + 1) = vec.length := bound_last _
    rw [tiles_succ, hend, hranges, hb]

/-- The first access to `threads` is out of bounds, whatever the storage holds. -/
theorem live_assign (h : Live vec s) (hpc : s.pc = .assign i stop) :
    Live vec (callerStep raw vec s) ∨ Ended raw (callerStep raw vec s) := by
  obtain ⟨pc, workers, threads, results, accesses, ranges, summed⟩ := s
  obtain rfl : pc = .assign i stop := hpc
  obtain ⟨hi, hstop⟩ := h.pc
  have hraw : threads i = .raw := h.raws i (Nat.le_refl i)
  have hnote := h.note (v := .threads) (i := i) (n := 0) fun hne => absurd rfl hne
  unfold callerStep
  dsimp only
  by_cases hjoinable : (threads i).joinable raw i = true
  · rw [if_pos hjoinable]
    rw [hraw] at hjoinable
    exact .inr ⟨rfl, ⟨i, hi, hjoinable⟩, hnote.bounded, hnote.summed⟩
  · rw [if_neg hjoinable]
    left
    refine { hnote with
      pc := ⟨hi, hstop⟩
      slots := ?_
      raws := ?_
      strayed := fun _ => strayed_note _ _ }
    · intro j _ hj
      change j < i + 1 at hj
      show Function.update threads i _ j = _
      by_cases hji : j = i
      · rw [hji, Function.update_self]
      · rw [Function.update_of_ne hji]
        exact h.slots j (Nat.zero_le _) (by show j < i; omega)
    · intro j hj
      change i + 1 ≤ j at hj
      show Function.update threads i _ j = _
      rw [Function.update_of_ne (by omega)]
      exact h.raws j (by show i ≤ j; omega)

theorem live_own (h : Live vec s) (hpc : s.pc = .own pos total) : Live vec (callerStep raw vec s) := by
  obtain ⟨pc, workers, threads, results, accesses, ranges, summed⟩ := s
  obtain rfl : pc = .own pos total := hpc
  obtain ⟨hbegin, hpos, htotal⟩ := h.pc
  unfold callerStep
  dsimp only
  by_cases hend : pos = vec.length
  · rw [if_pos hend]
    have hpart : total = part vec (numThreads - 1) := by
      rw [htotal, hend, part, show numThreads - 1 + 1 = numThreads from rfl, bound_last]
    have hin : numThreads - 1 < numThreads := by decide
    refine { h.note (v := .results) fun _ => hin with
      pc := Nat.zero_le _
      workers := ?_
      own := ?_ }
    · intro j hj
      change j < numThreads - 1 at hj
      exact (h.workers j hj).frame (Function.update_of_ne (by omega) _ _)
    · intro _
      rw [← hpart]
      show Function.update results (numThreads - 1) (⟨total, true⟩ : AlignedULL) (numThreads - 1) = ⟨total, true⟩
      rw [Function.update_self]
  · rw [if_neg hend]
    have hlt : pos < vec.length := by omega
    refine (h.note fun _ => hlt).move (.own (pos + 1) _) ⟨by omega, hlt, ?_⟩ rfl rfl rfl rfl rfl
    rw [htotal, accumulate_extract_succ hbegin hlt]

theorem live_joinable (h : Live vec s) (hpc : s.pc = .joinable i) : Live vec (callerStep raw vec s) := by
  obtain ⟨pc, workers, threads, results, accesses, ranges, summed⟩ := s
  obtain rfl : pc = .joinable i := hpc
  have hi : i ≤ numThreads - 1 := h.pc
  unfold callerStep
  dsimp only
  by_cases hlt : i < numThreads - 1
  · have hthread : threads i = .thread i := h.slots i (Nat.le_refl i) hlt
    have hjoinable : (threads i).joinable raw i = true := by rw [hthread]; rfl
    rw [if_pos hlt, if_pos hjoinable]
    have hnote := h.note (v := .threads) (i := i) (n := 0) fun hne => absurd rfl hne
    exact hnote.move (.join i) hlt rfl rfl rfl rfl rfl
  · rw [if_neg hlt]
    have hlast : i = numThreads - 1 := by omega
    subst hlast
    refine h.move (.sum 0 0) ⟨Nat.zero_le _, ?_⟩ rfl rfl rfl rfl rfl
    rw [bound_zero, extract_self]
    rfl

/-- The calling thread waits until the thread is at its end. -/
theorem live_join (h : Live vec s) (hpc : s.pc = .join i) : Live vec (callerStep raw vec s) := by
  obtain ⟨pc, workers, threads, results, accesses, ranges, summed⟩ := s
  obtain rfl : pc = .join i := hpc
  have hi : i < numThreads - 1 := h.pc
  have hthread : threads i = .thread i := h.slots i (Nat.le_refl i) hi
  unfold callerStep
  dsimp only
  rw [hthread]
  dsimp only
  by_cases hfinished : workers i = .finished
  · rw [if_pos hfinished]
    refine { h.note (v := .threads) (i := i) (n := 0) fun hne => absurd rfl hne with
      pc := hi
      joined := ?_
      slots := ?_
      raws := ?_ }
    · intro j hj
      change j < i + 1 at hj
      by_cases hji : j = i
      · rw [hji]
        exact hfinished
      · exact h.joined j (by show j < i; omega)
    · intro j hj hlt
      change i + 1 ≤ j at hj
      show Function.update threads i _ j = _
      rw [Function.update_of_ne (by omega)]
      exact h.slots j (by show i ≤ j; omega) hlt
    · intro j hj
      change numThreads - 1 ≤ j at hj
      show Function.update threads i _ j = _
      rw [Function.update_of_ne (by omega)]
      exact h.raws j hj
  · rw [if_neg hfinished]
    exact h

/-- All threads are joined, so every result that is added is that of a thread at its end. -/
theorem result_sum (h : Live vec s) (hpc : s.pc = .sum i total) (hi : i < numThreads) :
    s.results i = ⟨part vec i, true⟩ := by
  by_cases hlast : i = numThreads - 1
  · rw [hlast]
    exact h.own (by rw [hpc]; rfl)
  · have hlt : i < numThreads - 1 := by omega
    have hfinished : s.workers i = .finished := h.joined i (by rw [hpc]; exact hlt)
    have hok := h.workers i (by rw [hpc]; exact hlt)
    rw [hfinished] at hok
    exact hok

theorem live_sum (h : Live vec s) (hpc : s.pc = .sum i total) : Live vec (callerStep raw vec s) := by
  obtain ⟨pc, workers, threads, results, accesses, ranges, summed⟩ := s
  obtain rfl : pc = .sum i total := hpc
  have hresult : i < numThreads → results i = ⟨part vec i, true⟩ := result_sum h rfl
  obtain ⟨hi, htotal⟩ := h.pc
  unfold callerStep
  dsimp only
  by_cases hlt : i < numThreads
  · rw [if_pos hlt]
    refine { h.note (v := .results) (i := i) fun _ => hlt with
      pc := ⟨hlt, ?_⟩
      summed := ?_ }
    · rw [htotal, hresult hlt, accumulate_extract_append (Nat.zero_le _) (bound_le_succ hlt)]
      rfl
    · intro written hwritten
      rcases List.mem_append.mp hwritten with hwritten | hwritten
      · exact h.summed written hwritten
      · rw [List.mem_singleton.mp hwritten, hresult hlt]
  · rw [if_neg hlt]
    have hall : i = numThreads := by omega
    refine h.move (.returned total) ?_ rfl rfl rfl rfl rfl
    show total = accumulate vec
    rw [htotal, hall, bound_last, extract_all]

theorem live_callerStep (h : Live vec s) :
    Live vec (callerStep raw vec s) ∨ Ended raw (callerStep raw vec s) := by
  cases hpc : s.pc with
  | start i b =>
    left
    by_cases hlt : i < numThreads - 1
    · exact live_spawn h hpc hlt
    · exact live_keep h hpc hlt
  | assign i stop => exact live_assign h hpc
  | own pos total => exact .inl (live_own h hpc)
  | joinable i => exact .inl (live_joinable h hpc)
  | join i => exact .inl (live_join h hpc)
  | sum i total => exact .inl (live_sum h hpc)
  | returned value =>
    left
    unfold callerStep
    rw [hpc]
    exact h
  | terminated =>
    have hok := h.pc
    rw [hpc] at hok
    exact hok.elim

/-- Only threads that are started move, and the last result is the calling thread's own. -/
theorem Pc.started_le {pc : Pc} (h : pc.Ok vec) : pc.started ≤ numThreads - 1 := by
  cases pc with
  | start i b => exact h.1
  | assign i stop => exact h.1
  | _ => exact Nat.le_refl _

/-- A thread that is not at its end may change its variables. -/
theorem Live.update (h : Live vec s) {w : Worker} (hi : i < s.pc.started) (hrun : s.workers i ≠ .finished)
    (hw : w.Ok vec s.results i) : Live vec { s with workers := Function.update s.workers i w } := by
  refine { h with workers := ?_, unstarted := ?_, joined := ?_ }
  · intro j hj
    show (Function.update s.workers i w j).Ok vec s.results j
    by_cases hji : j = i
    · rw [hji, Function.update_self]
      exact hw
    · rw [Function.update_of_ne hji]
      exact h.workers j hj
  · intro j hj
    show Function.update s.workers i w j = _
    rw [Function.update_of_ne (Nat.ne_of_gt (Nat.lt_of_lt_of_le hi hj))]
    exact h.unstarted j hj
  · intro j hj
    show Function.update s.workers i w j = _
    have hji : j ≠ i := by
      rintro rfl
      exact hrun (h.joined j hj)
    rw [Function.update_of_ne hji]
    exact h.joined j hj

/-- A thread that is not at its end may write its result: no other thread has the same one. -/
theorem Live.write (h : Live vec s) (hi : i < s.pc.started) (hrun : s.workers i ≠ .finished) (r : AlignedULL) :
    Live vec { s with results := Function.update s.results i r } := by
  have hlast : i < numThreads - 1 := Nat.lt_of_lt_of_le hi (Pc.started_le h.pc)
  refine { h with workers := ?_, own := ?_ }
  · intro j hj
    by_cases hji : j = i
    · subst hji
      exact (h.workers j hj).unfinished hrun
    · exact (h.workers j hj).frame (Function.update_of_ne hji _ _)
  · intro hwritten
    show Function.update s.results i r (numThreads - 1) = _
    rw [Function.update_of_ne (by omega)]
    exact h.own hwritten

theorem live_workerStep (h : Live vec s) (i : ℕ) : Live vec (workerStep vec s i) := by
  unfold workerStep
  cases hw : s.workers i with
  | unstarted => exact h
  | finished => exact h
  | running pos stop total =>
    have hi : i < s.pc.started := by
      by_contra hge
      rw [h.unstarted i (Nat.le_of_not_lt hge)] at hw
      cases hw
    have hrun : s.workers i ≠ .finished := by simp [hw]
    have hlast : i < numThreads - 1 := Nat.lt_of_lt_of_le hi (Pc.started_le h.pc)
    have hok := h.workers i hi
    rw [hw] at hok
    obtain ⟨hbegin, hpos, hstop, htotal⟩ := hok
    dsimp only
    by_cases hend : pos = stop
    · -- it writes its result
      rw [if_pos hend]
      have hin : i < numThreads := by omega
      refine ((h.note (v := .results) fun _ => hin).write hi hrun ⟨total, true⟩).update hi hrun (w := .finished) ?_
      show Function.update s.results i (⟨total, true⟩ : AlignedULL) i = ⟨part vec i, true⟩
      rw [Function.update_self, htotal, hend, hstop, part]
    · -- it adds an element
      rw [if_neg hend]
      have hle : stop ≤ vec.length := by
        rw [hstop]
        exact bound_le (by omega)
      have hlt : pos < vec.length := by omega
      refine (h.note (v := .vec) fun _ => hlt).update hi hrun ⟨by omega, by omega, hstop, ?_⟩
      rw [htotal, accumulate_extract_succ hbegin hlt]

theorem next_worker (h : Live vec s) (i : ℕ) : next raw vec s (.worker i) = workerStep vec s i := by
  refine if_neg ?_
  intro hpc
  have hok := h.pc
  rw [hpc] at hok
  exact hok

/-- **A step** keeps the invariant or ends the process. -/
theorem next_live (h : Live vec s) (t : Thread) : Live vec (next raw vec s t) ∨ Ended raw (next raw vec s t) := by
  cases t with
  | caller => exact live_callerStep h
  | worker i =>
    left
    rw [next_worker h]
    exact live_workerStep h i

theorem next_ended (h : s.pc = .terminated) (t : Thread) : next raw vec s t = s := by
  cases t with
  | caller =>
    show callerStep raw vec s = s
    unfold callerStep
    rw [h]
  | worker i => exact if_pos h

/-- **A run**: in every state of it the invariant holds, or the process has ended. -/
theorem interleave_live (raw : ℕ → Bool) (vec : List UInt64) (sched : List Thread) :
    Live vec (interleave raw vec sched) ∨ Ended raw (interleave raw vec sched) := by
  refine List.foldlRecOn (motive := fun s => Live vec s ∨ Ended raw s) sched _ (.inl (live_init vec)) ?_
  rintro s (hlive | hended) t _
  · exact next_live hlive t
  · rw [next_ended hended.pc]
    exact .inr hended

end Steps

/-! ## Every run -/

section Runs

/-- **The sum strays outside its vector**, on every input: the second step of the calling thread is an access to
`threads[0]`, and `threads` is empty.  Nothing else goes wrong: in every state of every run the accesses to `vec` and
`results` are in bounds and every result was written when it was added, and a run that returns has left the bounds of
`threads`, its ranges partition the vector, and its value is the sequential sum. -/
theorem parallel_accumulate_strays (raw : ℕ → Bool) (vec : List UInt64) :
    ¬ Meets raw vec ∧
    ∀ sched, Bounded (interleave raw vec sched).accesses ∧ WrittenFirst (interleave raw vec sched) ∧
      ∀ value, (interleave raw vec sched).pc = .returned value →
        Strayed (interleave raw vec sched).accesses ∧ Partitions vec.length (interleave raw vec sched).ranges ∧
        value = accumulate vec := by
  constructor
  · intro hmeets
    obtain ⟨hin, -⟩ := hmeets [.caller, .caller]
    have hmem : (⟨.threads, 0, 0⟩ : Access) ∈ (interleave raw vec [.caller, .caller]).accesses := by
      cases hraw : raw 0 <;> simp [interleave, next, callerStep, init, State.note, numThreads, Slot.joinable, hraw]
    exact Nat.lt_irrefl 0 (hin _ hmem (.inr rfl))
  · intro sched
    rcases interleave_live raw vec sched with hlive | hended
    · refine ⟨hlive.bounded, hlive.summed, ?_⟩
      intro value hpc
      have hok := hlive.pc
      have hranges := hlive.ranges
      have hstrayed := hlive.strayed
      rw [hpc] at hok hranges hstrayed
      refine ⟨hstrayed (Nat.zero_lt_succ _), ?_, hok⟩
      rw [hranges]
      exact partitions_tiles vec.length
    · refine ⟨hended.bounded, hended.summed, ?_⟩
      intro value hpc
      rw [hended.pc] at hpc
      cases hpc

/-- Three elements, and storage that looks like no thread. -/
theorem three_elements_stray : ¬ Meets (fun _ => false) [1, 2, 3] := by
  intro hmeets
  obtain ⟨hin, -⟩ := hmeets [.caller, .caller]
  exact absurd (hin ⟨.threads, 0, 0⟩ (by decide) (.inr rfl)) (by decide)

end Runs

/-! ## No run gets stuck -/

section Progress

variable {raw : ℕ → Bool} {vec : List UInt64} {s : State} {i : ℕ}

/-- What the calling thread has left to do. -/
def Pc.rank (n : ℕ) : Pc → ℕ
  | start i _ => 26 + n + 2 * (numThreads - 1 - i)
  | assign i _ => 25 + n + 2 * (numThreads - 1 - i)
  | own pos _ => 25 + (n - pos)
  | joinable i => 10 + 2 * (numThreads - 1 - i)
  | join i => 9 + 2 * (numThreads - 1 - i)
  | sum i _ => 1 + (numThreads - i)
  | returned _ | terminated => 0

/-- What a thread has left to do. -/
def Worker.rank : Worker → ℕ
  | running pos stop _ => stop - pos + 1
  | unstarted | finished => 0

/-- The calling thread gets on, unless it waits for a thread. -/
theorem rank_callerStep (hraw : ∀ i, raw i = false) (h : Live vec s) (hpc : ∀ value, s.pc ≠ .returned value)
    (hjoin : ∀ i, s.pc = .join i → s.workers i = .finished) :
    (callerStep raw vec s).pc.rank vec.length < s.pc.rank vec.length := by
  have hok := h.pc
  have hslots := h.slots
  have hraws := h.raws
  unfold callerStep
  cases heq : s.pc with
  | start i b =>
    dsimp only
    split_ifs with hlt
    · show 25 + _ + 2 * (numThreads - 1 - i) < 26 + _ + 2 * (numThreads - 1 - i)
      omega
    · show 25 + (vec.length - b) < 26 + vec.length + 2 * (numThreads - 1 - i)
      omega
  | assign i stop =>
    rw [heq] at hok hraws
    have hlt : i < numThreads - 1 := hok.1
    have hslot : s.threads i = .raw := hraws i (Nat.le_refl i)
    have hfree : ¬ Slot.joinable raw i .raw = true := by simp [Slot.joinable, hraw i]
    dsimp only
    rw [hslot, if_neg hfree]
    show 26 + vec.length + 2 * (numThreads - 1 - (i + 1)) < 25 + vec.length + 2 * (numThreads - 1 - i)
    omega
  | own pos total =>
    rw [heq] at hok
    have hle : pos ≤ vec.length := hok.2.1
    dsimp only
    split_ifs with hend
    · show 10 + 2 * (8 - 1 - 0) < 25 + (vec.length - pos)
      omega
    · show 25 + (vec.length - (pos + 1)) < 25 + (vec.length - pos)
      omega
  | joinable i =>
    rw [heq] at hok hslots
    dsimp only
    by_cases hlt : i < numThreads - 1
    · have hjoinable : Slot.joinable raw i (.thread i) = true := rfl
      rw [if_pos hlt, hslots i (Nat.le_refl i) hlt, if_pos hjoinable]
      show 9 + 2 * (numThreads - 1 - i) < 10 + 2 * (numThreads - 1 - i)
      omega
    · rw [if_neg hlt]
      show 1 + (8 - 0) < 10 + 2 * (numThreads - 1 - i)
      omega
  | join i =>
    rw [heq] at hok hslots
    have hlt : i < numThreads - 1 := hok
    dsimp only
    rw [hslots i (Nat.le_refl i) hlt]
    dsimp only
    rw [if_pos (hjoin i heq)]
    show 10 + 2 * (numThreads - 1 - (i + 1)) < 9 + 2 * (numThreads - 1 - i)
    omega
  | sum i total =>
    rw [heq] at hok
    dsimp only
    split_ifs with hlt
    · show 1 + (numThreads - (i + 1)) < 1 + (numThreads - i)
      omega
    · show 0 < 1 + (numThreads - i)
      omega
  | returned value => exact absurd heq (hpc value)
  | terminated =>
    rw [heq] at hok
    exact hok.elim

/-- Where no slot looks like a thread, the process goes on. -/
theorem run_live (hraw : ∀ i, raw i = false) (h : Live vec s) (rest : List Thread) :
    Live vec (rest.foldl (next raw vec) s) := by
  refine List.foldlRecOn (motive := Live vec) rest _ h ?_
  intro s hlive t _
  rcases next_live hlive t with hnext | hended
  · exact hnext
  · obtain ⟨i, -, hi⟩ := hended.raw
    rw [hraw i] at hi
    cases hi

/-- A started thread gets on, and the calling thread does not notice. -/
theorem rank_workerStep (h : Live vec s) (hi : i < s.pc.started) (hrun : s.workers i ≠ .finished) :
    (workerStep vec s i).pc = s.pc ∧ ((workerStep vec s i).workers i).rank < (s.workers i).rank := by
  have hok := h.workers i hi
  unfold workerStep
  cases hw : s.workers i with
  | unstarted =>
    rw [hw] at hok
    exact hok.elim
  | finished => exact absurd hw hrun
  | running pos stop total =>
    rw [hw] at hok
    have hpos : pos ≤ stop := hok.2.1
    dsimp only
    split_ifs with hend
    · refine ⟨rfl, ?_⟩
      show (Function.update s.workers i Worker.finished i).rank < stop - pos + 1
      rw [Function.update_self]
      exact Nat.zero_lt_succ _
    · refine ⟨rfl, ?_⟩
      show (Function.update s.workers i (Worker.running (pos + 1) stop _) i).rank < stop - pos + 1
      rw [Function.update_self]
      show stop - (pos + 1) + 1 < stop - pos + 1
      omega

/-- It gets to its end without the others. -/
theorem worker_finishes (raw : ℕ → Bool) (h : Live vec s) (hi : i < s.pc.started) :
    ∃ rest : List Thread, (rest.foldl (next raw vec) s).pc = s.pc ∧
      (rest.foldl (next raw vec) s).workers i = .finished := by
  induction hrank : (s.workers i).rank using Nat.strongRecOn generalizing s with
  | _ k ih =>
    by_cases hrun : s.workers i = .finished
    · exact ⟨[], rfl, hrun⟩
    · obtain ⟨hpc, hlt⟩ := rank_workerStep h hi hrun
      obtain ⟨rest, hsame, hfinished⟩ := ih _ (hrank ▸ hlt) (live_workerStep h i) (hpc.symm ▸ hi) rfl
      refine ⟨.worker i :: rest, ?_, ?_⟩
      · rw [List.foldl_cons, next_worker h, hsame, hpc]
      · rw [List.foldl_cons, next_worker h, hfinished]

/-- From every state the calling thread gets to its end: it moves when it can, and when it waits the thread it waits for
moves. -/
theorem live_returns (hraw : ∀ i, raw i = false) (h : Live vec s) :
    ∃ (rest : List Thread) (value : UInt64), (rest.foldl (next raw vec) s).pc = .returned value := by
  induction hrank : s.pc.rank vec.length using Nat.strongRecOn generalizing s with
  | _ k ih =>
    by_cases hdone : ∃ value, s.pc = .returned value
    · obtain ⟨value, hpc⟩ := hdone
      exact ⟨[], value, hpc⟩
    · push Not at hdone
      have hready : ∃ rest : List Thread, (rest.foldl (next raw vec) s).pc = s.pc ∧
          ∀ i, s.pc = .join i → (rest.foldl (next raw vec) s).workers i = .finished := by
        by_cases hwait : ∃ i, s.pc = .join i
        · obtain ⟨i, hpc⟩ := hwait
          have hlt : i < numThreads - 1 := by
            have hok := h.pc
            rwa [hpc] at hok
          obtain ⟨rest, hsame, hfinished⟩ := worker_finishes raw h (i := i) (by rw [hpc]; exact hlt)
          refine ⟨rest, hsame, ?_⟩
          intro j hj
          rw [hpc] at hj
          cases hj
          exact hfinished
        · push Not at hwait
          exact ⟨[], rfl, fun i hi => absurd hi (hwait i)⟩
      obtain ⟨rest, hsame, hfinished⟩ := hready
      have hlive := run_live hraw h rest
      have hlt := rank_callerStep hraw hlive (hsame ▸ hdone) (hsame.symm ▸ hfinished)
      rw [hsame, hrank] at hlt
      obtain ⟨rest', value, hvalue⟩ := ih _ hlt (run_live hraw hlive [.caller]) rfl
      refine ⟨rest ++ .caller :: rest', value, ?_⟩
      rw [List.foldl_append, List.foldl_cons]
      exact hvalue

/-- **No run gets stuck** where the raw storage looks like no thread: every run can go on until it returns. -/
theorem can_return (hraw : ∀ i, raw i = false) (vec : List UInt64) (sched : List Thread) :
    ∃ (rest : List Thread) (value : UInt64), (interleave raw vec (sched ++ rest)).pc = .returned value := by
  obtain ⟨rest, value, hvalue⟩ := live_returns hraw (run_live hraw (live_init vec) sched)
  refine ⟨rest, value, ?_⟩
  unfold interleave
  rw [List.foldl_append]
  exact hvalue

end Progress

end Journey.ParallelAccumulate
