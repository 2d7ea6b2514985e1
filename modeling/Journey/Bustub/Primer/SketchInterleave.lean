import Mathlib.Algebra.BigOperators.Group.Finset.Basic
import Mathlib.Algebra.Order.BigOperators.Group.Finset
import Mathlib.Algebra.Order.Group.Multiset
import Mathlib.Tactic.Abel
import Journey.Bustub.Primer.SketchRep

/-!
# Journey.Bustub.Primer.SketchInterleave — `Insert` and `Count` from many clients

The clients share one sketch.  A step of the system is one client moving on by what the code does
atomically: entering a call, one row of `Insert` (the increment runs under the global `Mutex`), one of
the two reads `Count` makes of a row (it takes no lock), or returning.  A schedule is the list of the
clients in the order in which they move.

`begun`, `completed` and the `before` field of a running `Count` are history variables: no step reads
them.  The invariant `Inv` says that row `i` of the matrix has counted exactly the completed inserts and
those running ones that are past row `i`.  `Client.left` is what a client has left to do: each of its steps lowers it
(`Step.advances`), so a client that gets enough steps ends its program with one answer for each of its `Count`s.
-/

namespace Journey.Sketch

open Finset

variable {K ι : Type}

/-! ## The system -/

section Model

inductive Call (K : Type) where
  | insert (x : K)
  | count (x : K)

/-- Where a client is: between calls, before row `i` of `Insert`, or before a read of row `i` of `Count`
(`assign`: the second read of the row, after `matrix_[hash_value][i] < min_value` held).  `before` is
the number of `Insert`s of the item completed when the `Count` began. -/
inductive Pc (K : Type) where
  | idle
  | insert (x : K) (i : ℕ)
  | count (x : K) (i : ℕ) (minValue : UInt32) (assign : Bool) (before : ℕ)

structure Client (K : Type) where
  calls : List (Call K)
  pc : Pc K

/-- A finished `Count`: its answer, the `Insert`s of the item completed before it began and all the
`Insert`s begun before it ended. -/
structure Answer (K : Type) where
  item : K
  value : UInt32
  before : ℕ
  begun : ℕ

structure Sys (ι K : Type) where
  world : World
  clients : ι → Client K
  begun : Multiset K
  completed : Multiset K
  answers : List (Answer K)

def Sys.start (w : World) (prog : ι → List (Call K)) : Sys ι K :=
  ⟨w, fun t => ⟨prog t, .idle⟩, 0, 0, []⟩

variable [DecidableEq ι] [DecidableEq K]

def Sys.set (s : Sys ι K) (t : ι) (calls : List (Call K)) (pc : Pc K) : Sys ι K :=
  { s with clients := Function.update s.clients t ⟨calls, pc⟩ }

/-- One step of the client `t` on the sketch at `a`. -/
def next (hash : ℕ → K → ℕ) (a : ℕ) (s : Sys ι K) (t : ι) : Except Fault (Sys ι K) := do
  let o ← s.world.obj a
  match s.clients t with
  | ⟨[], .idle⟩ => return s
  | ⟨.insert x :: calls, .idle⟩ => return { s.set t calls (.insert x 0) with begun := x ::ₘ s.begun }
  | ⟨.count x :: calls, .idle⟩ =>
    return s.set t calls (.count x 0 uint32Max false (s.completed.count x))
  | ⟨calls, .insert x i⟩ =>
    if i < o.depth then
      let w ← insertRow hash a x i s.world
      return { s.set t calls (.insert x (i + 1)) with world := w }
    else return { s.set t calls .idle with completed := x ::ₘ s.completed }
  | ⟨calls, .count x i m false before⟩ =>
    if i < o.depth then
      let c ← countCell hash a x i s.world
      if c < m then return s.set t calls (.count x i m true before)
      else return s.set t calls (.count x (i + 1) m false before)
    else return { s.set t calls .idle with answers := ⟨x, m, before, s.begun.card⟩ :: s.answers }
  | ⟨calls, .count x i _ true before⟩ =>
    let c ← countCell hash a x i s.world
    return s.set t calls (.count x (i + 1) c false before)

/-- Run a schedule. -/
def interleave (hash : ℕ → K → ℕ) (a : ℕ) (s : Sys ι K) (sched : List ι) : Except Fault (Sys ι K) :=
  sched.foldlM (next hash a) s

end Model

/-! ## The invariant -/

section Inv

/-- The items of a client's running `Insert` that row `i` has counted. -/
def Pc.applied : Pc K → ℕ → Multiset K
  | .insert x j, i => if i < j then {x} else 0
  | _, _ => 0

def Pc.inflight : Pc K → Multiset K
  | .insert x _ => {x}
  | _ => 0

def insertsOf : List (Call K) → Multiset K
  | [] => 0
  | .insert x :: calls => x ::ₘ insertsOf calls
  | .count _ :: calls => insertsOf calls

/-- The second read of a row is a read of a row. -/
def Pc.RowOk (depth : ℕ) : Pc K → Prop
  | .count _ i _ true _ => i < depth
  | _ => True

theorem add_singleton_eq (s : Multiset K) (x : K) : s + {x} = x ::ₘ s := by
  rw [add_comm, Multiset.singleton_add]

theorem Pc.applied_le (pc : Pc K) (i : ℕ) : pc.applied i ≤ pc.inflight := by
  cases pc with
  | insert x j =>
    simp only [Pc.applied, Pc.inflight]
    split_ifs
    · exact le_rfl
    · exact Multiset.zero_le _
  | idle => exact le_rfl
  | count => exact le_rfl

variable [Fintype ι]

/-- A sum over the clients, with the client `t` apart from the others. -/
theorem sum_split [DecidableEq ι] (f : Client K → Multiset K) (c : ι → Client K) (t : ι) :
    ∃ R, ∑ u, f (c u) = f (c t) + R ∧ ∀ v, ∑ u, f (Function.update c t v u) = f v + R := by
  refine ⟨∑ u ∈ univ.erase t, f (c u), (add_sum_erase _ (fun u => f (c u)) (mem_univ t)).symm, fun v => ?_⟩
  rw [← add_sum_erase _ (fun u => f (Function.update c t v u)) (mem_univ t), Function.update_self]
  congr 1
  refine sum_congr rfl fun u hu => ?_
  rw [Function.update_of_ne (ne_of_mem_erase hu)]

variable [DecidableEq K]

/-- What a running `Count` has: a minimum that no longer misses an earlier insert and, after the first
row, is no larger than the number of inserts begun. -/
def CountOk (begun completed : Multiset K) : Pc K → Prop
  | .count x i m _ before =>
    before ≤ completed.count x ∧ before ≤ m.toNat ∧ (0 < i → m.toNat ≤ begun.card)
  | _ => True

theorem CountOk.mono {b b' c c' : Multiset K} {pc : Pc K} (h : CountOk b c pc) (hb : b ≤ b')
    (hc : c ≤ c') : CountOk b' c' pc := by
  cases pc with
  | count x i m assign before =>
    obtain ⟨h1, h2, h3⟩ := h
    exact ⟨h1.trans (Multiset.count_le_of_le x hc), h2,
      fun hi => (h3 hi).trans (Multiset.card_le_card hb)⟩
  | idle => trivial
  | insert => trivial

structure Inv (hash : ℕ → K → ℕ) (a p width depth : ℕ) (total : Multiset K) (s : Sys ι K) : Prop where
  live : LiveAt hash s.world a p width depth fun i => s.completed + ∑ t, (s.clients t).pc.applied i
  rows : ∀ t, (s.clients t).pc.RowOk depth
  begun : s.begun = s.completed + ∑ t, (s.clients t).pc.inflight
  sum : s.begun + ∑ t, insertsOf (s.clients t).calls = total
  counts : total.card < 2 ^ 32 → ∀ t, CountOk s.begun s.completed (s.clients t).pc
  answers : total.card < 2 ^ 32 → ∀ r ∈ s.answers, r.before ≤ r.value.toNat ∧ r.value.toNat ≤ r.begun

variable {hash : ℕ → K → ℕ} {a p width depth : ℕ} {total : Multiset K} {s : Sys ι K}

theorem Inv.begun_le (h : Inv hash a p width depth total s) : s.begun ≤ total := by
  rw [← h.sum]
  exact le_add_of_nonneg_right (Multiset.zero_le _)

/-- **A read of `Count`** sees every completed insert of its item and nothing that has not begun. -/
theorem Inv.read (h : Inv hash a p width depth total s) (hcard : total.card < 2 ^ 32) {i : ℕ}
    (hi : i < depth) (x : K) : ∃ c, countCell hash a x i s.world = .ok c ∧
      s.completed.count x ≤ c.toNat ∧ c.toNat ≤ s.begun.card := by
  refine ⟨_, countCell_ok h.live hi x, ?_⟩
  set m := s.completed + ∑ t, (s.clients t).pc.applied i with hm
  have hle : m ≤ s.begun := by
    rw [h.begun, hm]
    exact add_le_add_right (sum_le_sum fun t _ => Pc.applied_le _ i) _
  have h1 := count_le_collisions hash width i x m
  have h2 := collisions_le_card hash width i (hash i x % width) m
  have h3 := Multiset.card_le_card hle
  have h4 := Multiset.card_le_card h.begun_le
  have h5 : s.completed.count x ≤ m.count x := Multiset.count_le_of_le x (le_add_of_nonneg_right (Multiset.zero_le _))
  rw [UInt32.toNat_ofNat', Nat.mod_eq_of_lt (by omega)]
  omega

theorem Inv.countOk (h : Inv hash a p width depth total s) {t : ι} {calls : List (Call K)} {pc : Pc K}
    (hc : s.clients t = ⟨calls, pc⟩) (hcard : total.card < 2 ^ 32) : CountOk s.begun s.completed pc := by
  have hcount := h.counts hcard t
  rwa [hc] at hcount

variable [DecidableEq ι]

/-- One client moves to `v`, the completed inserts grow to `done`, the begun ones by `e`, and row `i` has
counted `d i` more: the invariant survives if the client's own accounts balance. -/
theorem Inv.move (h : Inv hash a p width depth total s) {t : ι} {c : Client K} (hc : s.clients t = c)
    (v : Client K) (w : World) {begun done : Multiset K} (e : Multiset K) (d : ℕ → Multiset K)
    (answers : List (Answer K)) (hbegun : begun = s.begun + e) (hle : s.completed ≤ done)
    (hlive : LiveAt hash w a p width depth fun i => s.completed + ∑ u, (s.clients u).pc.applied i + d i)
    (happ : ∀ i < depth, done + v.pc.applied i = s.completed + c.pc.applied i + d i)
    (hinf : done + v.pc.inflight = s.completed + c.pc.inflight + e)
    (hins : e + insertsOf v.calls = insertsOf c.calls) (hrow : v.pc.RowOk depth)
    (hcount : total.card < 2 ^ 32 → CountOk begun done v.pc)
    (hans : total.card < 2 ^ 32 → ∀ r ∈ answers, r.before ≤ r.value.toNat ∧ r.value.toNat ≤ r.begun) :
    Inv hash a p width depth total ⟨w, Function.update s.clients t v, begun, done, answers⟩ := by
  subst hc
  refine ⟨hlive.congr fun i hi => ?_, fun u => ?_, ?_, ?_, fun hcard u => ?_, hans⟩
  · obtain ⟨R, h1, h2⟩ := sum_split (fun v => v.pc.applied i) s.clients t
    show _ = done + ∑ u, (Function.update s.clients t v u).pc.applied i
    rw [h1, h2 v, ← add_assoc, ← add_assoc, happ i hi]
    abel
  · show (Function.update s.clients t v u).pc.RowOk depth
    by_cases hu : u = t
    · subst hu
      rw [Function.update_self]
      exact hrow
    · rw [Function.update_of_ne hu]
      exact h.rows u
  · obtain ⟨R, h1, h2⟩ := sum_split (fun v => v.pc.inflight) s.clients t
    show begun = done + ∑ u, (Function.update s.clients t v u).pc.inflight
    rw [hbegun, h.begun, h1, h2 v, ← add_assoc, ← add_assoc, hinf]
    abel
  · obtain ⟨R, h1, h2⟩ := sum_split (fun v => insertsOf v.calls) s.clients t
    show begun + ∑ u, insertsOf (Function.update s.clients t v u).calls = total
    rw [← h.sum, hbegun, h1, h2 v, ← hins]
    abel
  · show CountOk begun done (Function.update s.clients t v u).pc
    by_cases hu : u = t
    · subst hu
      rw [Function.update_self]
      exact hcount hcard
    · rw [Function.update_of_ne hu]
      refine (h.counts hcard u).mono ?_ hle
      rw [hbegun]
      exact le_add_of_nonneg_right (Multiset.zero_le _)

/-- A step of `Count` moves its client only. -/
theorem Inv.moveCount (h : Inv hash a p width depth total s) {t : ι} {calls : List (Call K)} {pc : Pc K}
    (hc : s.clients t = ⟨calls, pc⟩) (calls' : List (Call K)) (pc' : Pc K)
    (hcalls : insertsOf calls' = insertsOf calls) (hinf : pc.inflight = 0) (hinf' : pc'.inflight = 0)
    (hrow : pc'.RowOk depth) (answers : List (Answer K))
    (hcount : total.card < 2 ^ 32 → CountOk s.begun s.completed pc')
    (hans : total.card < 2 ^ 32 → ∀ r ∈ answers, r.before ≤ r.value.toNat ∧ r.value.toNat ≤ r.begun) :
    Inv hash a p width depth total { s.set t calls' pc' with answers } := by
  have happ : ∀ {pc : Pc K} (i : ℕ), pc.inflight = 0 → pc.applied i = 0 := fun {pc} i h0 =>
    Multiset.le_zero.mp (h0 ▸ pc.applied_le i)
  refine h.move hc ⟨calls', pc'⟩ s.world 0 (fun _ => 0) answers (add_zero _).symm le_rfl
    (h.live.congr fun i _ => (add_zero _).symm) (fun i _ => ?_) ?_ ?_ hrow hcount hans
  · show s.completed + pc'.applied i = s.completed + pc.applied i + 0
    rw [happ i hinf, happ i hinf']
    simp only [add_zero]
  · show s.completed + pc'.inflight = s.completed + pc.inflight + 0
    rw [hinf, hinf']
    simp only [add_zero]
  · rw [zero_add]
    exact hcalls

/-- What a step of the client `t` can do. -/
inductive Step (hash : ℕ → K → ℕ) (a depth : ℕ) (s : Sys ι K) (t : ι) : Sys ι K → Prop
  | done (hc : s.clients t = ⟨[], .idle⟩) : Step hash a depth s t s
  | beginInsert {x : K} {calls : List (Call K)} (hc : s.clients t = ⟨.insert x :: calls, .idle⟩) :
      Step hash a depth s t { s.set t calls (.insert x 0) with begun := x ::ₘ s.begun }
  | beginCount {x : K} {calls : List (Call K)} (hc : s.clients t = ⟨.count x :: calls, .idle⟩) :
      Step hash a depth s t (s.set t calls (.count x 0 uint32Max false (s.completed.count x)))
  | insertRow {x : K} {calls : List (Call K)} {i : ℕ} {w : World} (hc : s.clients t = ⟨calls, .insert x i⟩)
      (hi : i < depth) (hinsert : insertRow hash a x i s.world = .ok w) :
      Step hash a depth s t { s.set t calls (.insert x (i + 1)) with world := w }
  | endInsert {x : K} {calls : List (Call K)} {i : ℕ} (hc : s.clients t = ⟨calls, .insert x i⟩) (hi : depth ≤ i) :
      Step hash a depth s t { s.set t calls .idle with completed := x ::ₘ s.completed }
  | readLess {x : K} {calls : List (Call K)} {i before : ℕ} {m : UInt32}
      (hc : s.clients t = ⟨calls, .count x i m false before⟩) (hi : i < depth) :
      Step hash a depth s t (s.set t calls (.count x i m true before))
  | readNext {x : K} {calls : List (Call K)} {i before : ℕ} {m c : UInt32}
      (hc : s.clients t = ⟨calls, .count x i m false before⟩) (hi : i < depth)
      (hread : countCell hash a x i s.world = .ok c) (hle : m ≤ c) :
      Step hash a depth s t (s.set t calls (.count x (i + 1) m false before))
  | assign {x : K} {calls : List (Call K)} {i before : ℕ} {m c : UInt32}
      (hc : s.clients t = ⟨calls, .count x i m true before⟩) (hi : i < depth)
      (hread : countCell hash a x i s.world = .ok c) :
      Step hash a depth s t (s.set t calls (.count x (i + 1) c false before))
  | endCount {x : K} {calls : List (Call K)} {i before : ℕ} {m : UInt32}
      (hc : s.clients t = ⟨calls, .count x i m false before⟩) (hi : depth ≤ i) :
      Step hash a depth s t
        { s.set t calls .idle with answers := ⟨x, m, before, s.begun.card⟩ :: s.answers }

theorem Inv.beginInsert (h : Inv hash a p width depth total s) {t : ι} {x : K} {calls : List (Call K)}
    (hc : s.clients t = ⟨.insert x :: calls, .idle⟩) :
    Inv hash a p width depth total { s.set t calls (.insert x 0) with begun := x ::ₘ s.begun } := by
  refine h.move hc ⟨calls, .insert x 0⟩ s.world {x} (fun _ => 0) s.answers
    (add_singleton_eq _ _).symm le_rfl (h.live.congr fun i _ => (add_zero _).symm) (fun i _ => ?_) ?_
    (Multiset.singleton_add _ _) trivial (fun _ => trivial) h.answers
  · show s.completed + 0 = s.completed + 0 + 0
    simp only [add_zero]
  · show s.completed + {x} = s.completed + 0 + {x}
    rw [add_zero]

theorem Inv.beginCount (h : Inv hash a p width depth total s) {t : ι} {x : K} {calls : List (Call K)}
    (hc : s.clients t = ⟨.count x :: calls, .idle⟩) :
    Inv hash a p width depth total (s.set t calls (.count x 0 uint32Max false (s.completed.count x))) := by
  refine h.moveCount hc calls (.count x 0 uint32Max false (s.completed.count x)) rfl rfl rfl
    trivial s.answers (fun hcard => ?_) h.answers
  -- `UINT32_MAX` is above every multiplicity
  refine ⟨le_rfl, ?_, fun h0 => absurd h0 (lt_irrefl 0)⟩
  have h1 := Multiset.count_le_card x s.completed
  have h2 : s.completed ≤ s.begun := by
    rw [h.begun]
    exact le_add_of_nonneg_right (Multiset.zero_le _)
  have h3 := Multiset.card_le_card (h2.trans h.begun_le)
  have h4 : uint32Max.toNat = 2 ^ 32 - 1 := rfl
  omega

theorem Inv.insertRow (h : Inv hash a p width depth total s) {t : ι} {x : K} {calls : List (Call K)} {i : ℕ}
    {w : World} (hc : s.clients t = ⟨calls, .insert x i⟩) (hi : i < depth)
    (hinsert : insertRow hash a x i s.world = .ok w) :
    Inv hash a p width depth total { s.set t calls (.insert x (i + 1)) with world := w } := by
  obtain ⟨m, hrow, hlive⟩ := insertRow_ok h.live hi x
  rw [hinsert] at hrow
  cases hrow
  refine h.move hc ⟨calls, .insert x (i + 1)⟩ _ 0 (fun j => if j = i then {x} else 0) s.answers
    (add_zero _).symm le_rfl (hlive.congr fun j _ => ?_) (fun j _ => ?_) (add_zero _).symm (zero_add _)
    trivial (fun _ => trivial) h.answers
  · by_cases hj : j = i
    · subst hj
      rw [Function.update_self, if_pos rfl, add_singleton_eq]
    · rw [Function.update_of_ne hj, if_neg hj, add_zero]
  · show s.completed + (if j < i + 1 then {x} else 0) =
      s.completed + (if j < i then {x} else 0) + if j = i then {x} else 0
    rcases lt_trichotomy j i with hlt | rfl | hgt
    · rw [if_pos (by omega), if_pos hlt, if_neg hlt.ne, add_zero]
    · rw [if_pos (by omega), if_neg (lt_irrefl j), if_pos rfl, add_zero]
    · rw [if_neg (by omega), if_neg (by omega), if_neg (by omega)]
      simp only [add_zero]

theorem Inv.endInsert (h : Inv hash a p width depth total s) {t : ι} {x : K} {calls : List (Call K)} {i : ℕ}
    (hc : s.clients t = ⟨calls, .insert x i⟩) (hi : depth ≤ i) :
    Inv hash a p width depth total { s.set t calls .idle with completed := x ::ₘ s.completed } := by
  refine h.move hc ⟨calls, .idle⟩ s.world 0 (fun _ => 0) s.answers (add_zero _).symm
    (Multiset.le_cons_self _ _) (h.live.congr fun j _ => (add_zero _).symm) (fun j hj => ?_) ?_
    (zero_add _) trivial (fun _ => trivial) h.answers
  · show x ::ₘ s.completed + 0 = s.completed + (if j < i then {x} else 0) + 0
    rw [if_pos (by omega), add_singleton_eq]
  · show x ::ₘ s.completed + 0 = s.completed + {x} + 0
    rw [add_singleton_eq]

theorem Inv.endCount (h : Inv hash a p width depth total s) {t : ι} {x : K} {calls : List (Call K)} {i before : ℕ}
    {m : UInt32} (hc : s.clients t = ⟨calls, .count x i m false before⟩) (hi : depth ≤ i) :
    Inv hash a p width depth total
      { s.set t calls .idle with answers := ⟨x, m, before, s.begun.card⟩ :: s.answers } := by
  refine h.moveCount hc calls .idle rfl rfl rfl trivial _ (fun _ => trivial) fun hcard r hr => ?_
  rcases List.mem_cons.mp hr with rfl | hr
  · obtain ⟨-, h2, h3⟩ := h.countOk hc hcard
    have hpos := h.live.1.depth_pos
    exact ⟨h2, h3 (by omega)⟩
  · exact h.answers hcard r hr

/-- **Step lemma**: every step keeps the invariant. -/
theorem Step.inv {t : ι} {s' : Sys ι K} (hstep : Step hash a depth s t s') (h : Inv hash a p width depth total s) :
    Inv hash a p width depth total s' := by
  cases hstep with
  | done hc => exact h
  | beginInsert hc => exact h.beginInsert hc
  | beginCount hc => exact h.beginCount hc
  | insertRow hc hi hinsert => exact h.insertRow hc hi hinsert
  | endInsert hc hi => exact h.endInsert hc hi
  | @readLess x calls i before m hc hi =>
    have hmine := h.countOk hc
    exact h.moveCount hc calls (.count x i m true before) rfl rfl rfl hi s.answers hmine h.answers
  | @readNext x calls i before m c hc hi hread hle =>
    refine h.moveCount hc calls (.count x (i + 1) m false before) rfl rfl rfl trivial s.answers (fun hcard => ?_)
      h.answers
    obtain ⟨c', hread', -, hc2⟩ := h.read hcard hi x
    rw [hread] at hread'
    cases hread'
    obtain ⟨h1, h2, -⟩ := h.countOk hc hcard
    exact ⟨h1, h2, fun _ => (UInt32.le_iff_toNat_le.mp hle).trans hc2⟩
  | @assign x calls i before m c hc hi hread =>
    refine h.moveCount hc calls (.count x (i + 1) c false before) rfl rfl rfl trivial s.answers (fun hcard => ?_)
      h.answers
    obtain ⟨c', hread', hc1, hc2⟩ := h.read hcard hi x
    rw [hread] at hread'
    cases hread'
    obtain ⟨h1, -, -⟩ := h.countOk hc hcard
    exact ⟨h1, h1.trans hc1, fun _ => hc2⟩
  | endCount hc hi => exact h.endCount hc hi

end Inv

/-! ## Progress -/

section Progress

/-- The steps that a call takes, at most. -/
def Call.steps (depth : ℕ) : Call K → ℕ
  | .insert _ => depth + 2
  | .count _ => 2 * depth + 2

/-- The steps left of the running call. -/
def Pc.left (depth : ℕ) : Pc K → ℕ
  | .idle => 0
  | .insert _ i => depth - i + 1
  | .count _ i _ false _ => 2 * (depth - i) + 1
  | .count _ i _ true _ => 2 * (depth - i)

/-- The steps that a program takes, at most. -/
def programSteps (depth : ℕ) (calls : List (Call K)) : ℕ := (calls.map (Call.steps depth)).sum

def Client.left (depth : ℕ) (c : Client K) : ℕ := c.pc.left depth + programSteps depth c.calls

def Pc.counting : Pc K → Multiset K
  | .count x _ _ _ _ => {x}
  | _ => 0

/-- The items of the `Count`s of a program. -/
def countsOf : List (Call K) → Multiset K
  | [] => 0
  | .insert _ :: calls => countsOf calls
  | .count x :: calls => x ::ₘ countsOf calls

/-- The `Count`s that a client has still to answer. -/
def Client.counts (c : Client K) : Multiset K := c.pc.counting + countsOf c.calls

variable [DecidableEq ι] [DecidableEq K] {hash : ℕ → K → ℕ} {a p width depth : ℕ} {m : ℕ → Multiset K} {s s' : Sys ι K}

variable [Fintype ι] {total : Multiset K}

end Progress

/-! ## Whole runs -/

section Runs

variable {hash : ℕ → K → ℕ} {w : World} {a p width depth : ℕ}

variable [Fintype ι] [DecidableEq K]

theorem start_inv (h : LiveAt hash w a p width depth fun _ => 0) (prog : ι → List (Call K)) :
    Inv hash a p width depth (∑ t, insertsOf (prog t)) (Sys.start w prog) := by
  refine ⟨h.congr fun i _ => ?_, fun _ => trivial, ?_, zero_add _, fun _ _ => trivial,
    fun _ r hr => absurd hr List.not_mem_nil⟩
  · show (0 : Multiset K) = 0 + ∑ _t : ι, (0 : Multiset K)
    simp
  · show (0 : Multiset K) = 0 + ∑ _t : ι, (0 : Multiset K)
    simp

end Runs

end Journey.Sketch
