import Journey.Lib.Bytes
import Journey.Lib.Machine

/-!
# Journey.Allocator.Arena — a bump allocator over a fixed buffer

`Arena<N>` hands out pieces of a buffer of `N` bytes from its front to its back, and never takes one
back.  `CustomAllocator<T, N>` asks it for the bytes of `count` objects.  Addresses and sizes are
`size_t`, 64 bits wide.

* `Arena.allocate`, `Arena.deallocate`, `CustomAllocator.allocate`: the member functions.  `next` stays
  within the buffer by construction.
* `Arena.totalNeeded_le_iff`, `Arena.allocate_cases`: when a request is granted, and where.
* `SafeCall`: what an allocator promises about one call, given the regions it has returned.
* `arena_safe_iff`: the runs in which every call keeps that promise.
-/

namespace Journey.Allocator

/-! ## The arena -/

section Model

/-- `std::bad_alloc`. -/
inductive BadAlloc
  | badAlloc
deriving DecidableEq, Repr

/-- Where the buffer of an arena of `N` bytes lies: not at the null pointer, and with the address behind
it within the address space. -/
structure Buffer (N : UInt64) where
  base : UInt64
  base_pos : 0 < base.toNat
  fits : base.toNat + N.toNat < 2 ^ 64

/-- `Arena<N>`: the buffer and `next`, which points into it or behind it. -/
structure Arena (N : UInt64) extends Buffer N where
  next : UInt64
  base_le : base.toNat ≤ next.toNat
  next_le : next.toNat ≤ base.toNat + N.toNat

/-- An alignment: any but 0, by which `align_up` divides. -/
abbrev Alignment := { a : UInt64 // a ≠ 0 }

variable {N : UInt64}

/-- A call on an arena. -/
abbrev ArenaM (N : UInt64) := EStateM BadAlloc (Arena N)

namespace Arena

/-- The constructor. -/
def create (b : Buffer N) : Arena N where
  toBuffer := b
  next := b.base
  base_le := le_refl _
  next_le := Nat.le_add_right ..

/-- `used`. -/
def used (a : Arena N) : UInt64 := a.next - a.base

/-- `align_up`. -/
def alignUp (p alignment : UInt64) : UInt64 :=
  if p % alignment = 0 then p else p + alignment - p % alignment

theorem toNat_used (a : Arena N) : a.used.toNat = a.next.toNat - a.base.toNat := by
  unfold used
  exact UInt64.toNat_sub_of_le _ _ (UInt64.le_iff_toNat_le.mpr a.base_le)

theorem toNat_free (a : Arena N) : (N - a.used).toNat = a.base.toNat + N.toNat - a.next.toNat := by
  have h1 := a.base_le
  have h2 := a.next_le
  have hused := a.toNat_used
  rw [UInt64.toNat_sub_of_le _ _ (UInt64.le_iff_toNat_le.mpr (by omega)), hused]
  omega

/-- The pointer moves on by bytes that are free. -/
theorem toNat_next_add (a : Arena N) {totalNeeded : UInt64} (h : totalNeeded ≤ N - a.used) :
    (a.next + totalNeeded).toNat = a.next.toNat + totalNeeded.toNat ∧
      a.next.toNat + totalNeeded.toNat ≤ a.base.toNat + N.toNat := by
  have h1 := a.base_le
  have h2 := a.next_le
  have h3 := a.fits
  have hle := UInt64.le_iff_toNat_le.mp h
  rw [toNat_free] at hle
  refine ⟨?_, by omega⟩
  rw [UInt64.toNat_add]
  exact Nat.mod_eq_of_lt (by omega)

/-- `next = next + total_needed`, for bytes that are free. -/
def bump (a : Arena N) (totalNeeded : UInt64) (h : totalNeeded ≤ N - a.used) : Arena N where
  toBuffer := a.toBuffer
  next := a.next + totalNeeded
  base_le := by
    have h1 := a.base_le
    rw [(a.toNat_next_add h).1]
    omega
  next_le := by
    rw [(a.toNat_next_add h).1]
    exact (a.toNat_next_add h).2

/-- `allocate`. -/
def allocate (n : UInt64) (alignment : Alignment) : ArenaM N UInt64 := do
  let a ← get
  let currentAddr := a.next
  let alignedAddr := alignUp currentAddr alignment
  let padding := alignedAddr - currentAddr
  let totalNeeded := n + padding
  let bytesFree := N - a.used
  if h : totalNeeded ≤ bytesFree then
    let alignedPtr := a.next + padding
    set (a.bump totalNeeded h)
    return alignedPtr
  else throw .badAlloc

/-- `deallocate`: nothing. -/
def deallocate : ArenaM N Unit := return ()

end Arena

/-- `CustomAllocator<T, N>`, as far as it depends on `T`: `sizeof(T)` and `alignof(T)`. -/
structure CustomAllocator where
  sizeOf : UInt64
  alignOf : Alignment

/-- `CustomAllocator::allocate`. -/
def CustomAllocator.allocate (c : CustomAllocator) (n : UInt64) : ArenaM N UInt64 :=
  Arena.allocate (n * c.sizeOf) c.alignOf

/-- `CustomAllocator::deallocate`. -/
def CustomAllocator.deallocate (_ : CustomAllocator) (_p _n : UInt64) : ArenaM N Unit := Arena.deallocate

end Model

/-! ## One request -/

section Request

variable {N : UInt64}

/-- The bytes from address `p` to the next multiple of `k`. -/
def pad (p k : ℕ) : ℕ := (k - p % k) % k

theorem add_pad_mod {k : ℕ} (p : ℕ) (hk : 0 < k) : (p + pad p k) % k = 0 := by
  have hlt := Nat.mod_lt p hk
  unfold pad
  rw [Nat.add_mod, Nat.mod_mod]
  rcases Nat.eq_zero_or_pos (p % k) with h0 | hpos
  · rw [h0]
    simp
  · have hsub : (k - p % k) % k = k - p % k := Nat.mod_eq_of_lt (by omega)
    have hsum : p % k + (k - p % k) = k := by omega
    rw [hsub, hsum, Nat.mod_self]

theorem Alignment.pos (alignment : Alignment) : 0 < alignment.1.toNat :=
  Nat.pos_of_ne_zero fun h0 => alignment.2 (UInt64.toNat_inj.mp h0)

/-- The padding comes out right even where `align_up` wraps around. -/
theorem toNat_padding (p : UInt64) (alignment : Alignment) :
    (Arena.alignUp p alignment - p).toNat = pad p.toNat alignment.1.toNat := by
  obtain ⟨k, hk⟩ := alignment
  have hpos : 0 < k.toNat := Alignment.pos ⟨k, hk⟩
  have hlt := Nat.mod_lt p.toNat hpos
  have hp := p.toNat_lt
  have hk' := k.toNat_lt
  unfold Arena.alignUp pad
  dsimp only
  split_ifs with h0
  · have hmod : p.toNat % k.toNat = 0 := by
      rw [← UInt64.toNat_mod, h0]
      rfl
    rw [hmod, UInt64.sub_self]
    simp
  · have hmod : p.toNat % k.toNat ≠ 0 := by
      rw [← UInt64.toNat_mod]
      exact fun h => h0 (UInt64.toNat_inj.mp h)
    rw [Nat.mod_eq_of_lt (by omega : k.toNat - p.toNat % k.toNat < k.toNat)]
    rw [UInt64.toNat_sub, UInt64.toNat_sub, UInt64.toNat_add, UInt64.toNat_mod]
    omega

/-- `total_needed`, as a number: the sum of request and padding, cut to 64 bits. -/
theorem toNat_totalNeeded (a : Arena N) (n : UInt64) (alignment : Alignment) :
    (n + (Arena.alignUp a.next alignment - a.next)).toNat =
      (n.toNat + pad a.next.toNat alignment.1.toNat) % 2 ^ 64 := by
  rw [UInt64.toNat_add, toNat_padding]

/-- The call in one equation. -/
theorem Arena.allocate_eq (a : Arena N) (n : UInt64) (alignment : Alignment) :
    Arena.allocate n alignment a =
      if h : n + (Arena.alignUp a.next alignment - a.next) ≤ N - a.used then
        .ok (a.next + (Arena.alignUp a.next alignment - a.next)) (a.bump _ h)
      else .error .badAlloc a := by
  show (if h : _ then _ else _ : ArenaM N UInt64) a = _
  split_ifs
  · rfl
  · rfl

/-- The bytes behind `next`. -/
def Arena.free (a : Arena N) : ℕ := a.base.toNat + N.toNat - a.next.toNat

theorem Arena.totalNeeded_le_iff (a : Arena N) (n : UInt64) (alignment : Alignment) :
    n + (Arena.alignUp a.next alignment - a.next) ≤ N - a.used ↔
      (n.toNat + pad a.next.toNat alignment.1.toNat) % 2 ^ 64 ≤ a.free := by
  rw [UInt64.le_iff_toNat_le, toNat_totalNeeded, toNat_free]
  rfl

/-- **A request is granted** when its total, cut to 64 bits, is free. -/
theorem Arena.allocate_cases (a : Arena N) (n : UInt64) (alignment : Alignment) :
    (a.free < (n.toNat + pad a.next.toNat alignment.1.toNat) % 2 ^ 64 ∧
      Arena.allocate n alignment a = .error .badAlloc a) ∨
    ((n.toNat + pad a.next.toNat alignment.1.toNat) % 2 ^ 64 ≤ a.free ∧
      ∃ addr a', Arena.allocate n alignment a = .ok addr a' ∧ a'.toBuffer = a.toBuffer ∧
        addr.toNat = (a.next.toNat + pad a.next.toNat alignment.1.toNat) % 2 ^ 64 ∧
        a'.next.toNat = a.next.toNat + (n.toNat + pad a.next.toNat alignment.1.toNat) % 2 ^ 64) := by
  have hiff := a.totalNeeded_le_iff n alignment
  have heq := a.allocate_eq n alignment
  by_cases hle : n + (Arena.alignUp a.next alignment - a.next) ≤ N - a.used
  · right
    rw [dif_pos hle] at heq
    refine ⟨hiff.mp hle, _, _, heq, rfl, ?_, ?_⟩
    · rw [UInt64.toNat_add, toNat_padding]
    · show (a.next + _).toNat = _
      rw [(a.toNat_next_add hle).1, toNat_totalNeeded]
  · left
    rw [dif_neg hle] at heq
    exact ⟨Nat.lt_of_not_le fun h => hle (hiff.mpr h), heq⟩

end Request

/-! ## Runs -/

section Runs

variable {N : UInt64}

/-- One call on the arena, directly or for `count` objects of a type. -/
inductive ArenaOp
  | allocate (n : UInt64) (alignment : Alignment)
  | allocateObjects (c : CustomAllocator) (count : UInt64)
  | deallocate

/-- The bytes the call must obtain. -/
def ArenaOp.request : ArenaOp → ℕ
  | .allocate n _ => n.toNat
  | .allocateObjects c count => count.toNat * c.sizeOf.toNat
  | .deallocate => 0

/-- The alignment it asks for. -/
def ArenaOp.alignment : ArenaOp → ℕ
  | .allocate _ alignment => alignment.1.toNat
  | .allocateObjects c _ => c.alignOf.1.toNat
  | .deallocate => 1

/-- The call as a program, with the address it returns. -/
def ArenaOp.call : ArenaOp → ArenaM N (Option UInt64)
  | .allocate n alignment => do
    let p ← Arena.allocate n alignment
    return some p
  | .allocateObjects c count => do
    let p ← c.allocate count
    return some p
  | .deallocate => do
    Arena.deallocate
    return none

/-- A region that was returned. -/
structure Region where
  addr : ℕ
  size : ℕ
deriving DecidableEq, Repr

/-- The arena and the regions it has returned. -/
abbrev History (N : UInt64) := Arena N × List Region

/-- One call, recorded. -/
def step (s : History N) (op : ArenaOp) : History N :=
  match op.call s.1 with
  | .ok (some addr) a => (a, ⟨addr.toNat, op.request⟩ :: s.2)
  | .ok none a => (a, s.2)
  | .error _ a => (a, s.2)

/-- The history after a list of calls. -/
def arenaAfter (b : Buffer N) (ops : List ArenaOp) : History N := ops.foldl step (.create b, [])

/-- What an allocator promises about a call. -/
structure SafeCall (s : History N) (op : ArenaOp) : Prop where
  /-- the address is aligned, and its region inside the buffer and apart from those before -/
  granted : ∀ addr a, op.call s.1 = .ok (some addr) a →
    addr.toNat % op.alignment = 0 ∧ s.1.base.toNat ≤ addr.toNat ∧
    addr.toNat + op.request ≤ s.1.base.toNat + N.toNat ∧
    ∀ r ∈ s.2, Apart r.addr r.size addr.toNat op.request
  /-- `used()` does not decrease and does not exceed the size -/
  used_mono : s.1.used ≤ (step s op).1.used ∧ (step s op).1.used ≤ N
  /-- a call that throws changes nothing -/
  refused : ∀ e a, op.call s.1 = .error e a → a = s.1

/-- The sum of request and padding is below `2^64`, or is refused as it is cut. -/
def NoWrap (a : Arena N) (op : ArenaOp) : Prop :=
  op.request + pad a.next.toNat op.alignment < 2 ^ 64 ∨
    a.free < (op.request + pad a.next.toNat op.alignment) % 2 ^ 64

variable {s : History N} {op : ArenaOp}

theorem alignment_lt (op : ArenaOp) : op.alignment < 2 ^ 64 := by
  cases op with
  | allocate n alignment => exact alignment.1.toNat_lt
  | allocateObjects c count => exact c.alignOf.1.toNat_lt
  | deallocate => exact Nat.one_lt_two_pow (by decide)

/-- **What a call can do**: nothing, throw, or move `next` behind the region it returns. -/
theorem call_cases (a : Arena N) (op : ArenaOp) :
    (op = .deallocate ∧ op.call a = .ok none a) ∨
    (a.free < (op.request + pad a.next.toNat op.alignment) % 2 ^ 64 ∧ op.call a = .error .badAlloc a) ∨
    (0 < op.alignment ∧ (op.request + pad a.next.toNat op.alignment) % 2 ^ 64 ≤ a.free ∧
      ∃ addr a', op.call a = .ok (some addr) a' ∧ a'.toBuffer = a.toBuffer ∧
        addr.toNat = (a.next.toNat + pad a.next.toNat op.alignment) % 2 ^ 64 ∧
        a'.next.toNat = a.next.toNat + (op.request + pad a.next.toNat op.alignment) % 2 ^ 64) := by
  cases op with
  | allocate n alignment =>
    right
    simp only [ArenaOp.call, ArenaOp.request, ArenaOp.alignment, bind, EStateM.bind]
    rcases a.allocate_cases n alignment with ⟨hlt, heq⟩ | ⟨hle, addr, a', heq, hspec⟩
    · rw [heq]
      exact .inl ⟨hlt, rfl⟩
    · rw [heq]
      exact .inr ⟨alignment.pos, hle, addr, a', rfl, hspec⟩
  | allocateObjects c count =>
    right
    -- the product is cut before the padding is added to it
    have hmul : ∀ k, ((count * c.sizeOf).toNat + k) % 2 ^ 64 = (count.toNat * c.sizeOf.toNat + k) % 2 ^ 64 := by
      intro k
      rw [UInt64.toNat_mul, Nat.mod_add_mod]
    have hcases := a.allocate_cases (count * c.sizeOf) c.alignOf
    rw [hmul] at hcases
    simp only [ArenaOp.call, ArenaOp.request, ArenaOp.alignment, CustomAllocator.allocate, bind, EStateM.bind]
    rcases hcases with ⟨hlt, heq⟩ | ⟨hle, addr, a', heq, hspec⟩
    · rw [heq]
      exact .inl ⟨hlt, rfl⟩
    · rw [heq]
      exact .inr ⟨c.alignOf.pos, hle, addr, a', rfl, hspec⟩
  | deallocate => exact .inl ⟨rfl, rfl⟩

/-- `used()` does not decrease, whatever is asked for. -/
theorem used_step (s : History N) (op : ArenaOp) :
    s.1.used ≤ (step s op).1.used ∧ (step s op).1.used ≤ N := by
  have hle : ∀ a : Arena N, a.used ≤ N := by
    intro a
    have h1 := a.next_le
    rw [UInt64.le_iff_toNat_le, a.toNat_used]
    omega
  refine ⟨?_, hle _⟩
  rw [UInt64.le_iff_toNat_le, Arena.toNat_used, Arena.toNat_used]
  unfold step
  rcases call_cases s.1 op with ⟨-, heq⟩ | ⟨-, heq⟩ | ⟨-, -, addr, a', heq, hbuf, -, hnext⟩
  · rw [heq]
  · rw [heq]
  · rw [heq]
    dsimp only
    rw [hbuf]
    omega

/-- Every region that was returned lies below `next`. -/
def Below (s : History N) : Prop := ∀ r ∈ s.2, r.addr + r.size ≤ s.1.next.toNat

/-- A request that does not wrap is granted right behind `next`, within what is free. -/
theorem granted_of_noWrap {a a' : Arena N} {addr : UInt64} (hop : NoWrap a op)
    (hcall : op.call a = .ok (some addr) a') :
    0 < op.alignment ∧ addr.toNat = a.next.toNat + pad a.next.toNat op.alignment ∧
      addr.toNat + op.request = a'.next.toNat ∧ a'.toBuffer = a.toBuffer := by
  rcases call_cases a op with ⟨-, heq⟩ | ⟨-, heq⟩ | ⟨hpos, hle, addr', a'', heq, hbuf, haddr, hnext⟩
  · rw [hcall] at heq
    cases heq
  · rw [hcall] at heq
    cases heq
  · rw [hcall] at heq
    cases heq
    have hsmall : op.request + pad a.next.toNat op.alignment < 2 ^ 64 := by
      rcases hop with h | h
      · exact h
      · omega
    have h1 := a.next_le
    have h2 := a.fits
    have h3 : a.free = a.base.toNat + N.toNat - a.next.toNat := rfl
    rw [Nat.mod_eq_of_lt hsmall] at hle hnext
    rw [Nat.mod_eq_of_lt (by omega)] at haddr
    exact ⟨hpos, haddr, by omega, hbuf⟩

/-- **Step**: a call keeps its promise exactly when its sum does not wrap. -/
theorem safeCall_iff (hs : Below s) : SafeCall s op ↔ NoWrap s.1 op := by
  constructor
  · intro hsafe
    by_contra hwrap
    unfold NoWrap at hwrap
    push Not at hwrap
    obtain ⟨hbig, hle⟩ := hwrap
    rcases call_cases s.1 op with ⟨rfl, -⟩ | ⟨hlt, -⟩ | ⟨hpos, -, addr, a', heq, -, haddr, -⟩
    · have hpad : pad s.1.next.toNat 1 = 0 := Nat.mod_one _
      simp only [ArenaOp.request, ArenaOp.alignment, hpad] at hbig
      omega
    · omega
    · -- the request alone is larger than what is left of the address space
      obtain ⟨haligned, hbase, hinside, -⟩ := hsafe.granted addr a' heq
      have h1 := s.1.next_le
      have h2 := s.1.base_le
      have h3 := s.1.fits
      have hle64 := alignment_lt op
      have hpad : pad s.1.next.toNat op.alignment < op.alignment := Nat.mod_lt _ hpos
      rcases Nat.lt_or_ge (s.1.next.toNat + pad s.1.next.toNat op.alignment) (2 ^ 64) with hsmall | hover
      · rw [Nat.mod_eq_of_lt hsmall] at haddr
        omega
      · -- `align_up` wrapped: to 0 if the address is aligned at all
        have hwrapped : addr.toNat = s.1.next.toNat + pad s.1.next.toNat op.alignment - 2 ^ 64 := by
          rw [haddr, Nat.mod_eq_sub_mod hover, Nat.mod_eq_of_lt (by omega)]
        have hzero : addr.toNat = 0 := by
          have hlt : addr.toNat < op.alignment := by omega
          rw [← Nat.mod_eq_of_lt hlt]
          exact haligned
        have h4 := s.1.base_pos
        omega
  · intro hop
    refine ⟨?_, used_step s op, ?_⟩
    · intro addr a' hcall
      obtain ⟨hpos, haddr, hend, hbuf⟩ := granted_of_noWrap hop hcall
      have h1 := a'.next_le
      have h2 := s.1.base_le
      rw [hbuf] at h1
      refine ⟨by rw [haddr]; exact add_pad_mod _ hpos, by omega, by omega, ?_⟩
      intro r hr
      have hbelow := hs r hr
      exact .inl (by omega)
    · intro e a' hcall
      rcases call_cases s.1 op with ⟨-, heq⟩ | ⟨-, heq⟩ | ⟨-, -, addr, a'', heq, -⟩
      · rw [hcall] at heq
        cases heq
      · rw [hcall] at heq
        cases heq
        rfl
      · rw [hcall] at heq
        cases heq

/-- **Step**: the region of a call that does not wrap lies below `next` as the others do. -/
theorem below_step (hs : Below s) (hop : NoWrap s.1 op) : Below (step s op) := by
  intro r hr
  rw [step] at hr ⊢
  cases hcall : op.call s.1 with
  | error e a =>
    rw [hcall] at hr
    have hsafe := (safeCall_iff hs).mpr hop
    rw [hsafe.refused e a hcall]
    exact hs r hr
  | ok o a =>
    rw [hcall] at hr
    rcases call_cases s.1 op with ⟨-, heq⟩ | ⟨-, heq⟩ | ⟨-, -, addr, a', heq, -, -, hnext⟩
    · rw [hcall] at heq
      cases heq
      exact hs r hr
    · rw [hcall] at heq
      cases heq
    · rw [hcall] at heq
      cases heq
      obtain ⟨-, -, hend, -⟩ := granted_of_noWrap hop hcall
      rcases List.mem_cons.mp hr with rfl | hr
      · exact hend.le
      · have hbelow := hs r hr
        dsimp only
        omega

/-- **Arena safety.**  In a run of calls on an arena every one keeps its promise (aligned, inside the buffer and
apart from the regions before when it is granted, `used()` monotone and within the size, nothing changed when it
throws) exactly if in each of them the sum of the bytes it must obtain and the padding stays below `2^64`, or is
refused as it is cut to 64 bits. -/
theorem arena_safe_iff (b : Buffer N) (ops : List ArenaOp) :
    (∀ pre op post, ops = pre ++ op :: post → SafeCall (arenaAfter b pre) op) ↔
      ∀ pre op post, ops = pre ++ op :: post → NoWrap (arenaAfter b pre).1 op := by
  have hstart : Below (Arena.create b, []) := fun r hr => by cases hr
  have hbefore : ∀ P : History N → ArenaOp → Prop,
      (∀ pre op post, ops = pre ++ op :: post → P (arenaAfter b pre) op) → ∀ pre post, ops = pre ++ post →
        ∀ pre' op post', pre = pre' ++ op :: post' → P (arenaAfter b pre') op := by
    intro P hP pre post heq pre' op post' hpre
    exact hP pre' op (post' ++ post) (by rw [heq, hpre, List.append_assoc, List.cons_append])
  constructor
  · intro hsafe pre op post heq
    have hbelow : Below (arenaAfter b pre) :=
      foldl_along Below (fun s op hs hop => below_step hs ((safeCall_iff hs).mp hop)) pre _ hstart
        (hbefore SafeCall hsafe pre _ heq)
    exact (safeCall_iff hbelow).mp (hsafe pre op post heq)
  · intro hwrap pre op post heq
    have hbelow : Below (arenaAfter b pre) :=
      foldl_along Below (fun s op hs hop => below_step hs hop) pre _ hstart
        (hbefore (fun s op => NoWrap s.1 op) hwrap pre _ heq)
    exact (safeCall_iff hbelow).mpr (hwrap pre op post heq)

instance (a : Arena N) (op : ArenaOp) : Decidable (NoWrap a op) := inferInstanceAs (Decidable (_ ∨ _))

instance (s : History N) : Decidable (Below s) := inferInstanceAs (Decidable (∀ r ∈ s.2, _))

/-- An arena of 1024 bytes at address 4096. -/
def smallBuffer : Buffer 1024 := ⟨4096, by decide, by decide⟩

/-- After one byte, a request of `2^64 - 15` bytes with alignment 16 is granted; so is one for `2^62` objects of four
bytes on the empty arena, which obtains none. -/
theorem oversize_requests_granted :
    ¬ SafeCall (arenaAfter smallBuffer [.allocate 1 ⟨1, by decide⟩])
      (.allocate 18446744073709551601 ⟨16, by decide⟩) ∧
    ¬ SafeCall (arenaAfter smallBuffer []) (.allocateObjects ⟨4, 4, by decide⟩ 4611686018427387904) := by
  constructor
  · rw [safeCall_iff (by decide +kernel)]
    decide +kernel
  · rw [safeCall_iff (by decide +kernel)]
    decide +kernel

end Runs

end Journey.Allocator
