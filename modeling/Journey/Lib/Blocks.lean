import Mathlib.Logic.Function.Basic
import Mathlib.Tactic.Common

/-!
# Journey.Lib.Blocks — raw storage and the lifetimes of objects in it

Nothing here knows a program.  A heap of blocks of slots; a slot is raw storage or holds an object whose
lifetime has begun.  Breaking a rule of lifetimes or of the heap does not stop the model, it is noted.

* `construct`, `assign`, `read`, `destroy`: the accesses to a slot, `alloc` and `free` those to a block.
* `HeapFault`: the rules that can be broken; `outOfBlock` is the one about where an access goes.
* `times n body`: the loop `for (i = 0; i < n; i++)`, `timesM` the same for a body that may throw.
* `Becomes h h' block' clean`: `h'` has the blocks `block'`, no new access out of a block (`strays`), and no new
  fault at all if `clean` holds.  One lemma of this form for each access and for each loop over the slots of
  a block: filling it, emptying it, copying and moving the objects of another one into it.
-/

namespace Journey

variable {α σ : Type}

/-! ## The heap -/

section Model

/-- A broken rule. -/
inductive HeapFault
  | outOfBlock
  | constructOver
  | assignRaw
  | readRaw
  | destroyRaw
  | freeAgain
  | freeSize
  | freeLive
deriving DecidableEq, Repr

/-- A slot: whether an object's lifetime has begun in it, and the value its bytes stand for. -/
structure Slot (α : Type) where
  constructed : Bool
  value : Option α

/-- Raw storage. -/
def Slot.raw : Slot α := ⟨false, none⟩

/-- Whether an assignment to raw storage makes an object there, as it does for numbers.  For a type whose assignment is a
function of its own it has no meaning there. -/
class ImplicitLifetime (α : Type) where
  implicit : Bool

instance : ImplicitLifetime ℕ := ⟨true⟩
instance : ImplicitLifetime UInt8 := ⟨true⟩
instance : ImplicitLifetime String := ⟨false⟩

/-- The slot after an assignment: its value is that of the right side, if there is an object to be assigned to. -/
def Slot.assigned [ImplicitLifetime α] (s : Slot α) (x : Option α) : Slot α :=
  { s with value := if s.constructed || ImplicitLifetime.implicit α then x else none }

/-- A block of slots. -/
structure Block (α : Type) where
  size : ℕ
  slot : ℕ → Slot α

/-- The first `n` slots replaced. -/
def Block.upTo (blk : Block α) (n : ℕ) (f : ℕ → Slot α) : Block α :=
  { blk with slot := fun i => if i < n then f i else blk.slot i }

/-- A heap: the blocks that are allocated, the next block's name, and the rules that were broken. -/
structure BlockHeap (α : Type) where
  block : ℕ → Option (Block α)
  next : ℕ
  faults : List HeapFault

namespace BlockHeap

/-- How many accesses went out of a block, or into one that is not there any more. -/
def strays (h : BlockHeap α) : ℕ := h.faults.count .outOfBlock

/-- Note a fault if `c`. -/
def noteIf (h : BlockHeap α) (c : Bool) (f : HeapFault) : BlockHeap α :=
  if c then { h with faults := f :: h.faults } else h

/-- The block that slot `i` behind pointer `p` lies in. -/
def blockAt (h : BlockHeap α) (p : Option ℕ) (i : ℕ) : Option (ℕ × Block α) :=
  match p with
  | none => none
  | some b =>
    match h.block b with
    | none => none
    | some blk => if i < blk.size then some (b, blk) else none

/-- Put `s` into slot `i` of block `b`. -/
def setSlot (h : BlockHeap α) (b : ℕ) (blk : Block α) (i : ℕ) (s : Slot α) : BlockHeap α :=
  { h with block := Function.update h.block b (some { blk with slot := Function.update blk.slot i s }) }

/-- An access to slot `i` behind `p`: a fault if `bad` says so of the slot, and what `f` makes of it. -/
def access (h : BlockHeap α) (p : Option ℕ) (i : ℕ) (bad : Slot α → Bool) (fault : HeapFault)
    (f : Slot α → Slot α) : BlockHeap α :=
  match h.blockAt p i with
  | none => h.noteIf true .outOfBlock
  | some (b, blk) => (h.setSlot b blk i (f (blk.slot i))).noteIf (bad (blk.slot i)) fault

/-- Placement new: the object's lifetime begins. -/
def construct (h : BlockHeap α) (p : Option ℕ) (i : ℕ) (x : Option α) : BlockHeap α :=
  h.access p i (·.constructed) .constructOver fun _ => ⟨true, x⟩

/-- Assignment: the object gets another value. -/
def assign [ImplicitLifetime α] (h : BlockHeap α) (p : Option ℕ) (i : ℕ) (x : Option α) : BlockHeap α :=
  h.access p i (!·.constructed) .assignRaw fun s => s.assigned x

/-- A destructor call: the object's lifetime ends. -/
def destroy (h : BlockHeap α) (p : Option ℕ) (i : ℕ) : BlockHeap α :=
  h.access p i (!·.constructed) .destroyRaw fun _ => .raw

/-- The value of an object. -/
def read (h : BlockHeap α) (p : Option ℕ) (i : ℕ) : Option α × BlockHeap α :=
  match h.blockAt p i with
  | none => (none, h.noteIf true .outOfBlock)
  | some (_, blk) => ((blk.slot i).value, h.noteIf (!(blk.slot i).constructed) .readRaw)

/-- A block of `n` raw slots. -/
def rawBlock (n : ℕ) : Block α := ⟨n, fun _ => .raw⟩

/-- A new block. -/
def alloc (h : BlockHeap α) (n : ℕ) : ℕ × BlockHeap α :=
  (h.next, { h with block := Function.update h.block h.next (some (rawBlock n)), next := h.next + 1 })

/-- Give block `b` back, as one of `n` slots. -/
def free (h : BlockHeap α) (b n : ℕ) : BlockHeap α :=
  match h.block b with
  | none => h.noteIf true .freeAgain
  | some blk =>
    ({ h with block := Function.update h.block b none }.noteIf (decide (blk.size ≠ n)) .freeSize).noteIf
      ((List.range blk.size).any fun i => (blk.slot i).constructed) .freeLive

end BlockHeap

/-- `for (i = 0; i < n; i++) body(i)`. -/
def times : ℕ → (ℕ → σ → σ) → σ → σ
  | 0, _, s => s
  | n + 1, body, s => body n (times n body s)

/-- The loop, with a body that may throw. -/
def timesM {m : Type → Type} [Monad m] : ℕ → (ℕ → m Unit) → m Unit
  | 0, _ => pure ()
  | n + 1, body => do
    timesM n body
    body n

end Model

/-! ## What an access does -/

section Accesses

/-- From `h` to `h'`: the blocks, and the faults. -/
structure Becomes (h h' : BlockHeap α) (block' : ℕ → Option (Block α)) (clean : Prop) : Prop where
  block : h'.block = block'
  next : h'.next = h.next
  stray : h'.strays = h.strays
  faults : clean → h'.faults = h.faults

variable {h h' h'' : BlockHeap α} {p : Option ℕ} {b i n : ℕ} {blk : Block α} {block' block'' : ℕ → Option (Block α)}
  {clean clean' : Prop}

theorem Becomes.refl (h : BlockHeap α) : Becomes h h h.block True := ⟨rfl, rfl, rfl, fun _ => rfl⟩

theorem Becomes.trans (h1 : Becomes h h' block' clean) (h2 : Becomes h' h'' block'' clean') :
    Becomes h h'' block'' (clean ∧ clean') :=
  ⟨h2.block, h2.next.trans h1.next, h2.stray.trans h1.stray,
    fun hc => (h2.faults hc.2).trans (h1.faults hc.1)⟩

theorem Becomes.weaken (h1 : Becomes h h' block' clean) (hb : block' = block'') (hc : clean' → clean) :
    Becomes h h' block'' clean' := ⟨h1.block.trans hb, h1.next, h1.stray, fun c => h1.faults (hc c)⟩

/-- A loop whose rounds all return; it works on one half `s` of the state. -/
theorem timesM_returns {ε τ : Type} {n : ℕ} {body : ℕ → EStateM ε (σ × τ) Unit} {f : ℕ → σ → σ} (s : σ) (t : τ)
    (hbody : ∀ i < n, ∀ s, body i (s, t) = .ok () (f i s, t)) : timesM n body (s, t) = .ok () (times n f s, t) := by
  induction n with
  | zero => rfl
  | succ n ih =>
    have hloop := ih fun i hi => hbody i (by omega)
    simp only [timesM, bind, EStateM.bind, hloop, hbody n (Nat.lt_succ_self n)]
    rfl

namespace BlockHeap

@[simp] theorem block_noteIf (h : BlockHeap α) (c : Bool) (f : HeapFault) : (h.noteIf c f).block = h.block := by
  unfold noteIf
  split <;> rfl

@[simp] theorem next_noteIf (h : BlockHeap α) (c : Bool) (f : HeapFault) : (h.noteIf c f).next = h.next := by
  unfold noteIf
  split <;> rfl

theorem becomes_noteIf (h : BlockHeap α) (c : Bool) {f : HeapFault} (hf : f ≠ .outOfBlock) :
    Becomes h (h.noteIf c f) h.block (c = false) := by
  refine ⟨block_noteIf .., next_noteIf .., ?_, ?_⟩
  · unfold noteIf strays
    split
    · exact List.count_cons_of_ne hf
    · rfl
  · rintro rfl
    rfl

theorem blockAt_eq (hb : h.block b = some blk) (hi : i < blk.size) : h.blockAt (some b) i = some (b, blk) := by
  unfold blockAt
  dsimp only
  rw [hb]
  exact if_pos hi

/-- **An access inside a block** changes its slot, and is a fault only if the slot's lifetime says so. -/
theorem becomes_access (bad : Slot α → Bool) {fault : HeapFault} (f : Slot α → Slot α)
    (hfault : fault ≠ .outOfBlock) (hb : h.block b = some blk) (hi : i < blk.size) :
    Becomes h (h.access (some b) i bad fault f)
      (Function.update h.block b (some { blk with slot := Function.update blk.slot i (f (blk.slot i)) }))
      (bad (blk.slot i) = false) := by
  unfold access
  rw [blockAt_eq hb hi]
  have hset : Becomes h (h.setSlot b blk i (f (blk.slot i)))
      (Function.update h.block b (some { blk with slot := Function.update blk.slot i (f (blk.slot i)) })) True :=
    ⟨rfl, rfl, rfl, fun _ => rfl⟩
  exact (hset.trans (becomes_noteIf _ _ hfault)).weaken rfl fun hc => ⟨trivial, hc⟩

theorem becomes_construct (x : Option α) (hb : h.block b = some blk) (hi : i < blk.size) :
    Becomes h (h.construct (some b) i x)
      (Function.update h.block b (some { blk with slot := Function.update blk.slot i ⟨true, x⟩ }))
      ((blk.slot i).constructed = false) :=
  becomes_access _ _ (by decide) hb hi

theorem becomes_assign [ImplicitLifetime α] (x : Option α) (hb : h.block b = some blk) (hi : i < blk.size) :
    Becomes h (h.assign (some b) i x)
      (Function.update h.block b
        (some { blk with slot := Function.update blk.slot i ((blk.slot i).assigned x) }))
      ((blk.slot i).constructed = true) :=
  (becomes_access (!·.constructed) _ (by decide) hb hi).weaken rfl fun hc => by rw [hc]; rfl

/-- An assignment anywhere: it changes the value of one slot, or goes out of every block. -/
theorem block_assign [ImplicitLifetime α] (h : BlockHeap α) (p : Option ℕ) (i : ℕ) (x : Option α) :
    (h.assign p i x).block = h.block ∨ ∃ b blk, p = some b ∧ h.block b = some blk ∧
      (h.assign p i x).block = Function.update h.block b
        (some { blk with slot := Function.update blk.slot i ((blk.slot i).assigned x) }) := by
  cases p with
  | none => exact .inl (block_noteIf ..)
  | some b =>
    cases hb : h.block b with
    | none =>
      left
      unfold assign access blockAt
      dsimp only
      rw [hb]
      exact block_noteIf ..
    | some blk =>
      by_cases hi : i < blk.size
      · exact .inr ⟨b, blk, rfl, hb, (becomes_assign x hb hi).block⟩
      · left
        unfold assign access blockAt
        dsimp only
        rw [hb]
        dsimp only
        rw [if_neg hi]
        exact block_noteIf ..

theorem becomes_destroy (hb : h.block b = some blk) (hi : i < blk.size) :
    Becomes h (h.destroy (some b) i)
      (Function.update h.block b (some { blk with slot := Function.update blk.slot i .raw }))
      ((blk.slot i).constructed = true) :=
  (becomes_access (!·.constructed) _ (by decide) hb hi).weaken rfl fun hc => by rw [hc]; rfl

theorem read_eq (hb : h.block b = some blk) (hi : i < blk.size) :
    (h.read (some b) i).1 = (blk.slot i).value ∧
      Becomes h (h.read (some b) i).2 h.block ((blk.slot i).constructed = true) := by
  unfold read
  rw [blockAt_eq hb hi]
  exact ⟨rfl, (becomes_noteIf _ _ (by decide)).weaken rfl fun hc => by rw [hc]; rfl⟩

/-- **Giving a block back** is right when it has that size and no object is left in it. -/
theorem becomes_free (hb : h.block b = some blk) :
    Becomes h (h.free b n) (Function.update h.block b none)
      (blk.size = n ∧ ∀ i < blk.size, (blk.slot i).constructed = false) := by
  have hdrop : Becomes h { h with block := Function.update h.block b none } (Function.update h.block b none)
      True := ⟨rfl, rfl, rfl, fun _ => rfl⟩
  unfold free
  rw [hb]
  refine ((hdrop.trans (becomes_noteIf _ _ (by decide))).trans (becomes_noteIf _ _ (by decide))).weaken ?_ ?_
  · exact block_noteIf ..
  · rintro ⟨hsize, hraw⟩
    refine ⟨⟨trivial, by simp [hsize]⟩, ?_⟩
    rw [List.any_eq_false]
    intro i hi
    rw [hraw i (List.mem_range.mp hi)]
    decide

end BlockHeap

end Accesses

/-! ## Loops over the slots of a block -/

section Loops

variable {h : BlockHeap α} {b p n : ℕ} {blk pblk : Block α}

@[simp] theorem Block.size_upTo (blk : Block α) (n : ℕ) (f : ℕ → Slot α) : (blk.upTo n f).size = blk.size := rfl

theorem Block.slot_upTo (blk : Block α) (n : ℕ) (f : ℕ → Slot α) (i : ℕ) :
    (blk.upTo n f).slot i = if i < n then f i else blk.slot i := rfl

theorem Block.upTo_zero (blk : Block α) (f : ℕ → Slot α) : blk.upTo 0 f = blk := by
  unfold Block.upTo
  simp

theorem Block.upTo_succ (blk : Block α) (n : ℕ) (f : ℕ → Slot α) :
    { blk.upTo n f with slot := Function.update (blk.upTo n f).slot n (f n) } = blk.upTo (n + 1) f := by
  have hslot : Function.update (blk.upTo n f).slot n (f n) = (blk.upTo (n + 1) f).slot := by
    funext i
    by_cases hi : i = n
    · subst hi
      rw [Function.update_self, Block.slot_upTo, if_pos (Nat.lt_succ_self i)]
    · rw [Function.update_of_ne hi, Block.slot_upTo, Block.slot_upTo]
      by_cases hlt : i < n
      · rw [if_pos hlt, if_pos (by omega)]
      · rw [if_neg hlt, if_neg (by omega)]
  rw [hslot]
  rfl

/-- **Loop rule**: a body that turns slot `i` of block `b` into `f i`, and leaves the other blocks. -/
theorem becomes_times {body : ℕ → BlockHeap α → BlockHeap α} (f : ℕ → Slot α) {ok : ℕ → Prop}
    (hb : h.block b = some blk)
    (hbody : ∀ i < n, ∀ h1 : BlockHeap α, (∀ b' ≠ b, h1.block b' = h.block b') →
      h1.block b = some (blk.upTo i f) →
      Becomes h1 (body i h1)
        (Function.update h1.block b (some { blk.upTo i f with slot := Function.update (blk.upTo i f).slot i (f i) }))
        (ok i)) :
    Becomes h (times n body h) (Function.update h.block b (some (blk.upTo n f))) (∀ i < n, ok i) := by
  induction n with
  | zero =>
    refine (Becomes.refl h).weaken ?_ (fun _ => trivial)
    rw [Block.upTo_zero, ← hb, Function.update_eq_self]
  | succ n ih =>
    have hloop := ih fun i hi => hbody i (by omega)
    have hstep := hbody n (Nat.lt_succ_self n) (times n body h)
      (fun b' hne => by rw [hloop.block, Function.update_of_ne hne])
      (by rw [hloop.block, Function.update_self])
    refine (hloop.trans hstep).weaken ?_ ?_
    · rw [Block.upTo_succ, hloop.block, Function.update_idem]
    · intro hok
      exact ⟨fun i hi => hok i (by omega), hok n (Nat.lt_succ_self n)⟩

/-- Filling a block. -/
theorem becomes_fill (f : ℕ → Option α) (hb : h.block b = some blk) (hn : n ≤ blk.size) :
    Becomes h (times n (fun i h => h.construct (some b) i (f i)) h)
      (Function.update h.block b (some (blk.upTo n fun i => ⟨true, f i⟩)))
      (∀ i < n, (blk.slot i).constructed = false) := by
  refine becomes_times (fun i => ⟨true, f i⟩) hb ?_
  intro i hi h1 _ hb1
  refine (BlockHeap.becomes_construct (f i) hb1 (by rw [Block.size_upTo]; omega)).weaken rfl ?_
  rw [Block.slot_upTo, if_neg (Nat.lt_irrefl i)]
  exact id

/-- Destroying the objects of a block. -/
theorem becomes_destroyAll (hb : h.block b = some blk) (hn : n ≤ blk.size) :
    Becomes h (times n (fun i h => h.destroy (some b) i) h)
      (Function.update h.block b (some (blk.upTo n fun _ => .raw)))
      (∀ i < n, (blk.slot i).constructed = true) := by
  refine becomes_times (fun _ => .raw) hb ?_
  intro i hi h1 _ hb1
  refine (BlockHeap.becomes_destroy hb1 (by rw [Block.size_upTo]; omega)).weaken rfl ?_
  rw [Block.slot_upTo, if_neg (Nat.lt_irrefl i)]
  exact id

/-- Construct in slot `i` behind `dst` a copy of what is in slot `i` behind `src`. -/
def BlockHeap.copySlot (h : BlockHeap α) (dst src : Option ℕ) (i : ℕ) : BlockHeap α :=
  (h.read src i).2.construct dst i (h.read src i).1

theorem becomes_copySlot {i : ℕ} (hp : h.block p = some pblk) (hb : h.block b = some blk)
    (hip : i < pblk.size) (hib : i < blk.size) :
    Becomes h (h.copySlot (some p) (some b) i)
      (Function.update h.block p
        (some { pblk with slot := Function.update pblk.slot i ⟨true, (blk.slot i).value⟩ }))
      ((blk.slot i).constructed = true ∧ (pblk.slot i).constructed = false) := by
  obtain ⟨hval, hread⟩ := BlockHeap.read_eq hb hib
  unfold BlockHeap.copySlot
  rw [hval]
  refine (hread.trans (BlockHeap.becomes_construct _ ?_ hip)).weaken ?_ id
  · rw [hread.block]
    exact hp
  · rw [hread.block]

/-- Copying the objects of block `b` into block `p`. -/
theorem becomes_copyAll (hne : p ≠ b) (hp : h.block p = some pblk) (hb : h.block b = some blk)
    (hnp : n ≤ pblk.size) (hnb : n ≤ blk.size) :
    Becomes h (times n (fun i h => h.copySlot (some p) (some b) i) h)
      (Function.update h.block p (some (pblk.upTo n fun i => ⟨true, (blk.slot i).value⟩)))
      (∀ i < n, (blk.slot i).constructed = true ∧ (pblk.slot i).constructed = false) := by
  refine becomes_times (fun i => ⟨true, (blk.slot i).value⟩) hp ?_
  intro i hi h1 hother hp1
  have hb1 : h1.block b = some blk := by rw [hother b hne.symm, hb]
  refine (becomes_copySlot hp1 hb1 (by rw [Block.size_upTo]; omega) (by omega)).weaken rfl ?_
  rw [Block.slot_upTo, if_neg (Nat.lt_irrefl i)]
  exact id

/-- Moving them there: each object is destroyed once its copy exists. -/
theorem becomes_moveAll (hne : p ≠ b) (hp : h.block p = some pblk) (hb : h.block b = some blk)
    (hnp : n ≤ pblk.size) (hnb : n ≤ blk.size) :
    Becomes h (times n (fun i h => (h.copySlot (some p) (some b) i).destroy (some b) i) h)
      (Function.update (Function.update h.block p (some (pblk.upTo n fun i => ⟨true, (blk.slot i).value⟩)))
        b (some (blk.upTo n fun _ => .raw)))
      (∀ i < n, (blk.slot i).constructed = true ∧ (pblk.slot i).constructed = false) := by
  induction n with
  | zero =>
    refine (Becomes.refl h).weaken ?_ (fun _ => trivial)
    rw [Block.upTo_zero, Block.upTo_zero, ← hp, Function.update_eq_self, ← hb, Function.update_eq_self]
  | succ n ih =>
    have hloop := ih (by omega) (by omega)
    set h1 := times n (fun i h => (h.copySlot (some p) (some b) i).destroy (some b) i) h
    -- both blocks as the loop has left them
    have hp1 : h1.block p = some (pblk.upTo n fun i => ⟨true, (blk.slot i).value⟩) := by
      rw [hloop.block, Function.update_of_ne hne, Function.update_self]
    have hb1 : h1.block b = some (blk.upTo n fun _ => .raw) := by
      rw [hloop.block, Function.update_self]
    have hltp : n < (pblk.upTo n fun i => (⟨true, (blk.slot i).value⟩ : Slot α)).size := by
      rw [Block.size_upTo]
      omega
    have hlt : n < (blk.upTo n fun _ => .raw).size := by
      rw [Block.size_upTo]
      omega
    have hcopy := becomes_copySlot hp1 hb1 hltp hlt
    have hslot : (blk.upTo n fun _ => .raw).slot n = blk.slot n := by
      rw [Block.slot_upTo, if_neg (Nat.lt_irrefl n)]
    have hpslot : (pblk.upTo n fun i => (⟨true, (blk.slot i).value⟩ : Slot α)).slot n = pblk.slot n := by
      rw [Block.slot_upTo, if_neg (Nat.lt_irrefl n)]
    rw [hslot, hpslot, Block.upTo_succ] at hcopy
    have hb2 : (h1.copySlot (some p) (some b) n).block b = some (blk.upTo n fun _ => .raw) := by
      rw [hcopy.block, Function.update_of_ne hne.symm, hb1]
    have hdestroy := BlockHeap.becomes_destroy hb2 hlt
    rw [hslot, Block.upTo_succ] at hdestroy
    refine ((hloop.trans hcopy).trans hdestroy).weaken ?_ ?_
    · rw [hcopy.block, hloop.block]
      funext b'
      by_cases hb' : b' = b
      · rw [hb', Function.update_self, Function.update_self]
      · rw [Function.update_of_ne hb', Function.update_of_ne hb']
        by_cases hp' : b' = p
        · rw [hp', Function.update_self, Function.update_self]
        · rw [Function.update_of_ne hp', Function.update_of_ne hp', Function.update_of_ne hb',
            Function.update_of_ne hp']
    · intro hok
      have hlast := hok n (Nat.lt_succ_self n)
      exact ⟨⟨fun i hi => hok i (by omega), hlast⟩, hlast.1⟩

end Loops

end Journey
