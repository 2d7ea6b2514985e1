import Journey.Lib.Bytes
import Mathlib.Algebra.Order.BigOperators.Group.List

/-!
# Journey.Lib.Buffer — buffers of a fixed size, and blocks laid out one after another

Nothing here knows a program.

* `readAt`, `Buffer.write`: access to a buffer that fails outside it; `Buffer.write_spec` is read after
  write with its frame.
* `offsetOf sizes i`: where the `i`-th of the blocks of the given sizes begins, when each begins where
  the one before it ends; `blocks_apart` and `block_end_le` are what such a layout gives.
-/

namespace Journey

/-! ## Buffers -/

section Buffers

/-- A buffer of `n` bytes. -/
abbrev Buffer (n : ℕ) := { bytes : List UInt8 // bytes.length = n }

/-- A buffer of zeros. -/
def Buffer.zeros (n : ℕ) : Buffer n := ⟨List.replicate n 0, List.length_replicate ..⟩

/-- The memory that begins with the given bytes. -/
def ofBytes (bytes : List UInt8) : Mem := fun i => bytes[i]?.getD 0

/-- The `k` bytes from offset `a` on, if they all lie in the buffer. -/
def readAt (bytes : List UInt8) (a k : ℕ) : Option (List UInt8) :=
  if a + k ≤ bytes.length then some (load (ofBytes bytes) a k) else none

/-- Copy `bs` to offset `a`, if all of it lies in the buffer. -/
def Buffer.write {n : ℕ} (buf : Buffer n) (a : ℕ) (bs : List UInt8) : Option (Buffer n) :=
  if a + bs.length ≤ n then some ⟨load (store (ofBytes buf.1) a bs) 0 n, length_load ..⟩ else none

variable {n a b k l : ℕ} {bytes bs cs : List UInt8} {m : Mem}

theorem ofBytes_load {i : ℕ} (h : i < n) : ofBytes (load m 0 n) i = m i := by
  have hi : i < (load m 0 n).length := by rwa [length_load]
  unfold ofBytes
  rw [List.getElem?_eq_getElem hi, Option.getD_some, getElem_load, Nat.zero_add]

theorem readAt_of_le (h : a + k ≤ bytes.length) : readAt bytes a k = some (load (ofBytes bytes) a k) :=
  if_pos h

theorem readAt_eq_some (h : readAt bytes a k = some bs) :
    a + k ≤ bytes.length ∧ load (ofBytes bytes) a k = bs := by
  unfold readAt at h
  split_ifs at h with hle
  exact ⟨hle, Option.some.inj h⟩

/-- Both parts of a block. -/
theorem readAt_append (h : readAt bytes a (bs.length + k) = some (bs ++ cs)) :
    readAt bytes a bs.length = some bs ∧ readAt bytes (a + bs.length) k = some cs := by
  obtain ⟨hle, hload⟩ := readAt_eq_some h
  rw [load_append] at hload
  obtain ⟨h1, h2⟩ := List.append_inj hload (length_load ..)
  rw [readAt_of_le (by omega), readAt_of_le (by omega), h1, h2]
  exact ⟨rfl, rfl⟩

/-- **Read after write**, and **frame**. -/
theorem Buffer.write_spec (buf : Buffer n) (h : a + bs.length ≤ n) :
    ∃ buf', buf.write a bs = some buf' ∧ readAt buf'.1 a bs.length = some bs ∧
      ∀ b k, Apart a bs.length b k → readAt buf'.1 b k = readAt buf.1 b k := by
  refine ⟨_, if_pos h, ?_, ?_⟩
  · rw [readAt_of_le (by rwa [length_load]),
      load_congr (fun i _ hi => ofBytes_load (by omega)), load_store]
  · intro b k hap
    unfold readAt
    rw [length_load, buf.2]
    split_ifs with hb
    · rw [load_congr (fun i _ hi => ofBytes_load (by omega)), load_store_apart hap]
    · rfl

end Buffers

/-! ## Blocks one after another -/

section Blocks

/-- Where block `i` begins. -/
def offsetOf (sizes : List ℕ) (i : ℕ) : ℕ := (sizes.take i).sum

variable {sizes : List ℕ} {i j n k : ℕ}

theorem offsetOf_length (sizes : List ℕ) : offsetOf sizes sizes.length = sizes.sum := by
  unfold offsetOf
  rw [List.take_length]

theorem offsetOf_succ (h : sizes[i]? = some n) : offsetOf sizes (i + 1) = offsetOf sizes i + n := by
  unfold offsetOf
  rw [List.take_add_one, h, List.sum_append, Option.toList_some, List.sum_singleton]

theorem offsetOf_mono (sizes : List ℕ) (h : i ≤ j) : offsetOf sizes i ≤ offsetOf sizes j := by
  obtain ⟨d, rfl⟩ := Nat.exists_eq_add_of_le h
  unfold offsetOf
  rw [List.take_add, List.sum_append]
  exact Nat.le_add_right _ _

/-- Every block ends before the total size. -/
theorem block_end_le (h : sizes[i]? = some n) : offsetOf sizes i + n ≤ sizes.sum := by
  have hi := (List.getElem?_eq_some_iff.mp h).1
  have hle := offsetOf_mono sizes (show i + 1 ≤ sizes.length from hi)
  rwa [offsetOf_succ h, offsetOf_length] at hle

/-- **Two blocks share no byte.** -/
theorem blocks_apart (hi : sizes[i]? = some n) (hj : sizes[j]? = some k) (hij : i ≠ j) :
    Apart (offsetOf sizes i) n (offsetOf sizes j) k := by
  unfold Apart
  rcases Nat.lt_or_gt_of_ne hij with h | h
  · have hle := offsetOf_mono sizes (show i + 1 ≤ j from h)
    rw [offsetOf_succ hi] at hle
    exact .inl hle
  · have hle := offsetOf_mono sizes (show j + 1 ≤ i from h)
    rw [offsetOf_succ hj] at hle
    exact .inr (.inl hle)

theorem offsetOf_append_of_le (h : i ≤ sizes.length) (l : List ℕ) :
    offsetOf (sizes ++ l) i = offsetOf sizes i := by
  unfold offsetOf
  rw [List.take_append_of_le_length h]

/-- Blocks selected at most once each take no more room than all of them. -/
theorem sum_selected_le {ks : List ℕ} (hnodup : ks.Nodup) (hlt : ∀ k ∈ ks, k < sizes.length) :
    (ks.map fun k => sizes[k]?.getD 0).sum ≤ sizes.sum := by
  have hall : (List.range sizes.length).map (fun k => sizes[k]?.getD 0) = sizes := by
    refine List.ext_getElem (by simp) ?_
    intro i h1 h2
    simp [h2]
  obtain ⟨l, hperm, hsub⟩ := List.subperm_of_subset hnodup fun k hk => List.mem_range.mpr (hlt k hk)
  calc (ks.map fun k => sizes[k]?.getD 0).sum
      = (l.map fun k => sizes[k]?.getD 0).sum := (hperm.map _).sum_eq.symm
    _ ≤ ((List.range sizes.length).map fun k => sizes[k]?.getD 0).sum :=
        (hsub.map _).sum_le_sum fun _ _ => Nat.zero_le _
    _ = sizes.sum := by rw [hall]

end Blocks

end Journey
