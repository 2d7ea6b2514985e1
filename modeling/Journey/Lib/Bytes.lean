import Mathlib.Tactic.Common
import Mathlib.Tactic.Ring
import Mathlib.Data.Nat.Basic

/-!
# Journey.Lib.Bytes — little-endian words and byte memory

Nothing here knows a program.

* `toLE k n` / `ofLE bs`: the `k` bytes of `n`, least significant first, and back (`ofLE_toLE`).
* `Mem`: a byte-addressed memory; `store` and `load` copy a block in and out of it.
* `readU` / `writeU`: an unsigned word of `k` bytes at an address.
* `Apart a n b k`: two blocks that share no byte.  Every frame lemma has exactly one such side
  condition, so a single `rw` discharges it.
-/

namespace Journey

/-! ## Little-endian words -/

section LittleEndian

/-- The `k` low bytes of `n`, least significant first. -/
def toLE : ℕ → ℕ → List UInt8
  | 0, _ => []
  | k + 1, n => UInt8.ofNat n :: toLE k (n / 256)

/-- The number whose little-endian bytes are given. -/
def ofLE : List UInt8 → ℕ
  | [] => 0
  | b :: bs => b.toNat + 256 * ofLE bs

@[simp] theorem length_toLE : ∀ k n : ℕ, (toLE k n).length = k
  | 0, _ => rfl
  | k + 1, n => by simp [toLE, length_toLE k]

theorem ofLE_toLE : ∀ k n : ℕ, ofLE (toLE k n) = n % 256 ^ k
  | 0, n => by simp [toLE, ofLE, Nat.mod_one]
  | k + 1, n => by
    have hb : (UInt8.ofNat n).toNat = n % 256 := by simp
    have hpow : 256 ^ (k + 1) = 256 * 256 ^ k := by ring
    simp only [toLE, ofLE, ofLE_toLE k, hb]
    rw [hpow, Nat.mod_mul]

theorem ofLE_toLE_of_lt {k n : ℕ} (h : n < 256 ^ k) : ofLE (toLE k n) = n := by
  rw [ofLE_toLE, Nat.mod_eq_of_lt h]

theorem ofLE_lt : ∀ bs : List UInt8, ofLE bs < 256 ^ bs.length
  | [] => by simp [ofLE]
  | b :: bs => by
    have hb := b.toNat_lt
    have hbs := ofLE_lt bs
    have hpow : 256 ^ (b :: bs).length = 256 * 256 ^ bs.length := by
      simp only [List.length_cons]
      ring
    simp only [ofLE, hpow]
    omega

end LittleEndian

/-! ## Memory -/

section Memory

/-- A byte-addressed memory. -/
abbrev Mem := ℕ → UInt8

/-- The blocks `[a, a + n)` and `[b, b + k)` have no byte in common. -/
def Apart (a n b k : ℕ) : Prop := a + n ≤ b ∨ b + k ≤ a ∨ n = 0 ∨ k = 0

instance (a n b k : ℕ) : Decidable (Apart a n b k) :=
  inferInstanceAs (Decidable (a + n ≤ b ∨ b + k ≤ a ∨ n = 0 ∨ k = 0))

theorem Apart.symm {a n b k : ℕ} (h : Apart a n b k) : Apart b k a n := by
  unfold Apart at *
  omega

/-- Copy the bytes `bs` to the addresses `a, a + 1, ..` (`memcpy(m + a, bs)`). -/
def store (m : Mem) (a : ℕ) (bs : List UInt8) : Mem :=
  fun i => if a ≤ i then (bs[i - a]?).getD (m i) else m i

/-- The `n` bytes from address `a` on. -/
def load (m : Mem) (a : ℕ) : ℕ → List UInt8
  | 0 => []
  | n + 1 => m a :: load m (a + 1) n

variable {m m' : Mem} {a b n k : ℕ} {bs : List UInt8}

theorem store_apart {i : ℕ} (h : i < a ∨ a + bs.length ≤ i) : store m a bs i = m i := by
  unfold store
  split_ifs with hi
  · have hlen : bs.length ≤ i - a := by omega
    rw [List.getElem?_eq_none hlen, Option.getD_none]
  · rfl

theorem store_inside {i : ℕ} (h : i < bs.length) : store m a bs (a + i) = bs[i] := by
  unfold store
  have hi : a + i - a = i := by omega
  rw [if_pos (by omega), hi, List.getElem?_eq_getElem h, Option.getD_some]

@[simp] theorem length_load : ∀ (n a : ℕ), (load m a n).length = n
  | 0, _ => rfl
  | n + 1, a => by simp [load, length_load n]

theorem getElem_load : ∀ (n a : ℕ) (i : ℕ) (h : i < (load m a n).length), (load m a n)[i] = m (a + i)
  | 0, _, i, h => by simp [load] at h
  | n + 1, a, 0, _ => rfl
  | n + 1, a, i + 1, h => by
    have hi : i < (load m (a + 1) n).length := by simpa [load] using h
    have hrec := getElem_load n (a + 1) i hi
    have hadd : a + 1 + i = a + (i + 1) := by omega
    simpa [load, hadd] using hrec

/-- Two memories that agree on a block load the same bytes. -/
theorem load_congr (h : ∀ i, a ≤ i → i < a + n → m i = m' i) : load m a n = load m' a n := by
  refine List.ext_getElem (by simp) ?_
  intro i hi _
  rw [getElem_load, getElem_load]
  rw [length_load] at hi
  exact h (a + i) (by omega) (by omega)

/-- **Read after write**: the block just stored. -/
@[simp] theorem load_store : load (store m a bs) a bs.length = bs := by
  refine List.ext_getElem (by simp) ?_
  intro i _ hi
  rw [getElem_load, store_inside hi]

/-- **Frame**: a block apart from the one stored. -/
theorem load_store_apart (h : Apart a bs.length b k) : load (store m a bs) b k = load m b k := by
  refine load_congr ?_
  intro i hb hk
  refine store_apart ?_
  unfold Apart at h
  omega

/-- A stored block read back through a larger one keeps what lies before it. -/
theorem load_append (n k : ℕ) : load m a (n + k) = load m a n ++ load m (a + n) k := by
  refine List.ext_getElem (by simp) ?_
  intro i h1 h2
  rw [getElem_load, List.getElem_append]
  split_ifs with hi
  · rw [getElem_load]
  · rw [getElem_load]
    rw [length_load] at hi ⊢
    congr 1
    omega

end Memory

/-! ## Words in memory -/

section Words

/-- The unsigned `k`-byte word at address `a`. -/
def readU (m : Mem) (a k : ℕ) : ℕ := ofLE (load m a k)

/-- Write the `k` low bytes of `n` at address `a`. -/
def writeU (m : Mem) (a k n : ℕ) : Mem := store m a (toLE k n)

variable {m : Mem} {a b n k l : ℕ} {bs : List UInt8}

theorem readU_lt (m : Mem) (a k : ℕ) : readU m a k < 256 ^ k := by
  have h := ofLE_lt (load m a k)
  rwa [length_load] at h

theorem readU_congr {m' : Mem} (h : ∀ i, a ≤ i → i < a + k → m i = m' i) :
    readU m a k = readU m' a k := by
  unfold readU
  rw [load_congr h]

theorem readU_writeU : readU (writeU m a k n) a k = n % 256 ^ k := by
  have h : load (store m a (toLE k n)) a k = toLE k n := by
    have hself : load (store m a (toLE k n)) a (toLE k n).length = toLE k n := load_store
    rwa [length_toLE] at hself
  unfold readU writeU
  rw [h, ofLE_toLE]

theorem readU_store_apart (h : Apart a bs.length b k) : readU (store m a bs) b k = readU m b k := by
  unfold readU
  rw [load_store_apart h]

theorem load_writeU_apart (h : Apart a k b l) : load (writeU m a k n) b l = load m b l := by
  unfold writeU
  exact load_store_apart (by rwa [length_toLE])

theorem readU_writeU_apart (h : Apart a k b l) : readU (writeU m a k n) b l = readU m b l := by
  unfold readU
  rw [load_writeU_apart h]

theorem writeU_apart {i : ℕ} (h : i < a ∨ a + k ≤ i) : writeU m a k n i = m i := by
  unfold writeU
  exact store_apart (by rwa [length_toLE])

/-! Fixed-width fields: the machine types the words of a record are read as. -/

def readU16 (m : Mem) (a : ℕ) : UInt16 := UInt16.ofNat (readU m a 2)

def writeU16 (m : Mem) (a : ℕ) (x : UInt16) : Mem := writeU m a 2 x.toNat

def readI32 (m : Mem) (a : ℕ) : Int32 := (UInt32.ofNat (readU m a 4)).toInt32

def writeI32 (m : Mem) (a : ℕ) (x : Int32) : Mem := writeU m a 4 x.toUInt32.toNat

def readI64 (m : Mem) (a : ℕ) : Int64 := (UInt64.ofNat (readU m a 8)).toInt64

def writeI64 (m : Mem) (a : ℕ) (x : Int64) : Mem := writeU m a 8 x.toUInt64.toNat

@[simp] theorem readU16_writeU16 (m : Mem) (a : ℕ) (x : UInt16) : readU16 (writeU16 m a x) a = x := by
  have hx : x.toNat % 256 ^ 2 = x.toNat := Nat.mod_eq_of_lt x.toNat_lt
  unfold readU16 writeU16
  rw [readU_writeU, hx, UInt16.ofNat_toNat]

@[simp] theorem readI32_writeI32 (m : Mem) (a : ℕ) (x : Int32) : readI32 (writeI32 m a x) a = x := by
  have hx : x.toUInt32.toNat % 256 ^ 4 = x.toUInt32.toNat := Nat.mod_eq_of_lt x.toUInt32.toNat_lt
  unfold readI32 writeI32
  rw [readU_writeU, hx, UInt32.ofNat_toNat]
  simp

@[simp] theorem readI64_writeI64 (m : Mem) (a : ℕ) (x : Int64) : readI64 (writeI64 m a x) a = x := by
  have hx : x.toUInt64.toNat % 256 ^ 8 = x.toUInt64.toNat := Nat.mod_eq_of_lt x.toUInt64.toNat_lt
  unfold readI64 writeI64
  rw [readU_writeU, hx, UInt64.ofNat_toNat]
  simp

theorem int32_ofNat_not_neg {n : ℕ} (h : n < 2 ^ 31) : ¬ Int32.ofNat n < 0 := by
  rw [Int32.lt_iff_toInt_lt, Int32.toInt_ofNat_of_lt h]
  exact Int.not_lt.mpr (Int.natCast_nonneg n)

end Words

end Journey
