import Mathlib.Data.List.AList

/-!
# Journey.Lib.Maps — hash maps

Nothing here knows a program.  A `std::unordered_map` is an association list without duplicate keys; the order
of its entries is the order of iteration.

* `UnorderedMap.emplace`: insertion that keeps what is there.
* `lookup_emplace`, `lookup_insert_eq`, `lookup_erase_eq`: lookups after a change, in one equation each.
-/

namespace Journey

/-- A `std::unordered_map`, iterated over in the order of its entries. -/
abbrev UnorderedMap (κ ν : Type) := AList fun _ : κ => ν

/-- `emplace`: nothing happens if the key is there. -/
def UnorderedMap.emplace {κ ν : Type} [DecidableEq κ] (m : UnorderedMap κ ν) (key : κ) (value : ν) :
    UnorderedMap κ ν :=
  if key ∈ m then m else m.insert key value

variable {κ ν : Type} [DecidableEq κ]

theorem lookup_insert_eq (m : UnorderedMap κ ν) (key : κ) (value : ν) (key' : κ) :
    (m.insert key value).lookup key' = if key' = key then some value else m.lookup key' := by
  split_ifs with heq
  · rw [heq, AList.lookup_insert]
  · rw [AList.lookup_insert_ne heq]

theorem lookup_emplace {m : UnorderedMap κ ν} {key : κ} (value : ν) (h : key ∉ m) (key' : κ) :
    (m.emplace key value).lookup key' = if key' = key then some value else m.lookup key' := by
  unfold UnorderedMap.emplace
  rw [if_neg h]
  exact lookup_insert_eq m key value key'

theorem mem_of_lookup {m : UnorderedMap κ ν} {key : κ} {value : ν} (h : m.lookup key = some value) : key ∈ m := by
  rw [← AList.lookup_isSome, h]
  rfl

theorem lookup_erase_eq (m : UnorderedMap κ ν) (key key' : κ) :
    (m.erase key).lookup key' = if key' = key then none else m.lookup key' := by
  split_ifs with heq
  · rw [heq, AList.lookup_erase]
  · rw [AList.lookup_erase_ne heq]

end Journey
