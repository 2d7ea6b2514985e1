import Mathlib.Tactic.Ring
import Mathlib.Algebra.Order.Ring.Nat
import Mathlib.Order.Compare
import Mathlib.Data.List.Induction

/-!
# Journey.Lib.Positional — numbers written in a base, the highest digit first

Nothing here knows a program.

* `positional`: the number that a list of digits denotes.
* `positional_take`: the leading digits denote a quotient.
* `compareLex_positional`: digit lists of one length are ordered as their numbers.
* `compareLex_take_drop`: a lexicographic comparison, cut at any place that both lists have.
-/

namespace Journey

section Positional

variable {α : Type*} {base : ℕ} {digit : α → ℕ}

/-- The number that the digits denote. -/
def positional (base : ℕ) (digit : α → ℕ) (ds : List α) : ℕ := ds.foldl (fun n d => base * n + digit d) 0

@[simp] theorem positional_nil : positional base digit [] = 0 := rfl

theorem positional_concat (ds : List α) (d : α) :
    positional base digit (ds ++ [d]) = base * positional base digit ds + digit d := by
  simp [positional]

theorem positional_append (ds es : List α) :
    positional base digit (ds ++ es) = positional base digit ds * base ^ es.length + positional base digit es := by
  induction es using List.reverseRecOn with
  | nil => simp
  | append_singleton es e ih =>
    rw [← List.append_assoc, positional_concat, positional_concat, ih, List.length_append, List.length_singleton, pow_succ]
    ring

theorem positional_cons (d : α) (ds : List α) :
    positional base digit (d :: ds) = digit d * base ^ ds.length + positional base digit ds := by
  rw [← List.singleton_append, positional_append]
  simp [positional]

theorem positional_lt {ds : List α} (h : ∀ d ∈ ds, digit d < base) : positional base digit ds < base ^ ds.length := by
  induction ds with
  | nil => simp
  | cons d ds ih =>
    have hd := h d (by simp)
    have hds := ih fun e he => h e (by simp [he])
    rw [positional_cons, List.length_cons, pow_succ]
    calc digit d * base ^ ds.length + positional base digit ds
        < digit d * base ^ ds.length + base ^ ds.length := by omega
      _ = (digit d + 1) * base ^ ds.length := by ring
      _ ≤ base * base ^ ds.length := Nat.mul_le_mul_right _ hd
      _ = base ^ ds.length * base := by ring

/-- The leading digits denote the quotient. -/
theorem positional_take {ds : List α} (h : ∀ d ∈ ds, digit d < base) (m : ℕ) :
    positional base digit (ds.take m) = positional base digit ds / base ^ (ds.length - m) := by
  have hlt : positional base digit (ds.drop m) < base ^ (ds.drop m).length :=
    positional_lt fun d hd => h d (List.mem_of_mem_drop hd)
  rw [List.length_drop] at hlt
  conv_rhs => rw [← List.take_append_drop m ds, positional_append, List.length_drop, List.take_append_drop]
  rw [Nat.mul_comm, Nat.mul_add_div (by omega), Nat.div_eq_of_lt hlt, Nat.add_zero]

end Positional

section Lexicographic

variable {α : Type*} {cmp : α → α → Ordering} {base : ℕ} {digit : α → ℕ}

/-- A lexicographic comparison, cut behind the first `m` places. -/
theorem compareLex_take_drop : ∀ {m : ℕ} {xs ys : List α}, m ≤ xs.length → m ≤ ys.length →
    List.compareLex cmp xs ys =
      (List.compareLex cmp (xs.take m) (ys.take m)).then (List.compareLex cmp (xs.drop m) (ys.drop m))
  | 0, xs, ys, _, _ => by simp [List.compareLex_nil_nil]
  | m + 1, x :: xs, y :: ys, hx, hy => by
    have hm : m ≤ xs.length := by simpa using hx
    have ih := compareLex_take_drop hm (by simpa using hy : m ≤ ys.length)
    simp only [List.take_succ_cons, List.drop_succ_cons, List.compareLex_cons_cons, ih]
    cases cmp x y <;> rfl

/-- **Digit lists of one length are ordered as their numbers.** -/
theorem compareLex_positional : ∀ {xs ys : List α}, xs.length = ys.length →
    (∀ x ∈ xs, ∀ y ∈ ys, cmp x y = compare (digit x) (digit y)) → (∀ x ∈ xs, digit x < base) →
    (∀ y ∈ ys, digit y < base) →
    List.compareLex cmp xs ys = compare (positional base digit xs) (positional base digit ys)
  | [], [], _, _, _, _ => by simp [List.compareLex_nil_nil]
  | x :: xs, y :: ys, hlen, hcmp, hx, hy => by
    have hlen' : xs.length = ys.length := by simpa using hlen
    have ih := compareLex_positional hlen' (fun a ha b hb => hcmp a (by simp [ha]) b (by simp [hb]))
      (fun a ha => hx a (by simp [ha])) fun b hb => hy b (by simp [hb])
    have hxs : positional base digit xs < base ^ xs.length := positional_lt fun a ha => hx a (by simp [ha])
    have hys : positional base digit ys < base ^ ys.length := positional_lt fun b hb => hy b (by simp [hb])
    rw [List.compareLex_cons_cons, hcmp x (by simp) y (by simp), ih, positional_cons, positional_cons, hlen']
    rw [hlen'] at hxs
    -- the first digit outweighs all that follow
    rcases Nat.lt_trichotomy (digit x) (digit y) with hlt | heq | hgt
    · have hmul := Nat.mul_le_mul_right (base ^ ys.length) hlt
      rw [Nat.succ_mul] at hmul
      have hvalue : digit x * base ^ ys.length + positional base digit xs <
          digit y * base ^ ys.length + positional base digit ys := by omega
      rw [Nat.compare_eq_lt.mpr hlt, Nat.compare_eq_lt.mpr hvalue]
      rfl
    · rw [heq, Nat.compare_eq_eq.mpr rfl]
      simp only [Nat.compare_eq_ite_lt, Nat.add_lt_add_iff_left, Ordering.then]
    · have hmul := Nat.mul_le_mul_right (base ^ ys.length) hgt
      rw [Nat.succ_mul] at hmul
      have hvalue : digit y * base ^ ys.length + positional base digit ys <
          digit x * base ^ ys.length + positional base digit xs := by omega
      rw [Nat.compare_eq_gt.mpr hgt, Nat.compare_eq_gt.mpr hvalue]
      rfl

end Lexicographic

end Journey
