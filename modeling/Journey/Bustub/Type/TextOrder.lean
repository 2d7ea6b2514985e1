import Journey.Lib.Positional
import Journey.Bustub.Type.Compare
import Journey.Bustub.Type.IntegerCasts

/-!
# Journey.Bustub.Type.TextOrder — numbers against strings, as numbers and as texts

A string that is read as a number stands to a number in two orders: the one of the numbers and the one of the texts.

* `NumberAlike`, `BooleanAlike`: what the two orders agree on, said of the number, and of the sign, the digits and the
  length of the string.
* `compareLex_decimalDigits`: the text of a number against a string, by quotients of the numbers.
* `number_alike_iff`, `boolean_alike_iff`: the two orders agree exactly there.
-/

namespace Journey.SqlType

/-! ## The conditions -/

section Conditions

/-- The number that a string is cast to: what it reads as, cut to the width of the type. -/
def readAs (t : IntType) (s : List UInt8) : Int := wrap t.bits ((numeral s).getD 0)

/-- The leading digits are the same; `l` digits in the number, `k` in the string, and what follows them there.  The
shorter text is the lesser one, unless the string goes on with a byte behind the digits. -/
def RestAlike (n c : Int) (l k : ℕ) (rest : List UInt8) : Prop :=
  if l < k then n < c
  else if l = k then (if rest = [] then n = c else n < c)
  else if rest.head?.any (57 < ·) then n < c else c < n

/-- The digits of the number against the digits that the string begins with, as many as both have. -/
def DigitsAlike (n c : Int) (s : List UInt8) : Prop :=
  if n.natAbs / 10 ^ ((Nat.toDigits 10 n.natAbs).length - (s.takeWhile isDigit).length) <
      ofDigits (s.takeWhile isDigit) / 10 ^ ((s.takeWhile isDigit).length - (Nat.toDigits 10 n.natAbs).length) then
    n < c
  else if ofDigits (s.takeWhile isDigit) / 10 ^ ((s.takeWhile isDigit).length - (Nat.toDigits 10 n.natAbs).length) <
      n.natAbs / 10 ^ ((Nat.toDigits 10 n.natAbs).length - (s.takeWhile isDigit).length) then c < n
  else RestAlike n c (Nat.toDigits 10 n.natAbs).length (s.takeWhile isDigit).length (s.dropWhile isDigit)

/-- **A number and a string that is read as `c`**: the sign in front of the string, or the blank or the plus, then its
digits. -/
def NumberAlike (n c : Int) (s : List UInt8) : Prop :=
  if s.head?.any isDigit then (if n < 0 then n < c else DigitsAlike n c s)
  else if s.head? = some 45 then (if n < 0 then DigitsAlike n c s.tail else c < n)
  else c < n

/-- The string is cast to `true`. -/
def ReadsTrue (s : List UInt8) : Prop := s.map toLower ∈ [ascii "true", ascii "1", ascii "t"]

instance (s : List UInt8) : Decidable (ReadsTrue s) := inferInstanceAs (Decidable (_ ∈ _))

/-- The string is cast to `false`. -/
def ReadsFalse (s : List UInt8) : Prop := s.map toLower ∈ [ascii "false", ascii "0", ascii "f"]

/-- **A boolean and a string that is read as one.**  The text of a payload that is neither 0 nor 1 begins with `b`. -/
def BooleanAlike (i : Int8) (s : List UInt8) : Prop :=
  if i = 1 then (ReadsTrue s → s = ascii "true")
  else if i = 0 then (if ReadsTrue s then s.head? = some 116 else s = ascii "false")
  else (s.head? = some 102 ∨ s.head? = some 116 ↔ i.toInt < 0)

instance (n c : Int) (l k : ℕ) (rest : List UInt8) : Decidable (RestAlike n c l k rest) :=
  inferInstanceAs (Decidable (ite _ _ _))

instance (n c : Int) (s : List UInt8) : Decidable (DigitsAlike n c s) := inferInstanceAs (Decidable (ite _ _ _))

instance (n c : Int) (s : List UInt8) : Decidable (NumberAlike n c s) := inferInstanceAs (Decidable (ite _ _ _))

instance (i : Int8) (s : List UInt8) : Decidable (BooleanAlike i s) := inferInstanceAs (Decidable (ite _ _ _))

end Conditions

/-! ## Texts of numbers -/

section Texts

variable {n c : Int} {s : List UInt8}

/-- The decimal digits. -/
def decimalDigits (n : ℕ) : List UInt8 := (Nat.toDigits 10 n).map fun c => UInt8.ofNat c.toNat

theorem decimalDigits_eq_ascii (n : ℕ) : ascii (toString n) = decimalDigits n := by
  rw [ascii, Nat.toString_eq_repr, Nat.toList_repr]
  rfl

theorem length_decimalDigits (n : ℕ) : (decimalDigits n).length = (Nat.toDigits 10 n).length := List.length_map _

theorem decimalDigits_pos (n : ℕ) : 0 < (decimalDigits n).length := by
  rw [length_decimalDigits]
  exact Nat.length_toDigits_pos

/-- The decimal digits denote the number. -/
theorem isDigit_decimalDigits (n : ℕ) : (∀ b ∈ decimalDigits n, isDigit b = true) ∧ ofDigits (decimalDigits n) = n := by
  have hpos : 0 < (Nat.toDigits 10 n).length := Nat.length_toDigits_pos
  have hlt : n < 10 ^ (Nat.toDigits 10 n).length := (Nat.length_toDigits_le_iff (by omega) hpos).mp le_rfl
  have hpadded : padded (Nat.toDigits 10 n).length n = decimalDigits n := by
    rw [padded_eq, Nat.sub_self]
    rfl
  obtain ⟨hdigits, hvalue⟩ := padded_digits hpos hlt
  rw [hpadded] at hdigits hvalue
  exact ⟨hdigits.digits, hvalue⟩

theorem intText_of_nonneg (h : 0 ≤ n) : intText n = decimalDigits n.natAbs := by
  obtain ⟨k, rfl⟩ := Int.eq_ofNat_of_zero_le h
  exact decimalDigits_eq_ascii k

theorem intText_of_neg (h : n < 0) : intText n = 45 :: decimalDigits n.natAbs := by
  obtain ⟨k, rfl⟩ := Int.eq_negSucc_of_lt_zero h
  rw [← decimalDigits_eq_ascii]
  show ascii ("-" ++ toString (k + 1)) = _
  simp [ascii]

/-- No number has a text too long for a `VARCHAR`. -/
theorem length_intText_le (h : Fits 64 n) : (intText n).length ≤ 20 := by
  have hlt : n.natAbs < 10 ^ 19 := by
    unfold Fits at h
    omega
  have hdigits : (decimalDigits n.natAbs).length ≤ 19 := by
    rw [length_decimalDigits]
    exact (Nat.length_toDigits_le_iff (by omega) (by omega)).mpr hlt
  by_cases hneg : n < 0
  · rw [intText_of_neg hneg, List.length_cons]
    omega
  · rw [intText_of_nonneg (by omega)]
    omega

theorem varlenOf_short {bytes : List UInt8} (h : bytes.length < 2 ^ 32 - 1) : varlenOf bytes = some ⟨bytes, h⟩ := by
  have hkept : bytes.take (bytes.length % 2 ^ 32) = bytes := by
    rw [Nat.mod_eq_of_lt (by omega), List.take_length]
  unfold varlenOf
  dsimp only
  rw [dif_pos (by rw [hkept]; exact h)]
  exact congrArg some (Subtype.ext hkept)

/-- The comparison of two texts, the left one just built. -/
theorem compareStrings_stringValue {text : List UInt8} {data : Option Varlen} {o : Ordering} (h : text.length < 2 ^ 31)
    (ho : compareStrings (varlenOf (text ++ [0])) data = .ok o) :
    o = List.compareLex compare text (varlenText data) := by
  have hlen : (text ++ [0]).length < 2 ^ 32 - 1 := by
    rw [List.length_append, List.length_singleton]
    omega
  rw [varlenOf_short hlen] at ho
  cases data with
  | none => cases ho
  | some data =>
    unfold compareStrings at ho
    dsimp only at ho
    split_ifs at ho
    rw [← Except.ok.inj ho, List.dropLast_concat]
    rfl

/-- What the parsers return is what the text reads as. -/
theorem numeral_of_parse (t : IntType) (h : t.parse s = .ok n) : numeral s = some n := by
  have hto : ∀ name lo hi, stringTo name lo hi s = .ok n → numeral s = some n := by
    intro name lo hi h
    unfold stringTo at h
    cases hn : numeral s with
    | none =>
      rw [hn] at h
      cases h
    | some m =>
      rw [hn] at h
      dsimp only at h
      split_ifs at h
      rw [Except.ok.inj h]
  cases t <;> exact hto _ _ _ h

/-- Digits are ordered as bytes. -/
theorem compare_digits {b c : UInt8} (hb : isDigit b = true) (hc : isDigit c = true) :
    compare b c = compare (b.toNat - 48) (c.toNat - 48) := by
  simp only [isDigit, Bool.and_eq_true, decide_eq_true_iff, UInt8.le_iff_toNat_le] at hb hc
  have h48 : (48 : UInt8).toNat = 48 := rfl
  simp only [compare, compareOfLessAndEq, UInt8.lt_iff_toNat_lt, ← UInt8.toNat_inj]
  refine if_congr (by omega) rfl (if_congr (by omega) rfl rfl)

theorem digit_lt {b : UInt8} (hb : isDigit b = true) : b.toNat - 48 < 10 := by
  simp only [isDigit, Bool.and_eq_true, decide_eq_true_iff, UInt8.le_iff_toNat_le] at hb
  have h57 : (57 : UInt8).toNat = 57 := rfl
  omega

/-- What is behind the digits of a string begins with none. -/
theorem not_digit_of_dropWhile {b : UInt8} {rest : List UInt8} (h : s.dropWhile isDigit = b :: rest) :
    isDigit b = false := by
  have hnot := List.head?_dropWhile_not isDigit s
  rw [h] at hnot
  exact hnot

/-- A byte that is no digit, against one. -/
theorem compare_digit_other {b c : UInt8} (hb : isDigit b = true) (hc : isDigit c = false) :
    compare b c = if 57 < c then .lt else .gt := by
  simp only [isDigit, Bool.and_eq_true, decide_eq_true_iff, UInt8.le_iff_toNat_le] at hb
  simp only [isDigit, Bool.and_eq_false_iff, decide_eq_false_iff_not, UInt8.le_iff_toNat_le] at hc
  have h48 : (48 : UInt8).toNat = 48 := rfl
  have h57 : (57 : UInt8).toNat = 57 := rfl
  simp only [compare, compareOfLessAndEq, UInt8.lt_iff_toNat_lt, ← UInt8.toNat_inj]
  by_cases hgt : (57 : UInt8).toNat < c.toNat
  · rw [if_pos (by omega), if_pos hgt]
  · rw [if_neg (by omega), if_neg (by omega), if_neg hgt]

/-- Behind the digits that a number and a string share in length. -/
def restOrder (l k : ℕ) (rest : List UInt8) : Ordering :=
  if l < k then .lt else if l = k then (if rest = [] then .eq else .lt)
  else if rest.head?.any (57 < ·) then .lt else .gt

theorem compareLex_rest (a : ℕ) (s : List UInt8) :
    List.compareLex compare ((decimalDigits a).drop (min (decimalDigits a).length (s.takeWhile isDigit).length))
      (s.drop (min (decimalDigits a).length (s.takeWhile isDigit).length)) =
      restOrder (decimalDigits a).length (s.takeWhile isDigit).length (s.dropWhile isDigit) := by
  have hdrop : s.drop (s.takeWhile isDigit).length = s.dropWhile isDigit := by
    calc s.drop (s.takeWhile isDigit).length
        = (s.takeWhile isDigit ++ s.dropWhile isDigit).drop (s.takeWhile isDigit).length := by
          rw [List.takeWhile_append_dropWhile]
      _ = s.dropWhile isDigit := List.drop_left
  unfold restOrder
  rcases Nat.lt_trichotomy (decimalDigits a).length (s.takeWhile isDigit).length with hlt | heq | hgt
  · -- the string has more digits
    rw [if_pos hlt, Nat.min_eq_left hlt.le, List.drop_length]
    cases hs : s.drop (decimalDigits a).length with
    | nil =>
      have hle := List.drop_eq_nil_iff.mp hs
      have htake := (List.takeWhile_prefix (p := isDigit) (l := s)).length_le
      omega
    | cons b rest => rfl
  · rw [if_neg (by omega), if_pos heq, heq, Nat.min_self, hdrop, ← heq, List.drop_length]
    cases s.dropWhile isDigit <;> rfl
  · -- the number has more digits
    rw [if_neg (by omega), if_neg (by omega), Nat.min_eq_right hgt.le, hdrop]
    cases hd : (decimalDigits a).drop (s.takeWhile isDigit).length with
    | nil =>
      have hle := List.drop_eq_nil_iff.mp hd
      omega
    | cons d ds =>
      have hmem : d ∈ (decimalDigits a).drop (s.takeWhile isDigit).length := hd ▸ List.mem_cons_self ..
      have hdigit : isDigit d = true := (isDigit_decimalDigits a).1 d (List.mem_of_mem_drop hmem)
      cases hrest : s.dropWhile isDigit with
      | nil => rfl
      | cons b rest =>
        rw [List.compareLex_cons_cons, compare_digit_other hdigit (not_digit_of_dropWhile hrest)]
        simp only [List.head?_cons, Option.any_some, decide_eq_true_iff]
        split_ifs <;> rfl

/-- **The decimal text of a number against a string**: the leading digits, as many as both have, then what follows. -/
theorem compareLex_decimalDigits (a : ℕ) (s : List UInt8) : List.compareLex compare (decimalDigits a) s =
    (compare (a / 10 ^ ((decimalDigits a).length - (s.takeWhile isDigit).length))
      (ofDigits (s.takeWhile isDigit) / 10 ^ ((s.takeWhile isDigit).length - (decimalDigits a).length))).then
      (restOrder (decimalDigits a).length (s.takeWhile isDigit).length (s.dropWhile isDigit)) := by
  obtain ⟨hdigits, hvalue⟩ := isDigit_decimalDigits a
  have hsdigits : ∀ b ∈ s.takeWhile isDigit, isDigit b = true := fun b => List.mem_takeWhile_imp
  have hprefix := List.takeWhile_prefix (p := isDigit) (l := s)
  have hle := hprefix.length_le
  have htake : ∀ m ≤ (s.takeWhile isDigit).length, s.take m = (s.takeWhile isDigit).take m := by
    intro m hm
    calc s.take m = (s.takeWhile isDigit ++ s.dropWhile isDigit).take m := by rw [List.takeWhile_append_dropWhile]
      _ = (s.takeWhile isDigit).take m := List.take_append_of_le_length hm
  have hlead : positional 10 (fun b : UInt8 => b.toNat - 48) (decimalDigits a) = a := hvalue
  have hcommon : ∀ m, ((decimalDigits a).take m).length = ((s.takeWhile isDigit).take m).length →
      List.compareLex compare ((decimalDigits a).take m) ((s.takeWhile isDigit).take m) =
        compare (positional 10 (fun b : UInt8 => b.toNat - 48) ((decimalDigits a).take m))
          (positional 10 (fun b : UInt8 => b.toNat - 48) ((s.takeWhile isDigit).take m)) := fun m hlen =>
    compareLex_positional hlen
      (fun b hb c hc => compare_digits (hdigits b (List.mem_of_mem_take hb)) (hsdigits c (List.mem_of_mem_take hc)))
      (fun b hb => digit_lt (hdigits b (List.mem_of_mem_take hb)))
      (fun b hb => digit_lt (hsdigits b (List.mem_of_mem_take hb)))
  rw [compareLex_take_drop (Nat.min_le_left ..) ((Nat.min_le_right ..).trans hle), compareLex_rest,
    htake _ (Nat.min_le_right ..), hcommon _ (by simp only [List.length_take]; omega),
    positional_take (fun b hb => digit_lt (hdigits b hb)), positional_take (fun b hb => digit_lt (hsdigits b hb)),
    hlead]
  congr 2
  · congr 2
    omega
  · congr 2
    omega

end Texts

/-! ## The two orders -/

section Alike

variable {n c r : Int} {s : List UInt8} {b : UInt8} {i : Int8}

/-- The digits of a number against a string. -/
theorem digits_alike_iff : compare n c = List.compareLex compare (decimalDigits n.natAbs) s ↔ DigitsAlike n c s := by
  rw [compareLex_decimalDigits, length_decimalDigits]
  unfold DigitsAlike
  generalize n.natAbs / 10 ^ ((Nat.toDigits 10 n.natAbs).length - (s.takeWhile isDigit).length) = p
  generalize ofDigits (s.takeWhile isDigit) /
    10 ^ ((s.takeWhile isDigit).length - (Nat.toDigits 10 n.natAbs).length) = q
  rcases Nat.lt_trichotomy p q with hlt | heq | hgt
  · rw [Nat.compare_eq_lt.mpr hlt, if_pos hlt]
    exact compare_lt_iff_lt
  · rw [Nat.compare_eq_eq.mpr heq, if_neg (by omega), if_neg (by omega)]
    show compare n c = restOrder _ _ _ ↔ _
    unfold restOrder RestAlike
    split_ifs
    · exact compare_lt_iff_lt
    · exact compare_eq_iff_eq
    · exact compare_lt_iff_lt
    · exact compare_lt_iff_lt
    · exact compare_gt_iff_gt
  · rw [Nat.compare_eq_gt.mpr hgt, if_neg (by omega), if_pos hgt]
    exact compare_gt_iff_gt

/-- What a string begins with that is read as a number. -/
theorem numeral_head (h : numeral (b :: s) = some r) : isDigit b = true ∨ b = 45 ∨ b = 43 ∨ isSpace b = true := by
  by_cases hspace : isSpace b = true
  · exact .inr (.inr (.inr hspace))
  · unfold numeral at h
    rw [List.dropWhile_cons_of_neg hspace] at h
    by_cases hminus : b = 45
    · exact .inr (.inl hminus)
    · by_cases hplus : b = 43
      · exact .inr (.inr (.inl hplus))
      · simp only [readSign, hminus, hplus, if_false] at h
        refine .inl ?_
        by_contra hdigit
        rw [List.takeWhile_cons_of_neg hdigit] at h
        cases h

/-- The text of a number begins with a digit or a minus. -/
theorem intText_head (n : Int) : ∃ d ds, intText n = d :: ds ∧ 45 ≤ d.toNat ∧ (0 ≤ n → isDigit d = true) := by
  by_cases hneg : n < 0
  · exact ⟨45, _, intText_of_neg hneg, le_rfl, fun h => absurd h (by omega)⟩
  · rw [intText_of_nonneg (by omega)]
    have hpos := decimalDigits_pos n.natAbs
    cases hd : decimalDigits n.natAbs with
    | nil => simp [hd] at hpos
    | cons d ds =>
      have hdigit : isDigit d = true := (isDigit_decimalDigits n.natAbs).1 d (hd ▸ List.mem_cons_self ..)
      have hd := hdigit
      simp only [isDigit, Bool.and_eq_true, decide_eq_true_iff, UInt8.le_iff_toNat_le] at hd
      have h48 : (48 : UInt8).toNat = 48 := rfl
      exact ⟨d, ds, rfl, by omega, fun _ => hdigit⟩

/-- A text and a string with a lesser first byte. -/
theorem compareLex_gt {d : UInt8} {ds : List UInt8} (h : b.toNat < d.toNat) :
    List.compareLex compare (d :: ds) (b :: s) = .gt := by
  have hcompare : compare d b = .gt := by
    simp only [compare, compareOfLessAndEq, UInt8.lt_iff_toNat_lt, ← UInt8.toNat_inj]
    rw [if_neg (by omega), if_neg (by omega)]
  rw [List.compareLex_cons_cons, hcompare]
  rfl

/-- A text and a string with a greater first byte. -/
theorem compareLex_lt {d : UInt8} {ds : List UInt8} (h : d.toNat < b.toNat) :
    List.compareLex compare (d :: ds) (b :: s) = .lt := by
  have hcompare : compare d b = .lt := by
    simp only [compare, compareOfLessAndEq, UInt8.lt_iff_toNat_lt]
    rw [if_pos h]
  rw [List.compareLex_cons_cons, hcompare]
  rfl

/-- **A number and the number that a string is cast to are ordered as their texts exactly if the sign and the digits of
the string say so.** -/
theorem number_alike_iff (h : numeral s = some r) :
    compare n c = List.compareLex compare (intText n) s ↔ NumberAlike n c s := by
  unfold NumberAlike
  cases s with
  | nil => cases h
  | cons b s =>
    simp only [List.head?_cons, Option.any_some, Option.some.injEq, List.tail_cons]
    by_cases hdigit : isDigit b = true
    · rw [if_pos hdigit]
      by_cases hneg : n < 0
      · have hbyte := hdigit
        simp only [isDigit, Bool.and_eq_true, decide_eq_true_iff, UInt8.le_iff_toNat_le] at hbyte
        have h48 : (48 : UInt8).toNat = 48 := rfl
        have h45 : (45 : UInt8).toNat = 45 := rfl
        rw [if_pos hneg, intText_of_neg hneg, compareLex_lt (by omega)]
        exact compare_lt_iff_lt
      · rw [if_neg hneg, intText_of_nonneg (by omega)]
        exact digits_alike_iff
    · rw [if_neg hdigit]
      obtain ⟨d, ds, htext, hd, hnonneg⟩ := intText_head n
      by_cases hminus : b = 45
      · rw [if_pos hminus]
        by_cases hneg : n < 0
        · rw [if_pos hneg, intText_of_neg hneg, List.compareLex_cons_cons, hminus]
          exact digits_alike_iff
        · have hbyte := hnonneg (by omega)
          simp only [isDigit, Bool.and_eq_true, decide_eq_true_iff, UInt8.le_iff_toNat_le] at hbyte
          have h48 : (48 : UInt8).toNat = 48 := rfl
          have h45 : (45 : UInt8).toNat = 45 := rfl
          rw [if_neg hneg, htext, compareLex_gt (by rw [hminus]; omega)]
          exact compare_gt_iff_gt
      · -- a blank or a plus
        have hbyte : b.toNat < 45 := by
          rcases numeral_head h with hb | hb | hb | hb
          · exact absurd hb hdigit
          · exact absurd hb hminus
          · rw [hb]
            decide
          · simp only [isSpace, Bool.or_eq_true, beq_iff_eq, Bool.and_eq_true, decide_eq_true_iff,
              UInt8.le_iff_toNat_le] at hb
            have h13 : (13 : UInt8).toNat = 13 := rfl
            rcases hb with hb | hb
            · rw [hb]
              decide
            · omega
        rw [if_neg hminus, htext, compareLex_gt (by omega)]
        exact compare_gt_iff_gt

/-- A letter in lower case, or the byte itself. -/
theorem toLower_eq (b : UInt8) : (toLower b).toNat = if 65 ≤ b.toNat ∧ b.toNat ≤ 90 then b.toNat + 32 else b.toNat := by
  have h65 : (65 : UInt8).toNat = 65 := rfl
  have h90 : (90 : UInt8).toNat = 90 := rfl
  have h32 : (32 : UInt8).toNat = 32 := rfl
  unfold toLower
  simp only [Bool.and_eq_true, decide_eq_true_iff, UInt8.le_iff_toNat_le, h65, h90]
  split_ifs with hupper
  · rw [UInt8.toNat_add, h32]
    omega
  · rfl

/-- The first byte of a string, from its text in lower case. -/
theorem head_of_lower {w : UInt8} {ws : List UInt8} {k : ℕ} (hw : w.toNat = k) (h : s.map toLower = w :: ws) :
    ∃ b t, s = b :: t ∧ (b.toNat = k ∨ 65 ≤ b.toNat ∧ b.toNat ≤ 90 ∧ b.toNat + 32 = k) := by
  obtain ⟨b, t, rfl, hb, -⟩ := List.map_eq_cons_iff.mp h
  have hlower := toLower_eq b
  rw [hb, hw] at hlower
  refine ⟨b, t, rfl, ?_⟩
  split_ifs at hlower <;> omega

/-- A string that is cast to `true` begins with a `t` of either case, or a 1. -/
theorem ReadsTrue.head (h : ReadsTrue s) : ∃ b t, s = b :: t ∧ (b.toNat = 116 ∨ b.toNat = 84 ∨ b.toNat = 49) := by
  unfold ReadsTrue at h
  simp only [List.mem_cons, List.not_mem_nil, or_false] at h
  rcases h with h | h | h
  · obtain ⟨b, t, hs, hb⟩ := head_of_lower (w := 116) (k := 116) rfl h
    exact ⟨b, t, hs, by omega⟩
  · obtain ⟨b, t, hs, hb⟩ := head_of_lower (w := 49) (k := 49) rfl h
    exact ⟨b, t, hs, by omega⟩
  · obtain ⟨b, t, hs, hb⟩ := head_of_lower (w := 116) (k := 116) rfl h
    exact ⟨b, t, hs, by omega⟩

/-- A string that is cast to `false` begins with an `f` of either case, or a 0. -/
theorem ReadsFalse.head (h : ReadsFalse s) : ∃ b t, s = b :: t ∧ (b.toNat = 102 ∨ b.toNat = 70 ∨ b.toNat = 48) := by
  unfold ReadsFalse at h
  simp only [List.mem_cons, List.not_mem_nil, or_false] at h
  rcases h with h | h | h
  · obtain ⟨b, t, hs, hb⟩ := head_of_lower (w := 102) (k := 102) rfl h
    exact ⟨b, t, hs, by omega⟩
  · obtain ⟨b, t, hs, hb⟩ := head_of_lower (w := 48) (k := 48) rfl h
    exact ⟨b, t, hs, by omega⟩
  · obtain ⟨b, t, hs, hb⟩ := head_of_lower (w := 102) (k := 102) rfl h
    exact ⟨b, t, hs, by omega⟩

/-- A text against a string that begins with a letter of either case or a digit: only the lower case is behind it. -/
theorem compareLex_letter {d w : UInt8} {ds : List UInt8} {up digit : ℕ}
    (h : ∃ b t, s = b :: t ∧ (b.toNat = w.toNat ∨ b.toNat = up ∨ b.toNat = digit)) (hw : d.toNat < w.toNat)
    (hup : up < d.toNat) (hdigit : digit < d.toNat) :
    List.compareLex compare (d :: ds) s = if s.head? = some w then .lt else .gt := by
  obtain ⟨b, t, rfl, hb⟩ := h
  rw [List.head?_cons]
  by_cases heq : b = w
  · rw [if_pos (congrArg some heq), compareLex_lt (by rwa [heq])]
  · have hne : b.toNat ≠ w.toNat := fun h => heq (UInt8.toNat_inj.mp h)
    rw [if_neg fun h => heq (Option.some.inj h), compareLex_gt (by omega)]

theorem head?_ne {w : UInt8} {k up digit : ℕ} (h : ∃ b t, s = b :: t ∧ (b.toNat = k ∨ b.toNat = up ∨ b.toNat = digit))
    (hk : w.toNat ≠ k) (hup : w.toNat ≠ up) (hdigit : w.toNat ≠ digit) : s.head? ≠ some w := by
  obtain ⟨b, t, rfl, hb⟩ := h
  rw [List.head?_cons]
  intro heq
  rw [Option.some.inj heq] at hb
  omega

/-- **A boolean and the one that a string is cast to.** -/
theorem boolean_alike_iff (h : ReadsTrue s ∨ ReadsFalse s) :
    compare i.toInt (if ReadsTrue s then 1 else 0) = List.compareLex compare (booleanText i) s ↔ BooleanAlike i s := by
  have heq : ∀ text, .eq = List.compareLex compare text s ↔ s = text := fun text =>
    eq_comm.trans (Std.LawfulEqCmp.compare_eq_iff_eq.trans eq_comm)
  unfold BooleanAlike booleanText
  by_cases h1 : i = 1
  · -- the text is `true`
    rw [if_pos h1, if_pos h1, h1]
    by_cases htrue : ReadsTrue s
    · rw [if_pos htrue, forall_prop_of_true htrue]
      exact heq _
    · obtain ⟨b, t, rfl, hb⟩ := (h.resolve_left htrue).head
      have hb116 : b.toNat < (116 : UInt8).toNat := by
        show b.toNat < 116
        omega
      rw [if_neg htrue, show ascii "true" = 116 :: ascii "rue" from by decide, compareLex_gt hb116]
      exact iff_of_true rfl fun hr => absurd hr htrue
  · by_cases h0 : i = 0
    · -- the text is `false`
      rw [if_neg h1, if_neg h1, if_pos h0, if_pos h0, h0]
      by_cases htrue : ReadsTrue s
      · rw [if_pos htrue, if_pos htrue, show ascii "false" = 102 :: ascii "alse" from by decide,
          compareLex_letter (w := 116) htrue.head (by decide) (by decide) (by decide)]
        split_ifs with hhead
        · exact iff_of_true rfl hhead
        · exact iff_of_false nofun hhead
      · rw [if_neg htrue, if_neg htrue]
        exact heq _
    · -- the text is `boolean_null`
      have hne0 : i.toInt ≠ 0 := fun hi => h0 (Int8.toInt_inj.mp hi)
      have hne1 : i.toInt ≠ 1 := fun hi => h1 (Int8.toInt_inj.mp hi)
      rw [if_neg h1, if_neg h1, if_neg h0, if_neg h0,
        show ascii "boolean_null" = 98 :: ascii "oolean_null" from by decide]
      by_cases htrue : ReadsTrue s
      · have hnotF : s.head? ≠ some 102 := head?_ne htrue.head (by decide) (by decide) (by decide)
        rw [if_pos htrue, or_iff_right hnotF,
          compareLex_letter (w := 116) htrue.head (by decide) (by decide) (by decide)]
        split_ifs with hhead
        · rw [iff_true_left hhead, compare_lt_iff_lt]
          omega
        · rw [iff_false_left hhead, compare_gt_iff_gt]
          omega
      · have hfalse := h.resolve_left htrue
        have hnotT : s.head? ≠ some 116 := head?_ne hfalse.head (by decide) (by decide) (by decide)
        rw [if_neg htrue, or_iff_left hnotT,
          compareLex_letter (w := 102) hfalse.head (by decide) (by decide) (by decide)]
        split_ifs with hhead
        · rw [iff_true_left hhead, compare_lt_iff_lt]
        · rw [iff_false_left hhead, compare_gt_iff_gt]
          omega

end Alike

end Journey.SqlType
