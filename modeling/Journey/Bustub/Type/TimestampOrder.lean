import Journey.Lib.TwosComplement
import Journey.Bustub.Type.Compare
import Journey.Bustub.Type.Timestamp

/-!
# Journey.Bustub.Type.TimestampOrder — the order of timestamps

Each comparison of `TimestampType` begins with an assertion that its operands are comparable, and no two timestamps are:
`CheckComparable` does not know the type.  A build without assertions (`NDEBUG`) goes on; `CompareNotEquals` then does
not ask whether the left one is null, and `CompareGreaterThan` reads both as signed numbers.

* `compareTimestamps`: the comparisons, in a build with assertions and in one without.
* `Consistent`: how the six comparisons should hang together.
* `dateNumber`, `zoneNumber`: a packed timestamp as a sum, the date and time in one and the time zone in the other.
* `timestamp_order_iff`: which pairs are compared consistently, and which ones in chronological order.
-/

namespace Journey.SqlType

/-! ## The comparisons -/

section Model

/-- The comparisons of `TimestampType`, on the payloads of the two values. -/
def compareTimestamps (ndebug : Bool) (op : ComparisonType) (left right : UInt64) : Except Fault CmpBool :=
  if !ndebug && !(Value.timestamp left).checkComparable (.timestamp right) then .error .assertion
  else if (op ≠ .notEqual ∧ left = timestampNull) ∨ right = timestampNull then .ok .cmpNull
  else if op = .greaterThan then .ok (op.onInt left.toInt64.toInt right.toInt64.toInt)
  else .ok (op.onInt left.toNat right.toNat)

/-- With assertions on, these are the comparisons of values. -/
theorem compareTimestamps_debug (op : ComparisonType) (left right : UInt64) :
    compareTimestamps false op left right = (Value.timestamp left).compare op (.timestamp right) := rfl

/-- How the six comparisons of two timestamps should hang together: a null operand makes each of them null, the strict
ones mirror each other, and the others are the negation and the unions. -/
structure Consistent (compare : ComparisonType → UInt64 → UInt64 → Except Fault CmpBool) (a b : UInt64) : Prop where
  nulls : a = timestampNull ∨ b = timestampNull → ∀ op, compare op a b = .ok .cmpNull
  mirror : compare .lessThan a b = compare .greaterThan b a
  unions : a ≠ timestampNull → b ≠ timestampNull → ∃ eq lt gt : Bool,
    compare .equal a b = .ok (getCmpBool eq) ∧ compare .notEqual a b = .ok (getCmpBool !eq) ∧
    compare .lessThan a b = .ok (getCmpBool lt) ∧ compare .lessThanOrEqual a b = .ok (getCmpBool (lt || eq)) ∧
    compare .greaterThan a b = .ok (getCmpBool gt) ∧ compare .greaterThanOrEqual a b = .ok (getCmpBool (gt || eq))

end Model

/-! ## Without assertions -/

section Consistency

variable {a b : UInt64} {op : ComparisonType}

theorem holds_compare (m n : Int) :
    ComparisonType.equal.holds (Ord.compare m n) = decide (m = n) ∧
    ComparisonType.notEqual.holds (Ord.compare m n) = !decide (m = n) ∧
    ComparisonType.lessThan.holds (Ord.compare m n) = decide (m < n) ∧
    ComparisonType.lessThanOrEqual.holds (Ord.compare m n) = (decide (m < n) || decide (m = n)) ∧
    ComparisonType.greaterThan.holds (Ord.compare m n) = decide (n < m) ∧
    ComparisonType.greaterThanOrEqual.holds (Ord.compare m n) = (decide (n < m) || decide (m = n)) := by
  rcases lt_trichotomy m n with h | rfl | h
  · rw [compare_lt_iff_lt.mpr h]
    simp [ComparisonType.holds, h, h.ne, h.not_gt]
  · simp [ComparisonType.holds]
  · rw [compare_gt_iff_gt.mpr h]
    simp [ComparisonType.holds, h, h.ne', h.not_gt]

/-- A comparison of two timestamps that are not null. -/
theorem compareTimestamps_notNull (ha : a ≠ timestampNull) (hb : b ≠ timestampNull) :
    compareTimestamps true op a b = .ok (getCmpBool (op.holds
      (if op = .greaterThan then Ord.compare a.toInt64.toInt b.toInt64.toInt
        else Ord.compare (a.toNat : Int) (b.toNat : Int)))) := by
  unfold compareTimestamps
  rw [if_neg (by simp), if_neg (by simp [ha, hb])]
  split_ifs <;> rfl

/-- A timestamp as a signed number. -/
theorem toInt64_toInt (a : UInt64) :
    (a.toNat < 2 ^ 63 ∧ a.toInt64.toInt = a.toNat) ∨ (2 ^ 63 ≤ a.toNat ∧ a.toInt64.toInt = (a.toNat : Int) - 2 ^ 64) := by
  have hlt := a.toNat_lt
  have hwrap : a.toInt64.toInt = wrap 64 a.toNat := BitVec.toInt_eq_toNat_bmod a.toBitVec
  rcases wrap_cases (w := 64) (by decide) (n := (a.toNat : Int)) (by omega) (by omega) with
    ⟨⟨hlo, hhi⟩, he⟩ | ⟨hhi, he⟩ | ⟨hlo, he⟩
  · exact .inl ⟨by omega, hwrap.trans he⟩
  · exact .inr ⟨by omega, hwrap.trans he⟩
  · omega

/-- Both timestamps are null or neither is, and both have their top bit set or neither has. -/
def SameKind (a b : UInt64) : Prop :=
  (a = timestampNull ↔ b = timestampNull) ∧ (a.toNat < 2 ^ 63 ↔ b.toNat < 2 ^ 63)

/-- Read as signed, two timestamps compare as they should exactly if their top bits are the same. -/
theorem signed_lt_iff (hab : a ≠ b) :
    (a.toInt64.toInt < b.toInt64.toInt ↔ a.toNat < b.toNat) ↔ (a.toNat < 2 ^ 63 ↔ b.toNat < 2 ^ 63) := by
  have hne : a.toNat ≠ b.toNat := fun heq => hab (UInt64.toNat_inj.mp heq)
  have halt := a.toNat_lt
  have hblt := b.toNat_lt
  rcases toInt64_toInt a with ⟨ha, hae⟩ | ⟨ha, hae⟩ <;> rcases toInt64_toInt b with ⟨hb, hbe⟩ | ⟨hb, hbe⟩ <;>
    rw [hae, hbe] <;> omega

theorem consistent_of_sameKind (h : SameKind a b) : Consistent (compareTimestamps true) a b := by
  obtain ⟨hnull, htop⟩ := h
  by_cases ha : a = timestampNull
  · have hb := hnull.mp ha
    subst ha hb
    refine ⟨fun _ op => ?_, rfl, fun hne => absurd rfl hne⟩
    cases op <;> rfl
  · have hb : b ≠ timestampNull := fun hb => ha (hnull.mpr hb)
    have hsigned : ∀ {a b : UInt64}, (a.toNat < 2 ^ 63 ↔ b.toNat < 2 ^ 63) →
        (a.toInt64.toInt < b.toInt64.toInt ↔ a.toNat < b.toNat) := by
      intro a b htop
      by_cases hab : a = b
      · subst hab
        simp
      · exact (signed_lt_iff hab).mpr htop
    obtain ⟨heq, hne, hlt, hle, -, hge⟩ := holds_compare (a.toNat : Int) b.toNat
    have hgt := (holds_compare a.toInt64.toInt b.toInt64.toInt).2.2.2.2.1
    have hswap := (holds_compare b.toInt64.toInt a.toInt64.toInt).2.2.2.2.1
    refine ⟨fun hor => absurd hor (by simp [ha, hb]), ?_, fun _ _ => ⟨decide ((a.toNat : Int) = b.toNat),
      decide ((a.toNat : Int) < b.toNat), decide ((b.toNat : Int) < a.toNat), ?_, ?_, ?_, ?_, ?_, ?_⟩⟩
    · rw [compareTimestamps_notNull ha hb, compareTimestamps_notNull hb ha, if_neg (by decide), if_pos rfl, hlt, hswap]
      simp [hsigned htop]
    · rw [compareTimestamps_notNull ha hb, if_neg (by decide), heq]
    · rw [compareTimestamps_notNull ha hb, if_neg (by decide), hne]
    · rw [compareTimestamps_notNull ha hb, if_neg (by decide), hlt]
    · rw [compareTimestamps_notNull ha hb, if_neg (by decide), hle]
    · rw [compareTimestamps_notNull ha hb, if_pos rfl, hgt]
      simp [hsigned htop.symm]
    · rw [compareTimestamps_notNull ha hb, if_neg (by decide), hge]

theorem sameKind_of_consistent (h : Consistent (compareTimestamps true) a b)
    (h' : Consistent (compareTimestamps true) b a) : SameKind a b := by
  -- a null on the left escapes `CompareNotEquals`
  have hleft : ∀ {a b : UInt64}, Consistent (compareTimestamps true) a b → a = timestampNull → b = timestampNull := by
    intro a b h ha
    by_contra hb
    have hne := h.nulls (.inl ha) .notEqual
    unfold compareTimestamps at hne
    rw [if_neg (by simp), if_neg (by simp [hb]), if_neg (by decide)] at hne
    have hfalse := Except.ok.inj hne
    unfold ComparisonType.onInt getCmpBool at hfalse
    split_ifs at hfalse
  refine ⟨⟨hleft h, hleft h'⟩, ?_⟩
  by_cases hab : a = b
  · rw [hab]
  · by_cases ha : a = timestampNull
    · exact absurd (ha.trans (hleft h ha).symm) hab
    · have hb : b ≠ timestampNull := fun hb => ha (hleft h' hb)
      have hmirror := h'.mirror
      rw [compareTimestamps_notNull ha hb, compareTimestamps_notNull hb ha, if_neg (by decide), if_pos rfl,
        (holds_compare (b.toNat : Int) a.toNat).2.2.1, (holds_compare a.toInt64.toInt b.toInt64.toInt).2.2.2.2.1]
        at hmirror
      have hinj : ∀ p q : Bool, getCmpBool p = getCmpBool q → p = q := by decide
      have hiff := decide_eq_decide.mp (hinj _ _ (Except.ok.inj hmirror))
      have hsym := (signed_lt_iff (Ne.symm hab)).mp (by omega)
      exact hsym.symm

/-- **Which timestamps are compared consistently.** -/
theorem consistent_iff (ndebug : Bool) (a b : UInt64) :
    Consistent (compareTimestamps ndebug) a b ∧ Consistent (compareTimestamps ndebug) b a ↔
      ndebug = true ∧ SameKind a b := by
  cases ndebug with
  | false =>
    refine iff_of_false ?_ (by simp)
    -- every comparison stops at its assertion
    rintro ⟨h, -⟩
    by_cases hnull : a = timestampNull ∨ b = timestampNull
    · cases h.nulls hnull .equal
    · rw [not_or] at hnull
      obtain ⟨eq, lt, gt, heq, -⟩ := h.unions hnull.1 hnull.2
      cases heq
  | true =>
    constructor
    · rintro ⟨h, h'⟩
      exact ⟨rfl, sameKind_of_consistent h h'⟩
    · rintro ⟨-, h⟩
      exact ⟨consistent_of_sameKind h, consistent_of_sameKind ⟨h.1.symm, h.2.symm⟩⟩

end Consistency

/-! ## Dates and times in one number -/

section Chronology

variable {t t1 t2 : DateTime}

namespace DateTime

/-- The fields, from the year down to the microsecond. -/
def fields (t : DateTime) : List ℕ := [t.year, t.month, t.day, t.hour, t.min, t.sec, t.micro]

/-- The chronological order of two dates and times of one time zone. -/
def Before (t1 t2 : DateTime) : Prop := t1.fields < t2.fields

instance (t1 t2 : DateTime) : Decidable (Before t1 t2) := inferInstanceAs (Decidable (_ < _))

/-- The day in the year, as the month and the day are packed. -/
def monthDay (t : DateTime) : ℕ := t.month * 32 + t.day

/-- The microsecond of the day. -/
def timeOfDay (t : DateTime) : ℕ := (t.hour * 3600 + t.min * 60 + t.sec) * 1000000 + t.micro

/-- The date and time, as they are packed: the month and the day weigh more than the year. -/
def dateNumber (t : DateTime) : ℕ := (t.monthDay * 270000 + t.year) * 100000000000 + t.timeOfDay

/-- The time zone, as it is packed: `timezone` is a `uint32_t`. -/
def zoneNumber (t : DateTime) : ℕ := ((t.tz + 12) % 2 ^ 32).toNat * 1000000000000000 % 2 ^ 64

/-- Packing wraps around. -/
def Carries (t : DateTime) : Prop := 2 ^ 64 ≤ t.dateNumber + t.zoneNumber

instance (t : DateTime) : Decidable t.Carries := inferInstanceAs (Decidable (_ ≤ _))

/-- One of the dates is in an earlier year, but later in its year. -/
def Crossed (t1 t2 : DateTime) : Prop :=
  (t1.year < t2.year ∧ t2.monthDay < t1.monthDay) ∨ (t2.year < t1.year ∧ t1.monthDay < t2.monthDay)

instance (t1 t2 : DateTime) : Decidable (Crossed t1 t2) := inferInstanceAs (Decidable (_ ∨ _))

end DateTime

open DateTime

/-- A number of two digits is ordered as its digits are. -/
theorem radix_lt_iff {a1 a2 b1 b2 k : ℕ} (h1 : b1 < k) (h2 : b2 < k) :
    a1 * k + b1 < a2 * k + b2 ↔ a1 < a2 ∨ (a1 = a2 ∧ b1 < b2) := by
  rcases lt_trichotomy a1 a2 with h | rfl | h
  · have hmul : (a1 + 1) * k ≤ a2 * k := Nat.mul_le_mul_right k h
    rw [Nat.add_mul] at hmul
    omega
  · omega
  · have hmul : (a2 + 1) * k ≤ a1 * k := Nat.mul_le_mul_right k h
    rw [Nat.add_mul] at hmul
    omega

theorem timeOfDay_lt (hv : Valid t) : t.timeOfDay < 100000000000 := by
  obtain ⟨-, -, -, hhour, hmin, hsec, hmicro, -⟩ := hv
  unfold timeOfDay
  omega

theorem dateNumber_lt (hv : Valid t) : t.dateNumber < 2 ^ 64 := by
  have htime := timeOfDay_lt hv
  have hmax := maxDay_le t.year t.month
  obtain ⟨hyear, hmonth, hday, -⟩ := hv
  unfold dateNumber monthDay
  omega

/-- Three digits, the last two taken together or the first two. -/
theorem lex_assoc {p q r u v : Prop} : p ∨ q ∧ (r ∨ u ∧ v) ↔ (p ∨ q ∧ r) ∨ (q ∧ u) ∧ v := by tauto

theorem monthDay_lt_iff (hv1 : Valid t1) (hv2 : Valid t2) :
    (t1.monthDay < t2.monthDay ↔ t1.month < t2.month ∨ (t1.month = t2.month ∧ t1.day < t2.day)) ∧
      (t1.monthDay = t2.monthDay ↔ t1.month = t2.month ∧ t1.day = t2.day) := by
  have hmax1 := maxDay_le t1.year t1.month
  have hmax2 := maxDay_le t2.year t2.month
  have hday1 := hv1.day
  have hday2 := hv2.day
  unfold monthDay
  omega

theorem timeOfDay_lt_iff (hv1 : Valid t1) (hv2 : Valid t2) :
    t1.timeOfDay < t2.timeOfDay ↔ t1.hour < t2.hour ∨ (t1.hour = t2.hour ∧
      (t1.min < t2.min ∨ (t1.min = t2.min ∧ (t1.sec < t2.sec ∨ (t1.sec = t2.sec ∧ t1.micro < t2.micro))))) := by
  have hmin1 := hv1.min
  have hmin2 := hv2.min
  have hsec1 := hv1.sec
  have hsec2 := hv2.sec
  have hmicro1 := hv1.micro
  have hmicro2 := hv2.micro
  have hsplit : ∀ h m s : ℕ, h * 3600 + m * 60 + s = (h * 60 + m) * 60 + s := by
    intro h m s
    omega
  unfold timeOfDay
  rw [hsplit, hsplit, radix_lt_iff (by omega) (by omega), radix_lt_iff (by omega) (by omega),
    radix_lt_iff (by omega) (by omega), lex_assoc, lex_assoc]
  have heq : (t1.hour * 60 + t1.min) * 60 + t1.sec = (t2.hour * 60 + t2.min) * 60 + t2.sec ↔
      (t1.hour = t2.hour ∧ t1.min = t2.min) ∧ t1.sec = t2.sec := by omega
  have heq' : t1.hour * 60 + t1.min = t2.hour * 60 + t2.min ↔ t1.hour = t2.hour ∧ t1.min = t2.min := by omega
  rw [heq, heq']

/-- The chronological order, from the year over the day in it to the time. -/
theorem before_iff (hv1 : Valid t1) (hv2 : Valid t2) : Before t1 t2 ↔ t1.year < t2.year ∨ (t1.year = t2.year ∧
    (t1.monthDay < t2.monthDay ∨ (t1.monthDay = t2.monthDay ∧ t1.timeOfDay < t2.timeOfDay))) := by
  rw [(monthDay_lt_iff hv1 hv2).1, (monthDay_lt_iff hv1 hv2).2, timeOfDay_lt_iff hv1 hv2, ← lex_assoc]
  unfold Before fields
  simp only [List.cons_lt_cons_iff, List.not_lt_nil, and_false, or_false]

/-- The order in which dates and times are packed, from the day in the year over the year to the time. -/
theorem dateNumber_lt_iff (hv1 : Valid t1) (hv2 : Valid t2) : t1.dateNumber < t2.dateNumber ↔
    t1.monthDay < t2.monthDay ∨ (t1.monthDay = t2.monthDay ∧
      (t1.year < t2.year ∨ (t1.year = t2.year ∧ t1.timeOfDay < t2.timeOfDay))) := by
  have hyear1 := hv1.year
  have hyear2 := hv2.year
  have heq : t1.monthDay * 270000 + t1.year = t2.monthDay * 270000 + t2.year ↔
      t1.monthDay = t2.monthDay ∧ t1.year = t2.year := by omega
  unfold dateNumber
  rw [radix_lt_iff (timeOfDay_lt hv1) (timeOfDay_lt hv2),
    radix_lt_iff (show t1.year < 270000 by omega) (show t2.year < 270000 by omega), heq, lex_assoc]

/-- What is packed, for every time zone. -/
theorem toNat_packed_eq (t : DateTime) : (packed t).toNat = (t.dateNumber + t.zoneNumber) % 2 ^ 64 := by
  have hsum : ∀ m d z y h mi s us : ℕ, ((((m * 32 + d) * 27 + z) * 10000 + y) * 100000 + (h * 3600 + mi * 60 + s)) *
      1000000 + us = ((m * 32 + d) * 270000 + y) * 100000000000 + ((h * 3600 + mi * 60 + s) * 1000000 + us) +
        z * 1000000000000000 := by
    intro m d z y h mi s us
    ring
  rw [packed_eq_ofNat, UInt64.toNat_ofNat', hsum]
  exact (Nat.add_mod_mod _ _ _).symm

/-- Packed timestamps of one time zone are ordered as their dates and times are packed, unless exactly one of them
wraps around; then they are ordered the other way. -/
theorem packed_lt_iff (hv1 : Valid t1) (hv2 : Valid t2) (htz : t1.tz = t2.tz) :
    ((packed t1).toNat < (packed t2).toNat ↔ Before t1 t2) ↔ ((t1.Carries ↔ t2.Carries) ↔ ¬ Crossed t1 t2) := by
  have hzone : t1.zoneNumber = t2.zoneNumber := by
    unfold zoneNumber
    rw [htz]
  have hlt : t2.zoneNumber < 2 ^ 64 := Nat.mod_lt _ (by decide)
  have hnum1 := dateNumber_lt hv1
  have hnum2 := dateNumber_lt hv2
  have hfirst := dateNumber_lt_iff hv1 hv2
  have hsecond := dateNumber_lt_iff hv2 hv1
  rw [toNat_packed_eq, toNat_packed_eq, hzone, before_iff hv1 hv2]
  unfold Carries Crossed
  rw [hzone]
  generalize t1.dateNumber = n1 at *
  generalize t2.dateNumber = n2 at *
  generalize t2.zoneNumber = z at *
  have hpacked : ∀ n, n < 2 ^ 64 → (2 ^ 64 ≤ n + z ∧ (n + z) % 2 ^ 64 + 2 ^ 64 = n + z) ∨
      (n + z < 2 ^ 64 ∧ (n + z) % 2 ^ 64 = n + z) := by
    intro n hn
    omega
  have hsplit1 := hpacked n1 hnum1
  have hsplit2 := hpacked n2 hnum2
  generalize (n1 + z) % 2 ^ 64 = p1 at *
  generalize (n2 + z) % 2 ^ 64 = p2 at *
  -- both wrap around or neither does, or exactly one of them
  rcases hsplit1 with ⟨hc1, hp1⟩ | ⟨hc1, hp1⟩ <;> rcases hsplit2 with ⟨hc2, hp2⟩ | ⟨hc2, hp2⟩
  · have hlt12 : p1 < p2 ↔ n1 < n2 := by omega
    rw [hlt12, hfirst]
    omega
  · have hlt12 : p1 < p2 ↔ n2 < n1 := by omega
    rw [hlt12, hsecond]
    omega
  · have hlt12 : p1 < p2 ↔ n2 < n1 := by omega
    rw [hlt12, hsecond]
    omega
  · have hlt12 : p1 < p2 ↔ n1 < n2 := by omega
    rw [hlt12, hfirst]
    omega

/-- The number of the date, time and time zone is the one that stands for NULL. -/
def DateTime.PacksToNull (t : DateTime) : Prop := (t.dateNumber + t.zoneNumber) % 2 ^ 64 = 2 ^ 64 - 1

instance (t : DateTime) : Decidable t.PacksToNull := inferInstanceAs (Decidable (_ = _))

theorem packed_eq_null_iff (t : DateTime) : packed t = timestampNull ↔ t.PacksToNull := by
  unfold PacksToNull
  rw [← toNat_packed_eq, ← UInt64.toNat_inj]
  rfl

/-- `CompareLessThan` of two packed timestamps of one time zone. -/
theorem lessThan_packed_iff (ndebug : Bool) (hv1 : Valid t1) (hv2 : Valid t2) (htz : t1.tz = t2.tz) :
    compareTimestamps ndebug .lessThan (packed t1) (packed t2) = .ok (getCmpBool (decide (Before t1 t2))) ↔
      ndebug = true ∧ ¬ t1.PacksToNull ∧ ¬ t2.PacksToNull ∧ ((t1.Carries ↔ t2.Carries) ↔ ¬ Crossed t1 t2) := by
  cases ndebug with
  | false => exact iff_of_false (by rintro ⟨⟩) (by simp)
  | true =>
    have hbool : ∀ b : Bool, CmpBool.cmpNull ≠ getCmpBool b := by decide
    have hinj : ∀ p q : Bool, getCmpBool p = getCmpBool q ↔ p = q := by decide
    rw [← packed_eq_null_iff, ← packed_eq_null_iff]
    by_cases hnull : packed t1 = timestampNull ∨ packed t2 = timestampNull
    · have hcmp : compareTimestamps true .lessThan (packed t1) (packed t2) = .ok .cmpNull := by
        unfold compareTimestamps
        rw [if_neg (by simp), if_pos (by simpa using hnull)]
      rw [hcmp]
      refine iff_of_false (fun h => hbool _ (Except.ok.inj h)) ?_
      rintro ⟨-, h1, h2, -⟩
      exact hnull.elim h1 h2
    · rw [not_or] at hnull
      rw [compareTimestamps_notNull hnull.1 hnull.2, if_neg (by decide),
        (holds_compare ((packed t1).toNat : Int) (packed t2).toNat).2.2.1, Except.ok.injEq, hinj, decide_eq_decide,
        Nat.cast_lt, packed_lt_iff hv1 hv2 htz]
      simp [hnull]

/-- **The order of timestamps.**  With assertions no comparison returns.  Without them, for all timestamps, the six
comparisons of a pair are consistent exactly if both or neither are null and both or neither have their top bit set;
and for all strings of one time zone that the cast accepts, `CompareLessThan` is the chronological order exactly if
neither packs to NULL and, of these two, either none or both hold: exactly one of the two wraps around, and the dates
are crossed. -/
theorem timestamp_order_iff (ndebug : Bool) :
    (∀ a b, Consistent (compareTimestamps ndebug) a b ∧ Consistent (compareTimestamps ndebug) b a ↔
      ndebug = true ∧ SameKind a b) ∧
    ∀ s1 s2 a b, castStringAsTimestamp s1 = .ok (.timestamp a) → castStringAsTimestamp s2 = .ok (.timestamp b) →
      (written s1).tz = (written s2).tz →
      (compareTimestamps ndebug .lessThan a b = .ok (getCmpBool (decide (Before (written s1) (written s2)))) ↔
        ndebug = true ∧ ¬ (written s1).PacksToNull ∧ ¬ (written s2).PacksToNull ∧
          (((written s1).Carries ↔ (written s2).Carries) ↔ ¬ Crossed (written s1) (written s2))) := by
  refine ⟨fun a b => consistent_iff ndebug a b, fun s1 s2 a b h1 h2 htz => ?_⟩
  obtain ⟨-, hv1, hp1⟩ := castStringAsTimestamp_iff.mp h1
  obtain ⟨-, hv2, hp2⟩ := castStringAsTimestamp_iff.mp h2
  cases hp1
  cases hp2
  exact lessThan_packed_iff ndebug hv1 hv2 htz

/-- Within one year the order is right, without assertions. -/
theorem timestamp_order_iff_year : ∃ a b,
    castStringAsTimestamp (ascii "2021-03-04 05:06:07-03") = .ok (.timestamp a) ∧
    castStringAsTimestamp (ascii "2021-03-05 00:00:00-03") = .ok (.timestamp b) ∧
    compareTimestamps true .lessThan a b = .ok (getCmpBool (decide (Before (written (ascii "2021-03-04 05:06:07-03"))
      (written (ascii "2021-03-05 00:00:00-03"))))) := by
  have h1 : castStringAsTimestamp (ascii "2021-03-04 05:06:07-03") =
      .ok (.timestamp (packed (written (ascii "2021-03-04 05:06:07-03")))) := by decide +kernel
  have h2 : castStringAsTimestamp (ascii "2021-03-05 00:00:00-03") =
      .ok (.timestamp (packed (written (ascii "2021-03-05 00:00:00-03")))) := by decide +kernel
  exact ⟨_, _, h1, h2, ((timestamp_order_iff true).2 _ _ _ _ h1 h2 (by decide +kernel)).mpr
    ⟨rfl, by decide +kernel, by decide +kernel, by decide +kernel⟩⟩

/-- The last day of a year is not before the first day of the next one: with assertions the comparison does not return,
without them it says no. -/
theorem new_year_comes_first : ∃ a b,
    castStringAsTimestamp (ascii "2020-12-31 00:00:00+00") = .ok (.timestamp a) ∧
    castStringAsTimestamp (ascii "2021-01-01 00:00:00+00") = .ok (.timestamp b) ∧
    Before (written (ascii "2020-12-31 00:00:00+00")) (written (ascii "2021-01-01 00:00:00+00")) ∧
    compareTimestamps false .lessThan a b = .error .assertion ∧
    compareTimestamps true .lessThan a b = .ok .cmpFalse := by
  refine ⟨packed (written (ascii "2020-12-31 00:00:00+00")), packed (written (ascii "2021-01-01 00:00:00+00")), ?_⟩
  decide +kernel

end Chronology

end Journey.SqlType
