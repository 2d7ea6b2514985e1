import Journey.Bustub.Type.Cast
import Mathlib.Data.List.OfFn
import Mathlib.Data.List.TakeWhile

/-!
# Journey.Bustub.Type.Timestamp — timestamps and their texts

A `TIMESTAMP` is one number: month, day, time zone, year, second of the day and microsecond, packed with the radices
32, 27, 10000, 100000 and 1000000.  `ValueFactory::CastAsTimestamp` reads a string of fixed positions and packs it;
`TimestampType::ToString` unpacks it.

* `castStringAsTimestamp`: the cast of a string, with all it checks.
* `written`, `unpacked`: the date and time in the string, and in the timestamp.
* `layout_of_formatted`, `sscanf_layout`: the strings with the format, and what `sscanf` reads from them.
* `timestamp_codec_iff`: the cast is undone by `ToString` exactly for the time zones from -12 to 14.
-/

namespace Journey.SqlType

/-! ## Reading -/

section Reading

/-- What a format string of `sscanf` asks for. -/
inductive Directive
  | unsigned (width : ℕ)
  | int (width : ℕ)
  | literal (b : UInt8)
  | space

/-- `%u` and `%d` with a width: white space before the number is skipped, and its sign counts. -/
def scanNumber (width : ℕ) (s : List UInt8) : Option (Int × List UInt8) :=
  let s := s.dropWhile isSpace
  let (neg, rest) := readSign s
  let ds := (rest.take (width - (s.length - rest.length))).takeWhile isDigit
  if ds.isEmpty then none else some (if neg then -(ofDigits ds : Int) else ofDigits ds, rest.drop ds.length)

/-- `sscanf`: the numbers it has stored when it stops. -/
def sscanf : List Directive → List UInt8 → List Int
  | [], _ => []
  | .unsigned width :: format, s =>
    match scanNumber width s with
    | none => []
    | some (n, rest) => n % 2 ^ 32 :: sscanf format rest
  | .int width :: format, s =>
    match scanNumber width s with
    | none => []
    | some (n, rest) => n :: sscanf format rest
  | .literal b :: format, c :: s => if c = b then sscanf format s else []
  | .literal _ :: _, [] => []
  | .space :: format, s => sscanf format (s.dropWhile isSpace)

/-- `"%4u-%2u-%2u %2u:%2u:%2u.%6u%3d"`. -/
def timestampFormat : List Directive :=
  [.unsigned 4, .literal 45, .unsigned 2, .literal 45, .unsigned 2, .space, .unsigned 2, .literal 58, .unsigned 2,
    .literal 58, .unsigned 2, .literal 46, .unsigned 6, .int 3]

/-- `is_digit`. -/
def digitAt : List Bool :=
  [true, true, true, true, false, true, true, false, true, true, false, true, true, false, true, true, false, true,
    true, false, true, true, true, true, true, true, false, true, true]

/-- The length, the separators and the digits. -/
def formatted (str : List UInt8) : Bool :=
  str.length == 29 &&
  (str[10]? == some 32 && str[4]? == some 45 && str[7]? == some 45 && str[13]? == some 58 && str[16]? == some 58 &&
    str[19]? == some 46 && (str[26]? == some 43 || str[26]? == some 45)) &&
  (digitAt.zip str).all fun (digit, b) => !digit || isDigit b

/-- `max_day` and `max_day_lunar`. -/
def maxDay (year month : ℕ) : ℕ :=
  if (year % 4 = 0 ∧ year % 100 ≠ 0) ∨ year % 400 = 0 then
    [0, 31, 29, 31, 30, 31, 30, 31, 31, 30, 31, 30, 31].getD month 0
  else [0, 31, 28, 31, 30, 31, 30, 31, 31, 30, 31, 30, 31].getD month 0

/-- The packing, in `uint64_t`. -/
def pack (month day : ℕ) (timezone : UInt32) (year hour min sec micro : ℕ) : UInt64 :=
  ((((UInt64.ofNat month * 32 + UInt64.ofNat day) * 27 + timezone.toUInt64) * 10000 + UInt64.ofNat year) * 100000 +
    UInt64.ofNat (hour * 3600 + min * 60 + sec)) * 1000000 + UInt64.ofNat micro

def timestampFormatError : Fault := .exception .invalid "Timestamp format error."

def timestampOutOfRange : Fault := .exception .outOfRange "Timestamp value out of range."

/-- A text without microseconds is given some. -/
def withMicro (str : List UInt8) : List UInt8 :=
  if str.length = 22 then str.take 19 ++ ascii ".000000" ++ (str.drop 19).take 3 else str

/-- `ValueFactory::CastAsTimestamp` of a `VARCHAR` that is not null, with the text `str`. -/
def castStringAsTimestamp (str : List UInt8) : Except Fault Value :=
  let str := withMicro str
  if !formatted str then .error timestampFormatError
  else
    match sscanf timestampFormat str with
    | [year, month, day, hour, min, sec, micro, tz] =>
      if year > 9999 ∨ month > 12 ∨ day > 31 ∨ hour > 23 ∨ min > 59 ∨ sec > 59 ∨ micro > 999999 ∨ day = 0 ∨
          month = 0 then
        .error timestampOutOfRange
      else if day.toNat > maxDay year.toNat month.toNat then .error timestampOutOfRange
      else
        let timezone := UInt32.ofInt (tz + 12)
        if tz > 26 then .error timestampFormatError
        else
          .ok (.timestamp (pack month.toNat day.toNat timezone year.toNat hour.toNat min.toNat sec.toNat micro.toNat))
    | _ => .error timestampFormatError

end Reading

/-! ## Dates and times -/

section Dates

/-- A date and a time, with its time zone. -/
structure DateTime where
  year : ℕ
  month : ℕ
  day : ℕ
  hour : ℕ
  min : ℕ
  sec : ℕ
  micro : ℕ
  tz : Int
deriving DecidableEq

/-- The digits of `str` from `lo` on. -/
def field (str : List UInt8) (lo len : ℕ) : List UInt8 := (str.drop lo).take len

/-- **The date and time written in a string.** -/
def written (str : List UInt8) : DateTime :=
  let str := withMicro str
  let zone : ℕ := ofDigits (field str 27 2)
  { year := ofDigits (field str 0 4)
    month := ofDigits (field str 5 2)
    day := ofDigits (field str 8 2)
    hour := ofDigits (field str 11 2)
    min := ofDigits (field str 14 2)
    sec := ofDigits (field str 17 2)
    micro := ofDigits (field str 20 6)
    tz := if str[26]? = some 45 then -zone else zone }

/-- The date and time in a timestamp, as `TimestampType::ToString` takes it apart. -/
def unpacked (i : UInt64) : DateTime :=
  let tm := i.toNat
  let second := tm / 1000000 % 100000
  { year := tm / 100000000000 % 10000
    month := tm / 864000000000000000 % 2 ^ 16
    day := tm / 27000000000000000 % 32
    hour := second / 3600 % 24
    min := second / 60 % 60
    sec := second % 60
    micro := tm % 1000000
    tz := (tm / 1000000000000000 % 27 : Int) - 12 }

/-- The text of a date and time. -/
def dateText (t : DateTime) : List UInt8 :=
  let date := padded 4 t.year ++ [45] ++ padded 2 t.month ++ [45] ++ padded 2 t.day ++ [32] ++ padded 2 t.hour ++
    [58] ++ padded 2 t.min ++ [58] ++ padded 2 t.sec ++ [46] ++ padded 6 t.micro
  date.take 26 ++ [if 0 ≤ t.tz then 43 else 45] ++ padded 2 t.tz.natAbs

/-- `ToString` prints what is unpacked. -/
theorem timestampText_eq {i : UInt64} (h : i ≠ timestampNull) : timestampText i = dateText (unpacked i) := if_neg h

end Dates

/-! ## The format -/

section Format

variable {str ds rest : List UInt8} {w : ℕ}

/-- Digits, of a given number. -/
structure Digits (w : ℕ) (ds : List UInt8) : Prop where
  length : ds.length = w
  digits : ∀ b ∈ ds, isDigit b = true

theorem not_space_of_digit {b : UInt8} (h : isDigit b = true) : isSpace b = false := by
  simp only [isDigit, Bool.and_eq_true, decide_eq_true_iff, UInt8.le_iff_toNat_le] at h
  simp only [isSpace, Bool.or_eq_false_iff, beq_eq_false_iff_ne, Bool.and_eq_false_iff, decide_eq_false_iff_not,
    UInt8.le_iff_toNat_le]
  refine ⟨?_, .inr ?_⟩
  · rintro rfl
    exact absurd h.1 (by decide)
  · have h9 : (48 : UInt8).toNat = 48 := rfl
    have h13 : (13 : UInt8).toNat = 13 := rfl
    omega

theorem readSign_digit {b : UInt8} (h : isDigit b = true) (s : List UInt8) : readSign (b :: s) = (false, b :: s) := by
  have hne : b ≠ 45 ∧ b ≠ 43 := by
    constructor <;> rintro rfl <;> cases h
  simp [readSign, hne]

/-- Digits at the beginning of the text, as many as the width asks for. -/
theorem scanNumber_digits (h : Digits w ds) (hw : 0 < w) :
    scanNumber w (ds ++ rest) = some ((ofDigits ds : Int), rest) := by
  obtain ⟨hlen, hdigits⟩ := h
  cases ds with
  | nil =>
    simp at hlen
    omega
  | cons b ds =>
    have hb := hdigits b (List.mem_cons_self ..)
    have htake : (b :: ds ++ rest).take w = b :: ds := by
      rw [← hlen, List.take_left]
    have hall : (b :: ds).takeWhile isDigit = b :: ds := List.takeWhile_eq_self_iff.mpr hdigits
    unfold scanNumber
    rw [List.cons_append, List.dropWhile_cons_of_neg (by rw [not_space_of_digit hb]; exact Bool.false_ne_true)]
    dsimp only
    rw [readSign_digit hb]
    dsimp only
    rw [Nat.sub_self, Nat.sub_zero, ← List.cons_append, htake, hall]
    simp

/-- A sign and two digits. -/
theorem scanNumber_zone {sign : UInt8} (hsign : sign = 43 ∨ sign = 45) (h : Digits 2 ds) :
    scanNumber 3 (sign :: ds) = some (if sign = 45 then -(ofDigits ds : Int) else ofDigits ds, []) := by
  obtain ⟨hlen, hdigits⟩ := h
  have htake : ds.take 2 = ds := List.take_of_length_le (by omega)
  have hall : ds.takeWhile isDigit = ds := List.takeWhile_eq_self_iff.mpr hdigits
  have hne : ds ≠ [] := List.ne_nil_of_length_pos (by omega)
  have hread : readSign (sign :: ds) = (decide (sign = 45), ds) := by
    rcases hsign with rfl | rfl <;> simp [readSign]
  unfold scanNumber
  rw [List.dropWhile_cons_of_neg (by rcases hsign with rfl | rfl <;> decide)]
  dsimp only
  rw [hread]
  simp [htake, hall, hne]

/-- What digits denote. -/
theorem Digits.ofDigits_lt (h : Digits w ds) : ofDigits ds < 10 ^ w := by
  have hfold : ∀ (ds : List UInt8) (n k : ℕ), (∀ b ∈ ds, isDigit b = true) → n < 10 ^ k →
      ds.foldl (fun n d => 10 * n + (d.toNat - 48)) n < 10 ^ (k + ds.length) := by
    intro ds
    induction ds with
    | nil => exact fun n k _ hn => hn
    | cons b ds ih =>
      intro n k hdigits hn
      have hb := hdigits b (List.mem_cons_self ..)
      simp only [isDigit, Bool.and_eq_true, decide_eq_true_iff, UInt8.le_iff_toNat_le] at hb
      have h57 : (57 : UInt8).toNat = 57 := rfl
      have hnext : 10 * n + (b.toNat - 48) < 10 ^ (k + 1) := by
        rw [pow_succ]
        omega
      have hrest := ih _ _ (fun c hc => hdigits c (List.mem_cons_of_mem _ hc)) hnext
      rw [List.foldl_cons, List.length_cons]
      rwa [show k + (ds.length + 1) = k + 1 + ds.length by omega]
  have hlt := hfold ds 0 0 h.digits (by omega)
  rwa [h.length, Nat.zero_add] at hlt

/-- **The text of a timestamp, field by field.** -/
structure Layout (str y mo d h mi s us : List UInt8) (sign : UInt8) (z : List UInt8) : Prop where
  text : str = y ++ 45 :: (mo ++ 45 :: (d ++ 32 :: (h ++ 58 :: (mi ++ 58 :: (s ++ 46 :: (us ++ sign :: z))))))
  year : Digits 4 y
  month : Digits 2 mo
  day : Digits 2 d
  hour : Digits 2 h
  min : Digits 2 mi
  sec : Digits 2 s
  micro : Digits 6 us
  sign : sign = 43 ∨ sign = 45
  zone : Digits 2 z

variable {y mo d h mi s us z : List UInt8} {sign : UInt8}

/-- What `sscanf` reads. -/
theorem sscanf_layout (hl : Layout str y mo d h mi s us sign z) :
    sscanf timestampFormat str = [(ofDigits y : Int), (ofDigits mo : Int), (ofDigits d : Int), (ofDigits h : Int),
      (ofDigits mi : Int), (ofDigits s : Int), (ofDigits us : Int),
      if sign = 45 then -(ofDigits z : Int) else ofDigits z] := by
  have hspace : ∀ rest, (32 :: (h ++ rest)).dropWhile isSpace = h ++ rest := by
    intro rest
    obtain ⟨hlen, hdigits⟩ := hl.hour
    cases h with
    | nil => cases hlen
    | cons b h =>
      rw [List.dropWhile_cons_of_pos (by decide), List.cons_append, List.dropWhile_cons_of_neg]
      rw [not_space_of_digit (hdigits b (List.mem_cons_self ..))]
      exact Bool.false_ne_true
  have hmod : ∀ {w : ℕ} {ds : List UInt8}, Digits w ds → w ≤ 6 → (ofDigits ds : Int) % 2 ^ 32 = ofDigits ds := by
    intro w ds hds hw
    have hlt := hds.ofDigits_lt
    have hle : (10 : ℕ) ^ w ≤ 10 ^ 6 := Nat.pow_le_pow_right (by omega) hw
    omega
  rw [hl.text, timestampFormat]
  simp only [sscanf, scanNumber_digits hl.year (by omega), scanNumber_digits hl.month (by omega),
    scanNumber_digits hl.day (by omega), hspace, scanNumber_digits hl.hour (by omega),
    scanNumber_digits hl.min (by omega), scanNumber_digits hl.sec (by omega), scanNumber_digits hl.micro (by omega),
    scanNumber_zone hl.sign hl.zone, if_true, hmod hl.year (by omega), hmod hl.month (by omega),
    hmod hl.day (by omega), hmod hl.hour (by omega), hmod hl.min (by omega), hmod hl.sec (by omega),
    hmod hl.micro (by omega)]

theorem exists_ofFn {α : Type} {l : List α} {n : ℕ} (h : l.length = n) : ∃ f : Fin n → α, l = List.ofFn f := by
  subst h
  exact ⟨l.get, (List.ofFn_get l).symm⟩

/-- Where the fields of a text stand. -/
theorem layout_spec (hl : Layout str y mo d h mi s us sign z) :
    (str.length = 29 ∧ formatted str = true) ∧ field str 0 4 = y ∧ field str 5 2 = mo ∧ field str 8 2 = d ∧
      field str 11 2 = h ∧ field str 14 2 = mi ∧ field str 17 2 = s ∧ field str 20 6 = us ∧ str[26]? = some sign ∧
      field str 27 2 = z := by
  obtain ⟨rfl, ⟨hy, hyd⟩, ⟨hmo, hmod⟩, ⟨hd, hdd⟩, ⟨hh, hhd⟩, ⟨hmi, hmid⟩, ⟨hs, hsd⟩, ⟨hus, husd⟩, hsign, hz, hzd⟩ := hl
  obtain ⟨fy, rfl⟩ := exists_ofFn hy
  obtain ⟨fmo, rfl⟩ := exists_ofFn hmo
  obtain ⟨fd, rfl⟩ := exists_ofFn hd
  obtain ⟨fh, rfl⟩ := exists_ofFn hh
  obtain ⟨fmi, rfl⟩ := exists_ofFn hmi
  obtain ⟨fs, rfl⟩ := exists_ofFn hs
  obtain ⟨fus, rfl⟩ := exists_ofFn hus
  obtain ⟨fz, rfl⟩ := exists_ofFn hz
  simp only [List.forall_mem_ofFn_iff] at hyd hmod hdd hhd hmid hsd husd hzd
  refine ⟨⟨?_, ?_⟩, ?_⟩
  · simp
  · simp [formatted, List.ofFn_succ, digitAt, hyd, hmod, hdd, hhd, hmid, hsd, husd, hzd, hsign]
  · simp [field, List.ofFn_succ]

/-- **The strings with the format.** -/
theorem layout_of_formatted (hf : formatted str = true) :
    ∃ y mo d h mi s us sign z, Layout str y mo d h mi s us sign z := by
  simp only [formatted, Bool.and_eq_true, beq_iff_eq, Bool.or_eq_true] at hf
  obtain ⟨⟨hlen, hseps⟩, hdigits⟩ := hf
  obtain ⟨f, rfl⟩ := exists_ofFn hlen
  simp [List.ofFn_succ, digitAt] at hseps hdigits
  refine ⟨[f 0, f 1, f 2, f 3], [f 5, f 6], [f 8, f 9], [f 11, f 12], [f 14, f 15], [f 17, f 18],
    [f 20, f 21, f 22, f 23, f 24, f 25], f 26, [f 27, f 28], ?_, ?_, ?_, ?_, ?_, ?_, ?_, ?_, hseps.2, ?_⟩
  · simp [List.ofFn_succ, hseps]
  all_goals exact ⟨rfl, by simp [hdigits]⟩

end Format

/-! ## Numbers as digits -/

section Padded

theorem toNat_of_isDigit {c : Char} (h : c.isDigit = true) : 48 ≤ c.toNat ∧ c.toNat ≤ 57 := by
  simp only [Char.isDigit, Bool.and_eq_true, decide_eq_true_iff, UInt32.le_iff_toNat_le] at h
  exact h

theorem toNat_byte {c : Char} (h : c.isDigit = true) : (UInt8.ofNat c.toNat).toNat = c.toNat := by
  have hc := toNat_of_isDigit h
  exact UInt8.toNat_ofNat_of_lt' (show c.toNat < 2 ^ 8 by omega)

/-- The bytes of decimal digits denote what the digits do. -/
theorem ofDigits_bytes {cs : List Char} (h : ∀ c ∈ cs, c.isDigit = true) :
    ofDigits (cs.map fun c => UInt8.ofNat c.toNat) = Nat.ofDigitChars 10 cs 0 := by
  unfold ofDigits
  rw [List.foldl_map, Nat.ofDigitChars_eq_foldl]
  refine List.foldl_ext _ _ _ ?_
  intro n c hc
  rw [toNat_byte (h c hc)]
  rfl

theorem padded_eq (k n : ℕ) : padded k n =
    (List.replicate (k - (Nat.toDigits 10 n).length) '0' ++ Nat.toDigits 10 n).map fun c => UInt8.ofNat c.toNat := by
  have htext : ascii (toString n) = (Nat.toDigits 10 n).map fun c => UInt8.ofNat c.toNat := by
    rw [ascii, Nat.toString_eq_repr, Nat.toList_repr]
  unfold padded
  dsimp only
  rw [htext, List.map_append, List.map_replicate, List.length_map]
  rfl

/-- **A number that is printed with enough digits is read back.** -/
theorem padded_digits {k n : ℕ} (hk : 0 < k) (h : n < 10 ^ k) : Digits k (padded k n) ∧ ofDigits (padded k n) = n := by
  have hlen : (Nat.toDigits 10 n).length ≤ k := (Nat.length_toDigits_le_iff (by omega) hk).mpr h
  have hdigits : ∀ c ∈ List.replicate (k - (Nat.toDigits 10 n).length) '0' ++ Nat.toDigits 10 n, c.isDigit = true := by
    intro c hc
    rcases List.mem_append.mp hc with hc | hc
    · rw [(List.mem_replicate.mp hc).2]
      rfl
    · exact Nat.isDigit_of_mem_toDigits (by omega) (by omega) hc
  rw [padded_eq]
  refine ⟨⟨?_, ?_⟩, ?_⟩
  · simp
    omega
  · intro b hb
    obtain ⟨c, hc, rfl⟩ := List.mem_map.mp hb
    have hbound := toNat_of_isDigit (hdigits c hc)
    simp only [isDigit, Bool.and_eq_true, decide_eq_true_iff, UInt8.le_iff_toNat_le, toNat_byte (hdigits c hc)]
    exact hbound
  · rw [ofDigits_bytes hdigits, Nat.ofDigitChars_append, Nat.ofDigitChars_replicate_zero, Nat.mul_zero,
      Nat.ofDigitChars_ten_toDigits]

end Padded

/-! ## Packing -/

section Packing

variable {t : DateTime}

/-- The timestamp of a date and time. -/
def packed (t : DateTime) : UInt64 :=
  pack t.month t.day (UInt32.ofInt (t.tz + 12)) t.year t.hour t.min t.sec t.micro

/-- What the cast lets through. -/
structure Valid (t : DateTime) : Prop where
  year : t.year ≤ 9999
  month : 1 ≤ t.month ∧ t.month ≤ 12
  day : 1 ≤ t.day ∧ t.day ≤ maxDay t.year t.month
  hour : t.hour ≤ 23
  min : t.min ≤ 59
  sec : t.sec ≤ 59
  micro : t.micro ≤ 999999
  tz : t.tz ≤ 26

theorem maxDay_le (year month : ℕ) : maxDay year month ≤ 31 := by
  have hlist : ∀ l : List ℕ, (∀ n ∈ l, n ≤ 31) → l.getD month 0 ≤ 31 := by
    intro l hl
    rw [List.getD_eq_getElem?_getD]
    cases hn : l[month]? with
    | none => exact Nat.zero_le _
    | some n => exact hl n (List.mem_of_getElem? hn)
  unfold maxDay
  split_ifs
  · exact hlist _ (by decide)
  · exact hlist _ (by decide)

/-- The number that is packed, modulo `2 ^ 64`. -/
theorem packed_eq_ofNat (t : DateTime) :
    packed t = UInt64.ofNat (((((t.month * 32 + t.day) * 27 + ((t.tz + 12) % 2 ^ 32).toNat) * 10000 + t.year) * 100000 +
      (t.hour * 3600 + t.min * 60 + t.sec)) * 1000000 + t.micro) := by
  have hzone : (UInt32.ofInt (t.tz + 12)).toUInt64 = UInt64.ofNat ((t.tz + 12) % 2 ^ 32).toNat := by
    have hlt : ((t.tz + 12) % 2 ^ 32).toNat < 2 ^ 32 := by omega
    rw [UInt32.ofInt, UInt32.toUInt64_ofNat' hlt]
  unfold packed pack
  rw [hzone]
  simp only [UInt64.ofNat_add, UInt64.ofNat_mul]
  rfl

/-- The number that is packed: in the time zones that fit, nothing is lost. -/
theorem toNat_packed (hv : Valid t) (hlo : -12 ≤ t.tz) (hhi : t.tz ≤ 14) :
    (packed t).toNat = ((((t.month * 32 + t.day) * 27 + (t.tz + 12).toNat) * 10000 + t.year) * 100000 +
      (t.hour * 3600 + t.min * 60 + t.sec)) * 1000000 + t.micro := by
  obtain ⟨hyear, hmonth, hday, hhour, hmin, hsec, hmicro, -⟩ := hv
  have hmax := maxDay_le t.year t.month
  obtain ⟨z, hz⟩ := Int.eq_ofNat_of_zero_le (show 0 ≤ t.tz + 12 by omega)
  have hmod : ((z : Int) % 2 ^ 32).toNat = z := by omega
  rw [packed_eq_ofNat, hz, hmod, Int.toNat_natCast, UInt64.toNat_ofNat_of_lt']
  show _ < 2 ^ 64
  omega

theorem radix {a b k : ℕ} (hb : b < k) : (a * k + b) / k = a ∧ (a * k + b) % k = b := by
  constructor
  · rw [Nat.add_comm, Nat.add_mul_div_right _ _ (by omega), Nat.div_eq_of_lt hb, Nat.zero_add]
  · rw [Nat.add_comm, Nat.add_mul_mod_self_right, Nat.mod_eq_of_lt hb]

theorem clock {hour min sec : ℕ} (hhour : hour ≤ 23) (hmin : min ≤ 59) (hsec : sec ≤ 59) :
    (hour * 3600 + min * 60 + sec) / 3600 % 24 = hour ∧ (hour * 3600 + min * 60 + sec) / 60 % 60 = min ∧
      (hour * 3600 + min * 60 + sec) % 60 = sec := by
  omega

/-- **What is packed is unpacked**, in the time zones that fit. -/
theorem unpacked_packed (hv : Valid t) (hlo : -12 ≤ t.tz) (hhi : t.tz ≤ 14) : unpacked (packed t) = t := by
  have hnat := toNat_packed hv hlo hhi
  obtain ⟨hyear, hmonth, hday, hhour, hmin, hsec, hmicro, -⟩ := hv
  have hmax := maxDay_le t.year t.month
  obtain ⟨z, hz⟩ := Int.eq_ofNat_of_zero_le (show 0 ≤ t.tz + 12 by omega)
  rw [hz, Int.toNat_natCast] at hnat
  obtain ⟨second, hsecond⟩ : ∃ n, n = t.hour * 3600 + t.min * 60 + t.sec := ⟨_, rfl⟩
  rw [← hsecond] at hnat
  -- one radix after another, from the microseconds up
  obtain ⟨hdiv1, hmod1⟩ := radix (a := (((t.month * 32 + t.day) * 27 + z) * 10000 + t.year) * 100000 + second)
    (show t.micro < 1000000 by omega)
  obtain ⟨hdiv2, hmod2⟩ := radix (a := ((t.month * 32 + t.day) * 27 + z) * 10000 + t.year)
    (show second < 100000 by omega)
  obtain ⟨hdiv3, hmod3⟩ := radix (a := (t.month * 32 + t.day) * 27 + z) (show t.year < 10000 by omega)
  obtain ⟨hdiv4, hmod4⟩ := radix (a := t.month * 32 + t.day) (show z < 27 by omega)
  obtain ⟨hdiv5, hmod5⟩ := radix (a := t.month) (show t.day < 32 by omega)
  have hdivs : ∀ n : ℕ, n / 100000000000 = n / 1000000 / 100000 ∧
      n / 1000000000000000 = n / 1000000 / 100000 / 10000 ∧
      n / 27000000000000000 = n / 1000000 / 100000 / 10000 / 27 ∧
      n / 864000000000000000 = n / 1000000 / 100000 / 10000 / 27 / 32 := by
    intro n
    simp only [Nat.div_div_eq_div_mul, Nat.reduceMul, and_self]
  obtain ⟨hyears, hzones, hdays, hmonths⟩ := hdivs (packed t).toNat
  have hzone : (((packed t).toNat : Int) / 1000000000000000 % 27) = z := by
    have hcast : (((packed t).toNat / 1000000000000000 % 27 : ℕ) : Int) = z := by
      rw [hzones, hnat, hdiv1, hdiv2, hdiv3, hmod4]
    exact_mod_cast hcast
  have hpast : t.month < 2 ^ 16 := by omega
  obtain ⟨hh, hm, hs⟩ := clock hhour hmin hsec
  unfold unpacked
  dsimp only
  rw [hzone, hyears, hdays, hmonths, hnat, hdiv1, hmod1, hdiv2, hmod2, hdiv3, hmod3, hdiv4, hdiv5, hmod5,
    Nat.mod_eq_of_lt hpast, hsecond, hh, hm, hs, ← hz]
  simp

/-- No other time zone comes out. -/
theorem unpacked_tz (i : UInt64) : -12 ≤ (unpacked i).tz ∧ (unpacked i).tz ≤ 14 := by
  unfold unpacked
  dsimp only
  omega

end Packing

/-! ## The codec -/

section Codec

variable {str : List UInt8} {v : Value} {t : DateTime}

/-- **What the cast accepts**, and what it makes of it. -/
theorem castStringAsTimestamp_iff : castStringAsTimestamp str = .ok v ↔
    formatted (withMicro str) = true ∧ Valid (written str) ∧ v = .timestamp (packed (written str)) := by
  unfold castStringAsTimestamp
  dsimp only
  by_cases hf : formatted (withMicro str) = true
  · obtain ⟨y, mo, d, h, mi, s, us, sign, z, hl⟩ := layout_of_formatted hf
    obtain ⟨-, hy, hmo, hd, hh, hmi, hs, hus, hsign, hz⟩ := layout_spec hl
    have hwritten : written str = ⟨ofDigits y, ofDigits mo, ofDigits d, ofDigits h, ofDigits mi, ofDigits s,
        ofDigits us, if sign = 45 then -(ofDigits z : Int) else ofDigits z⟩ := by
      unfold written
      dsimp only
      rw [hy, hmo, hd, hh, hmi, hs, hus, hsign, hz]
      simp only [Option.some.injEq]
    rw [sscanf_layout hl, hwritten]
    simp only [hf, Bool.not_true, Bool.false_eq_true, if_false, Int.toNat_natCast, true_and]
    generalize (if sign = 45 then -(ofDigits z : Int) else (ofDigits z : Int)) = tz
    constructor
    · intro hok
      split_ifs at hok with hrange hday htz
      cases hok
      refine ⟨⟨?_, ?_, ?_, ?_, ?_, ?_, ?_, ?_⟩, rfl⟩ <;> dsimp only <;> omega
    · rintro ⟨hv, rfl⟩
      obtain ⟨hyear, hmonth, hday, hhour, hmin, hsec, hmicro, htz⟩ := hv
      dsimp only at hyear hmonth hday hhour hmin hsec hmicro htz
      have hmax := maxDay_le (ofDigits y) (ofDigits mo)
      rw [if_neg (by omega), if_neg (by omega), if_neg (by omega)]
      rfl
  · simp [hf]

/-- The text of a date and time has the format, and gives it back. -/
theorem dateText_layout (hv : Valid t) (htz : t.tz.natAbs ≤ 99) :
    formatted (dateText t) = true ∧ withMicro (dateText t) = dateText t ∧ written (dateText t) = t := by
  obtain ⟨hyear, hmonth, hday, hhour, hmin, hsec, hmicro, -⟩ := hv
  have hmax := maxDay_le t.year t.month
  obtain ⟨hy, hyn⟩ := padded_digits (k := 4) (n := t.year) (by omega) (by omega)
  obtain ⟨hmo, hmon⟩ := padded_digits (k := 2) (n := t.month) (by omega) (by omega)
  obtain ⟨hd, hdn⟩ := padded_digits (k := 2) (n := t.day) (by omega) (by omega)
  obtain ⟨hh, hhn⟩ := padded_digits (k := 2) (n := t.hour) (by omega) (by omega)
  obtain ⟨hmi, hmin'⟩ := padded_digits (k := 2) (n := t.min) (by omega) (by omega)
  obtain ⟨hs, hsn⟩ := padded_digits (k := 2) (n := t.sec) (by omega) (by omega)
  obtain ⟨hus, husn⟩ := padded_digits (k := 6) (n := t.micro) (by omega) (by omega)
  obtain ⟨hz, hzn⟩ := padded_digits (k := 2) (n := t.tz.natAbs) (by omega) (by omega)
  have hl : Layout (dateText t) (padded 4 t.year) (padded 2 t.month) (padded 2 t.day) (padded 2 t.hour)
      (padded 2 t.min) (padded 2 t.sec) (padded 6 t.micro) (if 0 ≤ t.tz then 43 else 45) (padded 2 t.tz.natAbs) := by
    refine ⟨?_, hy, hmo, hd, hh, hmi, hs, hus, ?_, hz⟩
    · unfold dateText
      dsimp only
      rw [List.take_of_length_le]
      · simp
      · simp only [List.length_append, List.length_singleton, hy.length, hmo.length, hd.length, hh.length, hmi.length,
          hs.length, hus.length]
        omega
    · split_ifs <;> simp
  obtain ⟨⟨hlen, hf⟩, fy, fmo, fd, fh, fmi, fs, fus, hsign, fz⟩ := layout_spec hl
  have hmicros : withMicro (dateText t) = dateText t := if_neg (by omega)
  refine ⟨hf, hmicros, ?_⟩
  unfold written
  dsimp only
  rw [hmicros, fy, fmo, fd, fh, fmi, fs, fus, fz, hsign, hyn, hmon, hdn, hhn, hmin', hsn, husn, hzn]
  have hzone : (if some (if 0 ≤ t.tz then (43 : UInt8) else 45) = some 45 then -(t.tz.natAbs : Int)
      else (t.tz.natAbs : Int)) = t.tz := by
    by_cases h : 0 ≤ t.tz
    · rw [if_pos h, if_neg (by decide)]
      omega
    · rw [if_neg h, if_pos rfl]
      omega
  rw [hzone]

/-- **Timestamps and their texts.**  For every string that the cast accepts: taking the timestamp apart as `ToString`
does gives what is written in the string, and its text is cast to the same timestamp, exactly if the time zone is from
-12 to 14. -/
theorem timestamp_codec_iff (h : castStringAsTimestamp str = .ok v) :
    ∃ i, v = .timestamp i ∧
      (unpacked i = written str ∧ castStringAsTimestamp (timestampText i) = .ok (.timestamp i) ↔
        -12 ≤ (written str).tz ∧ (written str).tz ≤ 14) := by
  obtain ⟨-, hv, rfl⟩ := castStringAsTimestamp_iff.mp h
  refine ⟨packed (written str), rfl, ?_, ?_⟩
  · rintro ⟨hsame, -⟩
    rw [← hsame]
    exact unpacked_tz _
  · rintro ⟨hlo, hhi⟩
    have hback := unpacked_packed hv hlo hhi
    refine ⟨hback, ?_⟩
    have hnat := toNat_packed hv hlo hhi
    have hnull : packed (written str) ≠ timestampNull := by
      intro hnull
      have hmax : timestampNull.toNat = 18446744073709551615 := rfl
      rw [hnull, hmax] at hnat
      obtain ⟨hyear, hmonth, hday, hhour, hmin, hsec, hmicro, -⟩ := hv
      have hdays := maxDay_le (written str).year (written str).month
      omega
    obtain ⟨hf, hmicro, hwritten⟩ := dateText_layout hv (by omega)
    rw [timestampText_eq hnull, hback, castStringAsTimestamp_iff, hmicro, hwritten]
    exact ⟨hf, hv, rfl⟩

/-- A text without microseconds. -/
theorem timestamp_codec_iff_short : ∃ i, castStringAsTimestamp (ascii "2021-03-04 05:06:07-03") = .ok (.timestamp i) ∧
    unpacked i = ⟨2021, 3, 4, 5, 6, 7, 0, -3⟩ ∧ castStringAsTimestamp (timestampText i) = .ok (.timestamp i) := by
  have hok : castStringAsTimestamp (ascii "2021-03-04 05:06:07-03") = .ok (.timestamp 2709202118367000000) := by
    decide +kernel
  have hwritten : written (ascii "2021-03-04 05:06:07-03") = ⟨2021, 3, 4, 5, 6, 7, 0, -3⟩ := by decide +kernel
  obtain ⟨i, hi, hiff⟩ := timestamp_codec_iff hok
  cases hi
  obtain ⟨hsame, hback⟩ := hiff.mpr (by rw [hwritten]; decide)
  exact ⟨_, hok, hsame.trans hwritten, hback⟩

/-- The time zone `+15` goes over into the day: `2021-03-04` becomes `2021-03-05`, in the time zone -12. -/
theorem timezone_carries : ¬ ∀ (str : List UInt8) (i : UInt64), castStringAsTimestamp str = .ok (.timestamp i) →
    unpacked i = written str ∧ castStringAsTimestamp (timestampText i) = .ok (.timestamp i) := by
  intro hclaim
  have hok : castStringAsTimestamp (ascii "2021-03-04 05:06:07.000008+15") = .ok (.timestamp 2727202118367000008) := by
    decide +kernel
  exact absurd (hclaim _ _ hok).1 (by decide +kernel)

end Codec

end Journey.SqlType
