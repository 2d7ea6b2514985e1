import Journey.Bustub.Type.Coherence

/-!
# Journey.Bustub.Type.Hash — hashes of values

`HashUtil` hashes the bytes of a value's own representation: eight for every integer, one for a boolean, those behind
the pointer for a string, its terminator among them.

* `hashValue`: the hash of a value.
* `hashBytes_concat_inj`: byte strings that differ in the last byte have different hashes.
* `equal_values_hash`: equal values have equal hashes if neither is a string, or both are and end alike; for a string
  and another type there are always equal values with different hashes.
-/

namespace Journey.SqlType

/-! ## `HashUtil` -/

section HashUtil

namespace HashUtil

/-- One round of `HashBytes`: the byte is extended with its sign. -/
def hashByte (hash : UInt64) (byte : UInt8) : UInt64 :=
  ((hash <<< 5) ^^^ (hash >>> 27)) ^^^ byte.toInt8.toInt64.toUInt64

/-- `HashBytes`. -/
def hashBytes (bytes : List UInt8) : UInt64 := bytes.foldl hashByte (UInt64.ofNat bytes.length)

/-- `CombineHashes`: the bytes of both. -/
def combineHashes (l r : UInt64) : UInt64 := hashBytes (toLE 8 l.toNat ++ toLE 8 r.toNat)

/-- `Hash<int64_t>`. -/
def hashInt64 (raw : Int64) : UInt64 := hashBytes (toLE 8 raw.toUInt64.toNat)

/-- `HashValue`. -/
def hashValue : Value → Except Fault UInt64
  | .tinyint i => .ok (hashInt64 i.toInt64)
  | .smallint i => .ok (hashInt64 i.toInt64)
  | .integer i => .ok (hashInt64 i.toInt64)
  | .bigint i => .ok (hashInt64 i)
  | .boolean i => .ok (hashBytes [i.toUInt8])
  | .decimal bits => .ok (hashBytes (toLE 8 bits.toNat))
  | .varchar (some data) => .ok (hashBytes data.1)
  -- behind the null pointer
  | .varchar none => .error .outOfBounds
  | .timestamp i => .ok (hashBytes (toLE 8 i.toNat))
  | _ => .error (.logicError "Unsupported type.")

end HashUtil

open HashUtil

variable {bytes : List UInt8} {b c : UInt8}

theorem hashByte_inj {hash : UInt64} (h : hashByte hash b = hashByte hash c) : b = c := by
  unfold hashByte at h
  have hsigned : b.toInt8.toInt64 = c.toInt8.toInt64 := by
    have hxor := congrArg (((hash <<< 5) ^^^ (hash >>> 27)) ^^^ ·) h
    simp only [← UInt64.xor_assoc, UInt64.xor_self, UInt64.zero_xor] at hxor
    have hback := congrArg UInt64.toInt64 hxor
    rwa [Int64.toInt64_toUInt64, Int64.toInt64_toUInt64] at hback
  have hint := congrArg Int64.toInt hsigned
  rw [Int8.toInt_toInt64, Int8.toInt_toInt64] at hint
  have h8 := congrArg Int8.toUInt8 (Int8.toInt_inj.mp hint)
  rwa [UInt8.toUInt8_toInt8, UInt8.toUInt8_toInt8] at h8

/-- **Byte strings that differ only in the last byte have different hashes.** -/
theorem hashBytes_concat_inj : hashBytes (bytes ++ [b]) = hashBytes (bytes ++ [c]) ↔ b = c := by
  constructor
  · intro h
    unfold hashBytes at h
    rw [List.foldl_append, List.foldl_append, List.length_append, List.length_append] at h
    exact hashByte_inj h
  · rintro rfl
    rfl

end HashUtil

/-! ## Equal values -/

section Equal

open Value HashUtil

variable {a b : Value}

/-- Strings end with the same byte. -/
def EndAlike : Value → Value → Prop
  | .varchar (some l), .varchar (some r) => l.1.getLast? = r.1.getLast?
  | _, _ => True

/-- The hash of an integer is that of its number. -/
theorem hashValue_number (hexact : isExact a.getTypeId = true) (hbool : a.getTypeId ≠ .boolean)
    (hstring : a.getTypeId ≠ .varchar) : hashValue a = .ok (hashInt64 (Int64.ofInt a.number)) := by
  cases a with
  | boolean i => exact absurd rfl hbool
  | varchar data => exact absurd rfl hstring
  | tinyint i => exact congrArg (fun raw => Except.ok (hashInt64 raw)) (Int64.ofInt_int8ToInt i).symm
  | smallint i => exact congrArg (fun raw => Except.ok (hashInt64 raw)) (Int64.ofInt_int16ToInt i).symm
  | integer i => exact congrArg (fun raw => Except.ok (hashInt64 raw)) (Int64.ofInt_int32ToInt i).symm
  | bigint i => exact congrArg (fun raw => Except.ok (hashInt64 raw)) (Int64.ofInt_toInt i).symm
  | _ => cases hexact

/-- Values are equal by the ordering of what they hold. -/
theorem exactOrder_of_equal (ha : isExact a.getTypeId = true) (hb : isExact b.getTypeId = true)
    (h : a.compareEquals b = .ok .cmpTrue) : a.checkComparable b = true ∧ exactOrder a b = .ok .eq := by
  unfold compareEquals at h
  rw [compare_eq_ordering ha hb] at h
  cases ho : a.ordering b with
  | error e =>
    rw [ho] at h
    cases h
  | ok o =>
    rw [ho] at h
    rcases o with _ | _ | _ | _
    · cases h
    · cases h
    · exact ordering_eq_some ho
    · cases h

/-- Equal values, neither of them a string. -/
theorem hash_number (ha : isExact a.getTypeId = true) (hb : isExact b.getTypeId = true)
    (has : a.getTypeId ≠ .varchar) (hbs : b.getTypeId ≠ .varchar) (h : a.compareEquals b = .ok .cmpTrue) :
    hashValue a = hashValue b := by
  obtain ⟨hc, horder⟩ := exactOrder_of_equal ha hb h
  rw [exactOrder_number ha hb has hbs hc] at horder
  have hnumber : a.number = b.number := Std.LawfulEqOrd.compare_eq_iff_eq.mp (Except.ok.inj horder)
  by_cases hbool : a.getTypeId = .boolean
  · cases a with
    | boolean i =>
      cases b with
      | boolean j => rw [Int8.toInt_inj.mp hnumber]
      | varchar data => exact absurd rfl hbs
      | _ => cases hc
    | _ => cases hbool
  · have hbool' : b.getTypeId ≠ .boolean := by
      intro hb'
      unfold checkComparable at hc
      rw [hb'] at hc
      cases a <;> simp_all [isNumeric, getTypeId]
    rw [hashValue_number ha hbool has, hashValue_number hb hbool' hbs, hnumber]

/-- Equal strings differ at most in the last byte. -/
theorem bytes_of_equal {l r : Varlen} (h : (varchar (some l)).compareEquals (varchar (some r)) = .ok .cmpTrue) :
    ∃ bytes x y, l.1 = bytes ++ [x] ∧ r.1 = bytes ++ [y] := by
  obtain ⟨-, horder⟩ := exactOrder_of_equal rfl rfl h
  replace horder : compareStrings (some l) (some r) = .ok .eq := horder
  unfold compareStrings at horder
  dsimp only at horder
  split_ifs at horder with hlen
  · have hl : l.1 ≠ [] := List.ne_nil_of_length_pos (by omega)
    have hr : r.1 ≠ [] := List.ne_nil_of_length_pos (by omega)
    have hsame : l.1.dropLast = r.1.dropLast := Std.LawfulEqOrd.compare_eq_iff_eq.mp (Except.ok.inj horder)
    refine ⟨l.1.dropLast, l.1.getLast hl, r.1.getLast hr, (List.dropLast_append_getLast hl).symm, ?_⟩
    rw [hsame]
    exact (List.dropLast_append_getLast hr).symm

/-- Equal strings. -/
theorem hash_string {data data' : Option Varlen} (h : (varchar data).compareEquals (varchar data') = .ok .cmpTrue) :
    hashValue (varchar data) = hashValue (varchar data') ↔ EndAlike (varchar data) (varchar data') := by
  obtain ⟨hnull, hnull'⟩ := not_null_of_compare_equal h
  cases data with
  | none => cases hnull
  | some l =>
    cases data' with
    | none => cases hnull'
    | some r =>
      obtain ⟨bytes, x, y, hl, hr⟩ := bytes_of_equal h
      show (Except.ok _ = Except.ok _) ↔ l.1.getLast? = r.1.getLast?
      rw [hl, hr, Except.ok.injEq, hashBytes_concat_inj, List.getLast?_concat, List.getLast?_concat,
        Option.some.injEq]

/-- A value that a string is equal to, from both sides. -/
def one : TypeId → Value
  | .boolean => .boolean 1
  | .tinyint => .tinyint 1
  | .smallint => .smallint 1
  | .integer => .integer 1
  | _ => .bigint 1

def oneText : TypeId → Value
  | .boolean => stringValue (ascii "true")
  | _ => stringValue (ascii "1")

theorem one_equals_text {type : TypeId} (hexact : isExact type = true) (hstring : type ≠ .varchar) :
    (one type).getTypeId = type ∧ (one type).compareEquals (oneText type) = .ok .cmpTrue ∧
      (oneText type).compareEquals (one type) = .ok .cmpTrue ∧ hashValue (one type) ≠ hashValue (oneText type) := by
  cases type with
  | varchar => exact absurd rfl hstring
  | boolean | tinyint | smallint | integer | bigint => decide +kernel
  | _ => cases hexact

/-- Equal values of kinds that go together: the hashes are equal exactly if strings end alike. -/
theorem hash_alike_iff (ha : isExact a.getTypeId = true) (hb : isExact b.getTypeId = true)
    (hkind : a.getTypeId = .varchar ↔ b.getTypeId = .varchar) (h : a.compareEquals b = .ok .cmpTrue) :
    hashValue a = hashValue b ↔ EndAlike a b := by
  by_cases hs : a.getTypeId = .varchar
  · cases a with
    | varchar data =>
      cases b with
      | varchar data' => exact hash_string h
      | _ => cases hkind.mp rfl
    | _ => cases hs
  · have hend : EndAlike a b := by
      cases a with
      | varchar data => exact absurd rfl hs
      | _ => trivial
    exact iff_of_true (hash_number ha hb hs (fun hb' => hs (hkind.mpr hb')) h) hend

/-- **Equal values and their hashes.**  For the integer types, `BOOLEAN` and `VARCHAR`: all equal values of two types
have equal hashes exactly if both or neither are `VARCHAR`, and then, value by value, if strings end alike. -/
theorem equal_values_hash (s t : TypeId) (hs : isExact s = true) (ht : isExact t = true) :
    ((∀ a b, a.getTypeId = s → b.getTypeId = t → EndAlike a b → a.compareEquals b = .ok .cmpTrue →
      hashValue a = hashValue b) ↔ (s = .varchar ↔ t = .varchar)) ∧
    ∀ a b, a.getTypeId = s → b.getTypeId = t → (s = .varchar ↔ t = .varchar) → a.compareEquals b = .ok .cmpTrue →
      (hashValue a = hashValue b ↔ EndAlike a b) := by
  have hvalues : ∀ a b, a.getTypeId = s → b.getTypeId = t → (s = .varchar ↔ t = .varchar) →
      a.compareEquals b = .ok .cmpTrue → (hashValue a = hashValue b ↔ EndAlike a b) := by
    rintro a b rfl rfl hkind h
    exact hash_alike_iff hs ht hkind h
  refine ⟨⟨?_, ?_⟩, hvalues⟩
  · intro hall
    have htext : ∀ type, (oneText type).getTypeId = .varchar := by
      intro type
      cases type <;> rfl
    have hends : ∀ type type', EndAlike (one type) (oneText type') ∧ EndAlike (oneText type') (one type) := by
      intro type type'
      cases type <;> cases type' <;> exact ⟨trivial, trivial⟩
    -- of a string and another type, the values above are equal and hash apart
    constructor
    · rintro rfl
      by_contra hne
      obtain ⟨htype, -, heq, hhash⟩ := one_equals_text ht hne
      exact hhash (hall _ _ (htext t) htype (hends t t).2 heq).symm
    · rintro rfl
      by_contra hne
      obtain ⟨htype, heq, -, hhash⟩ := one_equals_text hs hne
      exact hhash (hall _ _ htype (htext s) (hends s s).1 heq)
  · intro hkind a b ha hb hend h
    exact (hvalues a b ha hb hkind h).mpr hend

/-- `SMALLINT` and `BIGINT`. -/
theorem equal_values_hash_numbers :
    isExact .smallint = true ∧ isExact .bigint = true ∧ hashValue (.smallint (-7)) = hashValue (.bigint (-7)) :=
  ⟨rfl, rfl, (equal_values_hash .smallint .bigint rfl rfl).1.mpr (iff_of_false nofun nofun) _ _ rfl rfl trivial
    (by decide +kernel)⟩

/-- `1` equals `'1'`, and their hashes differ. -/
theorem equal_number_and_text_hash_apart : ¬ ∀ a b, isExact a.getTypeId = true → isExact b.getTypeId = true →
    a.isNull = false → b.isNull = false → a.compareEquals b = .ok .cmpTrue → hashValue a = hashValue b := by
  intro hclaim
  have hexact : isExact .integer = true := rfl
  obtain ⟨-, heq, -, hhash⟩ := one_equals_text hexact nofun
  exact hhash (hclaim _ _ rfl rfl rfl rfl heq)

end Equal

end Journey.SqlType
