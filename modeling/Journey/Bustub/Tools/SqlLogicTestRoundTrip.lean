import Journey.Bustub.Tools.SqlLogicTest
import Journey.Bustub.Type.Timestamp

/-!
# Journey.Bustub.Tools.SqlLogicTestRoundTrip — scripts that are written are read back

* `Entry`: a statement, a query, a pause or an inclusion, well-formed by construction; `Entry.lines` writes it,
  `Entry.record` is the record it stands for.
* `Piece`: an entry or a line between entries.
* `parse_written`: parsing what was written, with either kind of line end, gives the records of the entries, in order
  and with the numbers of their header lines.
-/

namespace Journey.SqlLogicTest

open SqlType (ascii isSpace isDigit ofDigits)
open StringUtil (Text startsWith rTrim replace split unlines)

/-! ## What is written -/

section Entries

/-- What may stand behind the `+` of an option. -/
structure OptionText where
  text : Text
  noSpace : 32 ∉ text
  plain : Plain text

/-- A file name. -/
structure FileName extends OptionText where
  nonempty : text ≠ []

/-- A line with something in it. -/
structure SqlLine where
  text : Text
  plain : Plain text
  nonempty : text ≠ []

/-- Such a line without white space at its end. -/
structure Row extends SqlLine where
  trimmed : ∀ b, text.getLast? = some b → isSpace b = false

/-- SQL of one or more lines. -/
structure Sql where
  init : List SqlLine
  last : Row

def Sql.lines (sql : Sql) : List Text := sql.init.map (·.text) ++ [sql.last.text]

def Sql.text (sql : Sql) : Text := unlines [10] (sql.init.map (·.text)) ++ sql.last.text

/-- The SQL of a query. -/
structure QuerySql extends Sql where
  noResult : ∀ line ∈ toSql.lines, line ≠ ascii "----"

/-- What a script is made of. -/
inductive Entry
  | statement (error : Bool) (options : List OptionText) (sql : Sql)
  | query (sortMode : SortMode) (options : List OptionText) (sql : QuerySql) (rows : List Row)
  | sleep (seconds : Fin (2 ^ 31))
  | includeFile (filename : FileName)

/-- Options as words of a header line. -/
def optionWords (options : List OptionText) : List Text := options.map fun option => 43 :: option.text

/-- The words of the header line. -/
def Entry.words : Entry → List Text
  | .statement error options _ => ascii "statement" :: ascii (if error then "error" else "ok") :: optionWords options
  | .query .nosort options _ _ => ascii "query" :: optionWords options
  | .query .rowsort options _ _ => ascii "query" :: ascii "rowsort" :: optionWords options
  | .sleep seconds => [ascii "sleep", ascii (toString seconds.val)]
  | .includeFile filename => [ascii "include", filename.text]

/-- The lines below the header line, with the empty line behind a statement or a query. -/
def Entry.body : Entry → List Text
  | .statement _ _ sql => sql.lines ++ [[]]
  | .query _ _ sql rows => sql.lines ++ ascii "----" :: (rows.map (·.text) ++ [[]])
  | .sleep _ => []
  | .includeFile _ => []

/-- How an entry is written. -/
def Entry.lines (entry : Entry) : List Text := unwords entry.words :: entry.body

/-- The record it stands for. -/
def Entry.record (loc : Location) : Entry → Record
  | .statement error options sql => .statementRecord loc error sql.text (options.map (·.text))
  | .query sortMode options sql rows =>
    .queryRecord loc sortMode sql.text (unlines [10] (rows.map (·.text))) (options.map (·.text))
  | .sleep seconds => .sleepRecord loc seconds
  | .includeFile filename => .includeRecord loc filename.text

/-- A part of a script: a line of spaces, maybe none, a comment, or an entry. -/
inductive Piece
  | spaces (n : ℕ)
  | comment (text : Text) (plain : Plain text)
  | entry (entry : Entry)

def Piece.lines : Piece → List Text
  | .spaces n => [List.replicate n 32]
  | .comment text _ => [35 :: text]
  | .entry e => e.lines

/-- The line ends. -/
inductive LineEnd
  | lf
  | crlf

def LineEnd.bytes : LineEnd → Text
  | .lf => [10]
  | .crlf => [13, 10]

/-- The lines of a script. -/
def written (pieces : List Piece) : List Text := pieces.flatMap Piece.lines

/-- The records of a script, if `n` lines stand before it. -/
def recordsFrom (n : ℕ) : List Piece → List Record
  | [] => []
  | .spaces _ :: pieces => recordsFrom (n + 1) pieces
  | .comment _ _ :: pieces => recordsFrom (n + 1) pieces
  | .entry entry :: pieces => entry.record ⟨ascii "<main>", n + 1⟩ :: recordsFrom (n + entry.lines.length) pieces

end Entries

/-! ## Header lines -/

section Headers

theorem isWord_options {options : List OptionText} : ∀ word ∈ optionWords options, IsWord word := by
  intro word hword
  obtain ⟨option, -, rfl⟩ := List.mem_map.mp hword
  refine ⟨List.cons_ne_nil _ _, ?_⟩
  rw [List.mem_cons, not_or]
  exact ⟨by decide, option.noSpace⟩

/-- The digits of a number. -/
theorem digits_toString (n : ℕ) :
    ascii (toString n) ≠ [] ∧ (∀ b ∈ ascii (toString n), isDigit b = true) ∧ ofDigits (ascii (toString n)) = n := by
  have htext : ascii (toString n) = (Nat.toDigits 10 n).map fun c => UInt8.ofNat c.toNat := by
    rw [ascii, Nat.toString_eq_repr, Nat.toList_repr]
  have hpos : 0 < (Nat.toDigits 10 n).length := Nat.length_toDigits_pos
  have hpadded : SqlType.padded (Nat.toDigits 10 n).length n = ascii (toString n) := by
    rw [SqlType.padded_eq, Nat.sub_self, List.replicate_zero, List.nil_append, htext]
  obtain ⟨hdigits, hvalue⟩ := SqlType.padded_digits hpos ((Nat.length_toDigits_le_iff (by omega) hpos).mp (le_refl _))
  rw [hpadded] at hdigits hvalue
  refine ⟨List.ne_nil_of_length_pos ?_, hdigits.digits, hvalue⟩
  rw [hdigits.length]
  exact hpos

theorem stoi_toString {n : ℕ} (hn : n < 2 ^ 31) : stoi (ascii (toString n)) = .ok n := by
  obtain ⟨hne, hdigits, hvalue⟩ := digits_toString n
  obtain ⟨b, ds, hds⟩ := List.exists_cons_of_ne_nil hne
  have hb : isDigit b = true := hdigits b (by rw [hds]; exact List.mem_cons_self ..)
  have hnumeral : SqlType.numeral (ascii (toString n)) = some (n : Int) := by
    have hall : (ascii (toString n)).takeWhile isDigit = ascii (toString n) := List.takeWhile_eq_self_iff.mpr hdigits
    unfold SqlType.numeral
    rw [hds, List.dropWhile_cons_of_neg (by rw [SqlType.not_space_of_digit hb]; decide), SqlType.readSign_digit hb,
      ← hds]
    dsimp only
    rw [hall, hvalue, if_neg fun h => hne (List.isEmpty_iff.mp h)]
    rfl
  have hrange : ¬ ((n : Int) < Int32.minValue.toInt ∨ Int32.maxValue.toInt < n) := by
    rw [show Int32.minValue.toInt = -2147483648 from rfl, show Int32.maxValue.toInt = 2147483647 from rfl]
    omega
  unfold stoi SqlType.stoi SqlType.stringTo
  rw [hnumeral]
  dsimp only
  rw [if_neg hrange]

theorem isWord_words (entry : Entry) : ∀ word ∈ entry.words, IsWord word := by
  intro word hword
  cases entry with
  | statement error options sql =>
    rcases List.mem_cons.mp hword with rfl | hword
    · decide
    · rcases List.mem_cons.mp hword with rfl | hword
      · cases error <;> decide
      · exact isWord_options word hword
  | query sortMode options sql rows =>
    cases sortMode with
    | nosort =>
      rcases List.mem_cons.mp hword with rfl | hword
      · decide
      · exact isWord_options word hword
    | rowsort =>
      rcases List.mem_cons.mp hword with rfl | hword
      · decide
      · rcases List.mem_cons.mp hword with rfl | hword
        · decide
        · exact isWord_options word hword
  | sleep seconds =>
    obtain ⟨hne, hdigits, -⟩ := digits_toString seconds.val
    rcases List.mem_cons.mp hword with rfl | hword
    · decide
    · rw [List.mem_singleton.mp hword]
      exact ⟨hne, fun hmem => absurd (hdigits 32 hmem) (by decide)⟩
  | includeFile filename =>
    rcases List.mem_cons.mp hword with rfl | hword
    · decide
    · rw [List.mem_singleton.mp hword]
      exact ⟨filename.nonempty, filename.noSpace⟩

theorem extraOptions_optionWords (options : List OptionText) :
    extraOptions (optionWords options) = options.map (·.text) := by
  induction options with
  | nil => rfl
  | cons option options ih =>
    show option.text :: extraOptions (optionWords options) = _
    rw [ih]
    rfl

end Headers

/-! ## Bodies -/

section Bodies

variable {loc : Location} {rest : List Text}

theorem Sql.lines_ne_nil (sql : Sql) : ∀ line ∈ sql.lines, line ≠ [] := by
  intro line hline
  rcases List.mem_append.mp hline with hline | hline
  · obtain ⟨l, -, rfl⟩ := List.mem_map.mp hline
    exact l.nonempty
  · rw [List.mem_singleton.mp hline]
    exact sql.last.nonempty

/-- Lines up to the first one that does not belong to them. -/
theorem takeWhile_lines (p : Text → Bool) {lines : List Text} {line : Text} (hlines : ∀ l ∈ lines, p l = true)
    (hline : ¬ p line = true) (rest : List Text) :
    (lines ++ line :: rest).takeWhile p = lines ∧ (lines ++ line :: rest).dropWhile p = line :: rest := by
  rw [List.takeWhile_append_of_pos hlines, List.dropWhile_append_of_pos hlines, List.takeWhile_cons_of_neg hline,
    List.dropWhile_cons_of_neg hline, List.append_nil]
  exact ⟨rfl, rfl⟩

theorem paragraph_lines {lines : List Text} (hlines : ∀ l ∈ lines, l ≠ []) (rest : List Text) :
    paragraph (lines ++ [] :: rest) = lines ∧ afterParagraph (lines ++ [] :: rest) = [] :: rest := by
  refine takeWhile_lines (fun line => !decide (line = [])) ?_ (by decide) rest
  intro l hl
  rw [decide_eq_false (hlines l hl)]
  rfl

theorem queryLines_lines (sql : QuerySql) (rest : List Text) :
    queryLines (sql.lines ++ ascii "----" :: rest) = sql.lines ∧
      afterQuery (sql.lines ++ ascii "----" :: rest) = ascii "----" :: rest := by
  refine takeWhile_lines (fun line => !decide (line = [] ∨ line = ascii "----")) ?_ (by decide) rest
  intro l hl
  rw [decide_eq_false (not_or.mpr ⟨sql.lines_ne_nil l hl, sql.noResult l hl⟩)]
  rfl

/-- **The text of SQL** is what is left of its lines when the last line end is trimmed. -/
theorem rTrim_sql (sql : Sql) : rTrim (unlines [10] sql.lines) = sql.text := by
  have hlines : unlines [10] sql.lines = sql.text ++ [10] := by
    unfold Sql.lines Sql.text unlines
    rw [List.flatMap_append, List.flatMap_singleton, List.append_assoc]
  rw [hlines, StringUtil.rTrim_concat_space (by decide)]
  refine StringUtil.rTrim_of_last fun b hb => sql.last.trimmed b ?_
  rwa [Sql.text, List.getLast?_append_of_ne_nil _ sql.last.nonempty] at hb

theorem map_rTrim_rows (rows : List Row) : (rows.map (·.text)).map rTrim = rows.map (·.text) := by
  rw [List.map_map]
  refine List.map_congr_left fun row _ => ?_
  exact StringUtil.rTrim_of_last row.trimmed

theorem parseSleep_eq (keyword arg : Text) :
    parseSleep loc [keyword, arg] = (stoi arg >>= fun n => .ok (.sleepRecord loc (n % 2 ^ 64).toNat)) := rfl

/-- **What a header line and its body are parsed to.** -/
theorem parseTokens_entry (entry : Entry) (line : Text) (rest : List Text) (records : List Record) :
    parseTokens loc entry.words (line :: (entry.body ++ rest)) records =
      .ok (.goOn rest (records ++ [entry.record loc])) := by
  cases entry with
  | statement error options sql =>
    obtain ⟨hpar, hafter⟩ := paragraph_lines sql.lines_ne_nil rest
    have hflag : errorFlag (ascii "statement" :: ascii (if error then "error" else "ok") :: optionWords options) =
        .ok (some error) := by
      cases error <;> rfl
    have hbody : (Entry.statement error options sql).body ++ rest = sql.lines ++ [] :: rest := by
      show sql.lines ++ [[]] ++ rest = _
      rw [List.append_assoc]
      rfl
    rw [hbody]
    show parseTokens loc (ascii "statement" :: _ :: _) _ _ = _
    rw [parseTokens_statement, parseStatement_eq _ _ _ hflag, ok_bind, hpar, hafter, rTrim_sql,
      extraOptions_optionWords]
    rfl
  | query sortMode options sql rows =>
    have hrows : ∀ l ∈ rows.map (·.text), l ≠ [] := by
      intro l hl
      obtain ⟨row, -, rfl⟩ := List.mem_map.mp hl
      exact row.nonempty
    obtain ⟨hquery, hresult⟩ := queryLines_lines sql (rows.map (·.text) ++ [] :: rest)
    obtain ⟨hpar, hafter⟩ := paragraph_lines hrows rest
    have hbody : (Entry.query sortMode options sql rows).body ++ rest =
        sql.lines ++ ascii "----" :: (rows.map (·.text) ++ [] :: rest) := by
      show sql.lines ++ ascii "----" :: (rows.map (·.text) ++ [[]]) ++ rest = _
      rw [List.append_assoc, List.cons_append, List.append_assoc]
      rfl
    have hend : sql.lines ++ ascii "----" :: (rows.map (·.text) ++ [] :: rest) ≠ [] := by
      simp
    rw [hbody]
    have hparsed : ∀ args, sortModeOf (ascii "query" :: args) = sortMode →
        extraOptions args = options.map (·.text) →
        parseTokens loc (ascii "query" :: args) (line :: (sql.lines ++ ascii "----" ::
          (rows.map (·.text) ++ [] :: rest))) records =
          .ok (.goOn rest (records ++ [(Entry.query sortMode options sql rows).record loc])) := by
      intro args hmode hoptions
      rw [parseTokens_query, parseQuery_eq, if_neg hend, hresult, List.head?_cons, if_pos rfl, ok_bind, List.tail_cons,
        hquery, hpar, hafter, rTrim_sql, map_rTrim_rows, hmode, hoptions]
      rfl
    cases sortMode with
    | nosort =>
      refine hparsed _ ?_ (extraOptions_optionWords options)
      cases options with
      | nil => rfl
      | cons option options => exact if_neg fun h => by cases h
    | rowsort => exact hparsed _ rfl (extraOptions_optionWords options)
  | sleep seconds =>
    have hmod : (((seconds.val : ℕ) : Int) % 2 ^ 64).toNat = seconds.val := by
      have hlt := seconds.isLt
      omega
    unfold Entry.words
    rw [parseTokens_sleep, parseSleep_eq, stoi_toString seconds.isLt, ok_bind, hmod]
    rfl
  | includeFile filename =>
    show parseTokens loc (ascii "include" :: _) _ _ = _
    rw [parseTokens_include]
    rfl

end Bodies

/-! ## Scripts -/

section Scripts

theorem plain_append {text text' : Text} (h : Plain text) (h' : Plain text') : Plain (text ++ text') := by
  intro b hb
  rcases List.mem_append.mp hb with hb | hb
  · exact h b hb
  · exact h' b hb

theorem plain_cons {b : UInt8} {text : Text} (hb : b ≠ 10 ∧ b ≠ 13) (h : Plain text) : Plain (b :: text) := by
  intro c hc
  rcases List.mem_cons.mp hc with rfl | hc
  · exact hb
  · exact h c hc

theorem plain_unwords {words : List Text} (hwords : ∀ word ∈ words, Plain word) : Plain (unwords words) := by
  induction words with
  | nil => exact fun b hb => by cases hb
  | cons word words ih =>
    have hword := hwords word (List.mem_cons_self ..)
    cases words with
    | nil => exact hword
    | cons word' words =>
      exact plain_append hword (plain_cons (by decide) (ih fun w hw => hwords w (List.mem_cons_of_mem _ hw)))

theorem plain_options {options : List OptionText} : ∀ word ∈ optionWords options, Plain word := by
  intro word hword
  obtain ⟨option, -, rfl⟩ := List.mem_map.mp hword
  exact plain_cons (by decide) option.plain

theorem plain_words (entry : Entry) : ∀ word ∈ entry.words, Plain word := by
  intro word hword
  cases entry with
  | statement error options sql =>
    rcases List.mem_cons.mp hword with rfl | hword
    · decide
    · rcases List.mem_cons.mp hword with rfl | hword
      · cases error <;> decide
      · exact plain_options word hword
  | query sortMode options sql rows =>
    cases sortMode with
    | nosort =>
      rcases List.mem_cons.mp hword with rfl | hword
      · decide
      · exact plain_options word hword
    | rowsort =>
      rcases List.mem_cons.mp hword with rfl | hword
      · decide
      · rcases List.mem_cons.mp hword with rfl | hword
        · decide
        · exact plain_options word hword
  | sleep seconds =>
    obtain ⟨-, hdigits, -⟩ := digits_toString seconds.val
    rcases List.mem_cons.mp hword with rfl | hword
    · decide
    · rw [List.mem_singleton.mp hword]
      intro b hb
      constructor <;> rintro rfl <;> exact absurd (hdigits _ hb) (by decide)
  | includeFile filename =>
    rcases List.mem_cons.mp hword with rfl | hword
    · decide
    · rw [List.mem_singleton.mp hword]
      exact filename.plain

theorem plain_sql (sql : Sql) : ∀ line ∈ sql.lines, Plain line := by
  intro line hline
  rcases List.mem_append.mp hline with hline | hline
  · obtain ⟨l, -, rfl⟩ := List.mem_map.mp hline
    exact l.plain
  · rw [List.mem_singleton.mp hline]
    exact sql.last.plain

theorem plain_nil : Plain [] := fun b hb => by cases hb

theorem plain_body (entry : Entry) : ∀ line ∈ entry.body, Plain line := by
  intro line hline
  cases entry with
  | statement error options sql =>
    rcases List.mem_append.mp hline with hline | hline
    · exact plain_sql sql line hline
    · rw [List.mem_singleton.mp hline]
      exact plain_nil
  | query sortMode options sql rows =>
    rcases List.mem_append.mp hline with hline | hline
    · exact plain_sql sql.toSql line hline
    · rcases List.mem_cons.mp hline with rfl | hline
      · decide
      · rcases List.mem_append.mp hline with hline | hline
        · obtain ⟨row, -, rfl⟩ := List.mem_map.mp hline
          exact row.plain
        · rw [List.mem_singleton.mp hline]
          exact plain_nil
  | sleep seconds => cases hline
  | includeFile filename => cases hline

theorem plain_written (pieces : List Piece) : ∀ line ∈ written pieces, Plain line := by
  intro line hline
  obtain ⟨piece, -, hline⟩ := List.mem_flatMap.mp hline
  cases piece with
  | spaces n =>
    rw [List.mem_singleton.mp hline]
    intro b hb
    rw [(List.mem_replicate.mp hb).2]
    decide
  | comment text plain =>
    rw [List.mem_singleton.mp hline]
    exact plain_cons (by decide) plain
  | entry e =>
    rcases List.mem_cons.mp hline with rfl | hline
    · exact plain_unwords (plain_words e)
    · exact plain_body e line hline

theorem words_ne_nil (entry : Entry) : entry.words ≠ [] := by
  rcases entry with _ | ⟨_ | _, _, _, _⟩ | _ | _ <;> exact List.cons_ne_nil _ _

/-- A header line begins with its keyword. -/
theorem header_not_filler (entry : Entry) : ¬ IsFiller (unwords entry.words) := by
  rintro (h | h | h)
  · exact (head_unwords (isWord_words entry) (words_ne_nil entry)).1 h
  · rcases entry with _ | ⟨_ | _, _ | _, _, _⟩ | _ | _ <;> cases h
  · rw [tokenize_unwords (isWord_words entry) (words_ne_nil entry)] at h
    exact words_ne_nil entry h

/-- **The loop on the lines of a script**, with the lines `pre` behind it. -/
theorem parseLoop_written (pieces : List Piece) (pre : List Text) (records : List Record) :
    parseLoop (ascii "<main>") (pre ++ written pieces) (written pieces) records =
      .ok (records ++ recordsFrom pre.length pieces) := by
  induction pieces generalizing pre records with
  | nil =>
    show parseLoop _ _ [] _ = .ok (records ++ [])
    rw [parseLoop_nil, List.append_nil]
  | cons piece pieces ih =>
    -- a line between entries is one more line before the rest
    have hline : ∀ line, IsFiller line → parseLoop (ascii "<main>") (pre ++ line :: written pieces)
        (line :: written pieces) records = .ok (records ++ recordsFrom (pre.length + 1) pieces) := by
      intro line hfill
      have hnext := ih (pre ++ [line]) records
      rw [List.append_assoc, List.singleton_append, List.length_append, List.length_singleton] at hnext
      rw [parseLoop_filler hfill, hnext]
    cases piece with
    | spaces n =>
      exact hline _ (.inr (.inr (tokenize_spaces fun b hb => (List.mem_replicate.mp hb).2)))
    | comment text plain => exact hline _ (.inr (.inl (by simp [startsWith, ascii])))
    | entry e =>
      have hwritten : written (.entry e :: pieces) = unwords e.words :: (e.body ++ written pieces) := rfl
      have hnumber : (pre ++ unwords e.words :: (e.body ++ written pieces)).length -
          (unwords e.words :: (e.body ++ written pieces)).length + 1 = pre.length + 1 := by
        rw [List.length_append]
        omega
      have hnext := ih (pre ++ e.lines) (records ++ [e.record ⟨ascii "<main>", pre.length + 1⟩])
      rw [List.append_assoc, List.length_append, List.append_assoc] at hnext
      rw [hwritten, parseLoop_goOn (List.cons_ne_nil _ _)]
      · exact hnext
      · rw [parseLine_tokens (header_not_filler e), tokenize_unwords (isWord_words e) (words_ne_nil e), hnumber,
          parseTokens_entry]

/-- **Round trip.**  What was written, with either kind of line end, is parsed to the records of its entries, in order,
each with its flags, options, SQL, expected result and the number of its header line. -/
theorem parse_written (pieces : List Piece) (eol : LineEnd) :
    parse (unlines eol.bytes (written pieces)) = .ok (recordsFrom 0 pieces) := by
  have heol : eol.bytes = [10] ∨ eol.bytes = [13, 10] := by
    cases eol with
    | lf => exact .inl rfl
    | crlf => exact .inr rfl
  rw [parse_unlines eol.bytes heol (plain_written pieces)]
  exact parseLoop_written pieces [] []

example : recordsFrom 0 [.comment (ascii " wait") (by decide), .spaces 0, .entry (.sleep 3)] =
    [.sleepRecord ⟨ascii "<main>", 3⟩ 3] := rfl

end Scripts

end Journey.SqlLogicTest
