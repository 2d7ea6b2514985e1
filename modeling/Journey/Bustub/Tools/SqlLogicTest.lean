import Journey.Bustub.Common.StringUtil
import Journey.Lib.Machine

/-!
# Journey.Bustub.Tools.SqlLogicTest — the SQLLogicTest parser

`SQLLogicTestParser::Parse` on a script, a list of bytes.  The line iterator is the list of lines from it on.  What the
code must not do (read a token that is not there, move an iterator past the end, use a flag that was not
set) ends the model with `undefined`.

* `tokenize`: the words of a line.
* `parseStatement`, `parseQuery`, ...: the branches of `ParseInner`, one for each keyword.
* `parseLine`: one round of its loop; `parseLoop` the loop, which ends since every round moves the iterator
  (`parseLine_shrinks`).
* `ParseInner`, `parse`.
-/

namespace Journey.SqlLogicTest

open SqlType (ascii)
open StringUtil (Text startsWith rTrim replace split unlines)

/-! ## Records -/

section Records

/-- `Location`; its `parent_` is null. -/
structure Location where
  file : Text
  line : ℕ
deriving DecidableEq

/-- `SortMode`. -/
inductive SortMode
  | nosort
  | rowsort
deriving DecidableEq

/-- `Record` and its subclasses. -/
inductive Record
  | includeRecord (loc : Location) (filename : Text)
  | haltRecord (loc : Location)
  | sleepRecord (loc : Location) (seconds : ℕ)
  | statementRecord (loc : Location) (isError : Bool) (sql : Text) (extraOptions : List Text)
  | queryRecord (loc : Location) (sortMode : SortMode) (sql expectedResult : Text) (extraOptions : List Text)
deriving DecidableEq

/-- What the code must not do. -/
inductive Undefined
  | tokenOutOfRange
  | tokenIterator
  | lineIterator
  | unsetFlag
deriving DecidableEq

/-- How a call ends without records: `bustub::Exception`, what `std::stoi` throws, or not at all. -/
inductive ParseError
  | exception (message : String)
  | invalidArgument (what : String)
  | outOfRange (what : String)
  | undefined (cause : Undefined)
deriving DecidableEq

end Records

/-! ## Tokens -/

section Tokens

/-- `Tokenize`, from `last_pos` on. -/
def tokenize (str : Text) : List Text :=
  let token := str.takeWhile (· ≠ 32)
  let rest := (str.drop (token.length + 1)).dropWhile (· = 32)
  (if token = [] then [] else [token]) ++ if rest = [] then [] else tokenize rest
termination_by str.length
decreasing_by
  rename_i hrest
  have hle : rest.length ≤ (str.drop (token.length + 1)).length := (List.dropWhile_sublist _).length_le
  have hpos : 0 < rest.length := List.length_pos_of_ne_nil hrest
  rw [List.length_drop] at hle
  show rest.length < str.length
  omega

/-- `tokens[i]`. -/
def tokenAt (tokens : List Text) (i : ℕ) : Except ParseError Text :=
  match tokens[i]? with
  | none => .error (.undefined .tokenOutOfRange)
  | some token => .ok token

/-- `tokens.cbegin() + n`. -/
def tokensFrom (tokens : List Text) (n : ℕ) : Except ParseError (List Text) :=
  if n ≤ tokens.length then .ok (tokens.drop n) else .error (.undefined .tokenIterator)

/-- The loops over the `extra_options`: tokens that begin with `+`, without it. -/
def extraOptions (tokens : List Text) : List Text :=
  tokens.filterMap fun token => if token.head? = some 43 then some token.tail else none

end Tokens

/-! ## `ParseInner` -/

section Parser

/-- `*line_iter`. -/
def currentLine : List Text → Except ParseError Text
  | [] => .error (.undefined .lineIterator)
  | line :: _ => .ok line

/-- `line_iter++`. -/
def advance : List Text → Except ParseError (List Text)
  | [] => .error (.undefined .lineIterator)
  | _ :: rest => .ok rest

/-- `if (line_iter != lines.cend()) line_iter++`. -/
def advanceIfAny (iter : List Text) : Except ParseError (List Text) := if iter = [] then .ok iter else advance iter

/-- The loops that append lines, up to one that stops them, to a text. -/
def gather (stop : Text → Bool) (edit : Text → Text) : List Text → Text → Text × List Text
  | [], text => (text, [])
  | line :: rest, text => if stop line then (text, line :: rest) else gather stop edit rest (text ++ edit line ++ [10])

/-- `tokens[0] == "no" && tokens[1] == "test"`. -/
def isNoTest (tokens : List Text) : Except ParseError Bool := do
  let keyword ← tokenAt tokens 0
  if keyword = ascii "no" then
    let token ← tokenAt tokens 1
    return decide (token = ascii "test")
  else return false

/-- The record of a line of two tokens. -/
def oneArgument (tokens : List Text) (record : Text → Except ParseError Record) : Except ParseError Record := do
  if tokens.length = 2 then record (← tokenAt tokens 1) else throw (.exception "unexpected number of args")

/-- `include`. -/
def parseInclude (loc : Location) (tokens : List Text) : Except ParseError Record :=
  oneArgument tokens fun arg => return .includeRecord loc arg

/-- `halt`. -/
def parseHalt (loc : Location) (tokens : List Text) : Except ParseError Record :=
  oneArgument tokens fun _ => return .haltRecord loc

/-- `std::stoi`, whose exceptions nobody catches here. -/
def stoi (arg : Text) : Except ParseError Int :=
  match SqlType.stoi arg with
  | .ok n => .ok n
  | .error (.logicError what) => .error (.invalidArgument what)
  | .error _ => .error (.outOfRange "stoi")

/-- `sleep`: the seconds are converted from `int` to `size_t`. -/
def parseSleep (loc : Location) (tokens : List Text) : Except ParseError Record :=
  oneArgument tokens fun arg => return .sleepRecord loc ((← stoi arg) % 2 ^ 64).toNat

/-- The flag `error`, which starts without a value. -/
def errorFlag (tokens : List Text) : Except ParseError (Option Bool) := do
  let token ← tokenAt tokens 1
  if token = ascii "ok" then return some false
  else if token = ascii "error" then return some true
  else return none

/-- `statement`: the record, and where the iterator stands. -/
def parseStatement (loc : Location) (tokens iter : List Text) : Except ParseError (Record × List Text) := do
  let error ← errorFlag tokens
  let options ← tokensFrom tokens 2
  let iter ← advanceIfAny iter
  let sql := gather (· = []) id iter []
  match error with
  | none => throw (.undefined .unsetFlag)
  | some error => return (.statementRecord loc error (rTrim sql.1) (extraOptions options), sql.2)

/-- `sort_mode`. -/
def sortModeOf (tokens : List Text) : SortMode := if tokens[1]? = some (ascii "rowsort") then .rowsort else .nosort

/-- `query`. -/
def parseQuery (loc : Location) (tokens iter : List Text) : Except ParseError (Record × List Text) := do
  let options ← tokensFrom tokens 1
  let iter ← advance iter
  if iter = [] then throw (.exception "unexpected end")
  else
    let sql := gather (fun line => line = [] ∨ line = ascii "----") id iter []
    -- `has_result`: the loop has stopped at the line `----`
    if sql.2.head? = some (ascii "----") then
      let iter ← advanceIfAny sql.2
      let result := gather (· = []) rTrim iter []
      return (.queryRecord loc (sortModeOf tokens) (rTrim sql.1) result.1 (extraOptions options), result.2)
    else throw (.exception "no result")

/-- Where a round of the loop leaves the parser. -/
inductive Progress
  | finished (records : List Record)
  | goOn (iter : List Text) (records : List Record)

/-- After a record of several lines: `if (line_iter == lines.cend()) break`, else `line_iter++`. -/
def leave (iter : List Text) (records : List Record) : Except ParseError Progress := do
  if iter = [] then return .finished records else return .goOn (← advance iter) records

/-- One round of the loop of `ParseInner`, from the first test of a token on.  The tests for the keywords exclude
each other. -/
def parseTokens (loc : Location) (tokens iter : List Text) (records : List Record) : Except ParseError Progress := do
  let noTest ← isNoTest tokens
  let keyword ← tokenAt tokens 0
  if noTest then return .finished records
  else if keyword = ascii "include" then
    let record ← parseInclude loc tokens
    return .goOn (← advance iter) (records ++ [record])
  else if keyword = ascii "halt" then
    let record ← parseHalt loc tokens
    return .goOn (← advance iter) (records ++ [record])
  else if keyword = ascii "sleep" then
    let record ← parseSleep loc tokens
    return .goOn (← advance iter) (records ++ [record])
  else if keyword = ascii "statement" then
    let parsed ← parseStatement loc tokens iter
    leave parsed.2 (records ++ [parsed.1])
  else if keyword = ascii "query" then
    let parsed ← parseQuery loc tokens iter
    leave parsed.2 (records ++ [parsed.1])
  else return .goOn (← advance iter) records

/-- One round of the loop. -/
def parseLine (filename : Text) (lines iter : List Text) (records : List Record) : Except ParseError Progress := do
  let line ← currentLine iter
  if line = [] ∨ startsWith line (ascii "#") then return .goOn (← advance iter) records
  else if tokenize line = [] then return .goOn (← advance iter) records
  else parseTokens ⟨filename, lines.length - iter.length + 1⟩ (tokenize line) iter records

theorem gather_length (stop : Text → Bool) (edit : Text → Text) (iter : List Text) (text : Text) :
    (gather stop edit iter text).2.length ≤ iter.length := by
  induction iter generalizing text with
  | nil => exact le_refl _
  | cons line rest ih =>
    unfold gather
    split_ifs
    · exact le_refl _
    · exact (ih _).trans (Nat.le_succ _)

theorem advance_length {iter iter' : List Text} (h : advance iter = .ok iter') : iter'.length + 1 = iter.length := by
  cases iter with
  | nil => cases h
  | cons line rest =>
    cases h
    rfl

theorem advanceIfAny_length {iter iter' : List Text} (h : advanceIfAny iter = .ok iter') :
    iter'.length ≤ iter.length := by
  unfold advanceIfAny at h
  split_ifs at h
  · cases h
    exact le_refl _
  · have hlen := advance_length h
    omega

theorem parseStatement_length {loc : Location} {tokens iter iter' : List Text} {record : Record}
    (h : parseStatement loc tokens iter = .ok (record, iter')) : iter'.length ≤ iter.length := by
  unfold parseStatement at h
  obtain ⟨error, -, h⟩ := bind_eq_ok.mp h
  obtain ⟨options, -, h⟩ := bind_eq_ok.mp h
  obtain ⟨iter1, h1, h⟩ := bind_eq_ok.mp h
  have hlen := advanceIfAny_length h1
  have hgather := gather_length (· = []) id iter1 []
  cases error with
  | none => cases h
  | some error =>
    cases h
    omega

theorem parseQuery_length {loc : Location} {tokens iter iter' : List Text} {record : Record}
    (h : parseQuery loc tokens iter = .ok (record, iter')) : iter'.length ≤ iter.length := by
  unfold parseQuery at h
  obtain ⟨options, -, h⟩ := bind_eq_ok.mp h
  obtain ⟨iter1, h1, h⟩ := bind_eq_ok.mp h
  have hlen := advance_length h1
  dsimp only at h
  split_ifs at h with hend hresult
  · obtain ⟨iter2, h2, h⟩ := bind_eq_ok.mp h
    have hgather := gather_length (fun line => line = [] ∨ line = ascii "----") id iter1 []
    have hlen2 := advanceIfAny_length h2
    have hgather2 := gather_length (· = []) rTrim iter2 []
    cases h
    omega

theorem leave_length {iter iter' : List Text} {records records' : List Record}
    (h : leave iter records = .ok (.goOn iter' records')) : iter'.length < iter.length := by
  unfold leave at h
  split_ifs at h
  · cases h
  · obtain ⟨iter1, h1, h⟩ := bind_eq_ok.mp h
    have hlen := advance_length h1
    cases h
    omega

theorem goOn_advance {iter iter' : List Text} {records records' : List Record}
    (h : (do return Progress.goOn (← advance iter) records : Except ParseError Progress) = .ok (.goOn iter' records')) :
    iter'.length < iter.length := by
  obtain ⟨iter1, h1, h⟩ := bind_eq_ok.mp h
  have hlen := advance_length h1
  cases h
  omega

theorem parseTokens_shrinks {loc : Location} {tokens iter iter' : List Text} {records records' : List Record}
    (h : parseTokens loc tokens iter records = .ok (.goOn iter' records')) : iter'.length < iter.length := by
  unfold parseTokens at h
  obtain ⟨noTest, -, h⟩ := bind_eq_ok.mp h
  obtain ⟨keyword, -, h⟩ := bind_eq_ok.mp h
  split_ifs at h
  · cases h
  · obtain ⟨record, -, h⟩ := bind_eq_ok.mp h
    exact goOn_advance h
  · obtain ⟨record, -, h⟩ := bind_eq_ok.mp h
    exact goOn_advance h
  · obtain ⟨record, -, h⟩ := bind_eq_ok.mp h
    exact goOn_advance h
  · obtain ⟨parsed, hparsed, h⟩ := bind_eq_ok.mp h
    exact lt_of_lt_of_le (leave_length h) (parseStatement_length hparsed)
  · obtain ⟨parsed, hparsed, h⟩ := bind_eq_ok.mp h
    exact lt_of_lt_of_le (leave_length h) (parseQuery_length hparsed)
  · exact goOn_advance h

/-- **Every round moves the iterator.** -/
theorem parseLine_shrinks {filename : Text} {lines iter iter' : List Text} {records records' : List Record}
    (h : parseLine filename lines iter records = .ok (.goOn iter' records')) : iter'.length < iter.length := by
  unfold parseLine at h
  obtain ⟨line, -, h⟩ := bind_eq_ok.mp h
  split_ifs at h
  · exact goOn_advance h
  · exact goOn_advance h
  · exact parseTokens_shrinks h

/-- The loop of `ParseInner`. -/
def parseLoop (filename : Text) (lines iter : List Text) (records : List Record) : Except ParseError (List Record) :=
  if iter = [] then .ok records
  else
    match _hround : parseLine filename lines iter records with
    | .error e => .error e
    | .ok (.finished records) => .ok records
    | .ok (.goOn iter records) => parseLoop filename lines iter records
termination_by iter.length
decreasing_by exact parseLine_shrinks ‹_›

/-- `ParseInner`. -/
def parseInner (filename script : Text) : Except ParseError (List Record) :=
  let lines := split 10 (replace [13, 10] [10] script)
  parseLoop filename lines lines []

/-- `SQLLogicTestParser::Parse`. -/
def parse (script : Text) : Except ParseError (List Record) := parseInner (ascii "<main>") script

end Parser

/-! ## Words of a line -/

section Words

variable {word line : Text} {words : List Text}

/-- Words with a space between them. -/
def unwords : List Text → Text
  | [] => []
  | [word] => word
  | word :: words => word ++ 32 :: unwords words

/-- A word: at least one byte, and no space. -/
def IsWord (word : Text) : Prop := word ≠ [] ∧ 32 ∉ word

instance (word : Text) : Decidable (IsWord word) := inferInstanceAs (Decidable (word ≠ [] ∧ 32 ∉ word))

theorem takeWhile_word (hword : 32 ∉ word) : word.takeWhile (· ≠ 32) = word := by
  rw [List.takeWhile_eq_self_iff]
  intro b hb
  rw [decide_eq_true_iff]
  rintro rfl
  exact hword hb

theorem tokenize_word (hword : IsWord word) : tokenize word = [word] := by
  have hdrop : (word.drop (word.length + 1)).dropWhile (· = 32) = [] := by
    rw [List.drop_of_length_le (Nat.le_succ _)]
    rfl
  rw [tokenize, takeWhile_word hword.2, hdrop, if_neg hword.1, if_pos rfl]
  rfl

theorem tokenize_cons {str : Text} (hword : IsWord word) (hstr : str ≠ []) (hhead : str.head? ≠ some 32) :
    tokenize (word ++ 32 :: str) = word :: tokenize str := by
  have htake : (word ++ 32 :: str).takeWhile (· ≠ 32) = word := by
    rw [List.takeWhile_append_of_pos, List.takeWhile_cons_of_neg (by simp), List.append_nil]
    exact fun b hb => decide_eq_true fun h => hword.2 (h ▸ hb)
  have hdrop : (word ++ 32 :: str).drop (word.length + 1) = str := by
    rw [List.drop_length_add_append]
    rfl
  have hskip : str.dropWhile (· = 32) = str := by
    cases str with
    | nil => rfl
    | cons b str =>
      refine List.dropWhile_cons_of_neg ?_
      rw [decide_eq_true_iff]
      rintro rfl
      exact hhead rfl
  rw [tokenize, htake, hdrop, hskip, if_neg hword.1, if_neg hstr]
  rfl

theorem head_unwords (hwords : ∀ word ∈ words, IsWord word) (hne : words ≠ []) :
    unwords words ≠ [] ∧ (unwords words).head? ≠ some 32 := by
  obtain ⟨word, words, rfl⟩ := List.exists_cons_of_ne_nil hne
  obtain ⟨hword, hspace⟩ := hwords word (List.mem_cons_self ..)
  obtain ⟨b, word, rfl⟩ := List.exists_cons_of_ne_nil hword
  have hb : b ≠ 32 := by
    rintro rfl
    exact hspace (List.mem_cons_self ..)
  cases words with
  | nil => exact ⟨hword, by simpa [unwords] using hb⟩
  | cons word' words => exact ⟨by simp [unwords], by simpa [unwords] using hb⟩

/-- **The words of a line** are its tokens. -/
theorem tokenize_unwords (hwords : ∀ word ∈ words, IsWord word) (hne : words ≠ []) :
    tokenize (unwords words) = words := by
  induction words with
  | nil => exact absurd rfl hne
  | cons word words ih =>
    have hword := hwords word (List.mem_cons_self ..)
    have hrest : ∀ w ∈ words, IsWord w := fun w hw => hwords w (List.mem_cons_of_mem _ hw)
    cases words with
    | nil => exact tokenize_word hword
    | cons word' words =>
      obtain ⟨hstr, hhead⟩ := head_unwords hrest (List.cons_ne_nil _ _)
      show tokenize (word ++ 32 :: unwords (word' :: words)) = _
      rw [tokenize_cons hword hstr hhead, ih hrest (List.cons_ne_nil _ _)]

theorem tokenize_spaces (hline : ∀ b ∈ line, b = 32) : tokenize line = [] := by
  have htake : line.takeWhile (· ≠ 32) = [] := by
    cases line with
    | nil => rfl
    | cons b line => exact List.takeWhile_cons_of_neg (by simp [hline b (List.mem_cons_self ..)])
  have hskip : (line.drop 1).dropWhile (· = 32) = [] := by
    rw [List.dropWhile_eq_nil_iff]
    intro b hb
    exact decide_eq_true (hline b (List.mem_of_mem_drop hb))
  rw [tokenize, htake, List.length_nil, Nat.zero_add, hskip, if_pos rfl, if_pos rfl]
  rfl

/-- A text that can be part of a line. -/
def Plain (text : Text) : Prop := ∀ b ∈ text, b ≠ 10 ∧ b ≠ 13

-- not the instance that tries all bytes
instance (text : Text) : Decidable (Plain text) := List.decidableBAll _ text

/-- **Lines with either kind of line end** are the lines that are parsed. -/
theorem parse_unlines {lines : List Text} (eol : Text) (heol : eol = [10] ∨ eol = [13, 10])
    (hlines : ∀ line ∈ lines, Plain line) :
    parse (unlines eol lines) = parseLoop (ascii "<main>") lines lines [] := by
  have hlf : ∀ line ∈ lines, (10 : UInt8) ∉ line := fun line hl hb => (hlines line hl 10 hb).1 rfl
  have hcr : ∀ line ∈ lines, (13 : UInt8) ∉ line := fun line hl hb => (hlines line hl 13 hb).2 rfl
  have hreplace : replace [13, 10] [10] (unlines eol lines) = unlines [10] lines := by
    rcases heol with rfl | rfl
    · refine StringUtil.replace_of_notMem fun hmem => ?_
      obtain ⟨line, hl, hb⟩ := List.mem_flatMap.mp hmem
      rcases List.mem_append.mp hb with hb | hb
      · exact hcr line hl hb
      · exact absurd hb (by decide)
    · exact StringUtil.replace_unlines hcr
  unfold parse parseInner
  rw [hreplace, StringUtil.split_unlines hlf]

end Words

/-! ## Rounds of the loop -/

section Rounds

variable {filename : Text} {lines iter iter' : List Text} {records records' : List Record} {line : Text}

theorem parseLoop_nil : parseLoop filename lines [] records = .ok records := by
  rw [parseLoop, if_pos rfl]

theorem parseLoop_error {e : ParseError} (hne : iter ≠ []) (h : parseLine filename lines iter records = .error e) :
    parseLoop filename lines iter records = .error e := by
  rw [parseLoop, if_neg hne]
  split
  · rename_i e' h'
    rw [h] at h'
    cases h'
    rfl
  · rename_i records' h'
    rw [h] at h'
    cases h'
  · rename_i iter' records' h'
    rw [h] at h'
    cases h'

theorem parseLoop_finished (hne : iter ≠ []) (h : parseLine filename lines iter records = .ok (.finished records')) :
    parseLoop filename lines iter records = .ok records' := by
  rw [parseLoop, if_neg hne]
  split
  · rename_i e h'
    rw [h] at h'
    cases h'
  · rename_i records'' h'
    rw [h] at h'
    cases h'
    rfl
  · rename_i iter' records'' h'
    rw [h] at h'
    cases h'

theorem parseLoop_goOn (hne : iter ≠ []) (h : parseLine filename lines iter records = .ok (.goOn iter' records')) :
    parseLoop filename lines iter records = parseLoop filename lines iter' records' := by
  rw [parseLoop, if_neg hne]
  split
  · rename_i e h'
    rw [h] at h'
    cases h'
  · rename_i records'' h'
    rw [h] at h'
    cases h'
  · rename_i iter'' records'' h'
    rw [h] at h'
    cases h'
    rfl

/-- Lines between the records: empty ones, comments, lines of spaces. -/
def IsFiller (line : Text) : Prop := line = [] ∨ startsWith line (ascii "#") = true ∨ tokenize line = []

theorem parseLine_filler (hfill : IsFiller line) (rest : List Text) :
    parseLine filename lines (line :: rest) records = .ok (.goOn rest records) := by
  simp only [parseLine, currentLine, advance, ok_bind]
  by_cases hskip : line = [] ∨ startsWith line (ascii "#") = true
  · rw [if_pos hskip]
    rfl
  · rw [if_neg hskip, if_pos]
    · rfl
    · rcases hfill with h | h | h
      · exact absurd (.inl h) hskip
      · exact absurd (.inr h) hskip
      · exact h

theorem parseLine_tokens (hfill : ¬ IsFiller line) (rest : List Text) :
    parseLine filename lines (line :: rest) records =
      parseTokens ⟨filename, lines.length - (line :: rest).length + 1⟩ (tokenize line) (line :: rest) records := by
  simp only [IsFiller, not_or] at hfill
  simp only [parseLine, currentLine, ok_bind]
  rw [if_neg (not_or.mpr ⟨hfill.1, hfill.2.1⟩), if_neg hfill.2.2]

theorem parseLoop_filler (hfill : IsFiller line) (rest : List Text) :
    parseLoop filename lines (line :: rest) records = parseLoop filename lines rest records :=
  parseLoop_goOn (List.cons_ne_nil _ _) (parseLine_filler hfill rest)

end Rounds

/-! ## Branches -/

section Branches

variable {loc : Location} {args iter rest : List Text} {records : List Record} {keyword line : Text}

theorem isNoTest_of_ne (hno : keyword ≠ ascii "no") : isNoTest (keyword :: args) = .ok false := by
  show (if keyword = ascii "no" then _ else _ : Except ParseError Bool) = _
  rw [if_neg hno]
  rfl

theorem parseTokens_no_alone :
    parseTokens loc [ascii "no"] iter records = .error (.undefined .tokenOutOfRange) := rfl

theorem parseTokens_no (arg : Text) (args rest : List Text) :
    parseTokens loc (ascii "no" :: arg :: args) (line :: rest) records =
      .ok (if arg = ascii "test" then .finished records else .goOn rest records) := by
  have hno : isNoTest (ascii "no" :: arg :: args) = .ok (decide (arg = ascii "test")) := rfl
  simp only [parseTokens, hno, ok_bind]
  by_cases htest : arg = ascii "test"
  · rw [if_pos htest, decide_eq_true htest]
    rfl
  · rw [if_neg htest, decide_eq_false htest]
    rfl

theorem parseTokens_include :
    parseTokens loc (ascii "include" :: args) (line :: rest) records =
      (parseInclude loc (ascii "include" :: args)).map fun record => .goOn rest (records ++ [record]) := by
  simp only [parseTokens, isNoTest_of_ne (show ascii "include" ≠ ascii "no" by decide), ok_bind]
  rfl

theorem parseTokens_halt :
    parseTokens loc (ascii "halt" :: args) (line :: rest) records =
      (parseHalt loc (ascii "halt" :: args)).map fun record => .goOn rest (records ++ [record]) := by
  simp only [parseTokens, isNoTest_of_ne (show ascii "halt" ≠ ascii "no" by decide), ok_bind]
  rfl

theorem parseTokens_sleep :
    parseTokens loc (ascii "sleep" :: args) (line :: rest) records =
      (parseSleep loc (ascii "sleep" :: args)).map fun record => .goOn rest (records ++ [record]) := by
  simp only [parseTokens, isNoTest_of_ne (show ascii "sleep" ≠ ascii "no" by decide), ok_bind]
  rfl

theorem parseTokens_statement :
    parseTokens loc (ascii "statement" :: args) iter records =
      (parseStatement loc (ascii "statement" :: args) iter) >>= fun parsed =>
        leave parsed.2 (records ++ [parsed.1]) := by
  simp only [parseTokens, isNoTest_of_ne (show ascii "statement" ≠ ascii "no" by decide), ok_bind]
  rfl

theorem parseTokens_query :
    parseTokens loc (ascii "query" :: args) iter records =
      (parseQuery loc (ascii "query" :: args) iter) >>= fun parsed => leave parsed.2 (records ++ [parsed.1]) := by
  simp only [parseTokens, isNoTest_of_ne (show ascii "query" ≠ ascii "no" by decide), ok_bind]
  rfl

/-- The keywords. -/
def keywords : List Text := ["no", "include", "halt", "sleep", "statement", "query"].map ascii

/-- Other words are passed. -/
theorem parseTokens_other (hkey : keyword ∉ keywords) :
    parseTokens loc (keyword :: args) (line :: rest) records = .ok (.goOn rest records) := by
  simp only [keywords, List.map_cons, List.map_nil, List.mem_cons, List.not_mem_nil, or_false, not_or] at hkey
  obtain ⟨hno, hincl, hhalt, hsleep, hstmt, hquery⟩ := hkey
  have htoken : tokenAt (keyword :: args) 0 = .ok keyword := rfl
  simp only [parseTokens, isNoTest_of_ne hno, htoken, ok_bind, if_neg hincl, if_neg hhalt, if_neg hsleep,
    if_neg hstmt, if_neg hquery]
  rfl

theorem gather_eq (stop : Text → Bool) (edit : Text → Text) (iter : List Text) (text : Text) :
    gather stop edit iter text =
      (text ++ unlines [10] ((iter.takeWhile (!stop ·)).map edit), iter.dropWhile (!stop ·)) := by
  induction iter generalizing text with
  | nil =>
    show (text, []) = (text ++ [], [])
    rw [List.append_nil]
  | cons line rest ih =>
    unfold gather
    cases hstop : stop line with
    | true =>
      rw [if_pos rfl, List.takeWhile_cons_of_neg (by rw [hstop]; decide), List.dropWhile_cons_of_neg (by rw [hstop]; decide)]
      show _ = (text ++ [], _)
      rw [List.append_nil]
    | false =>
      rw [if_neg (by decide), ih, List.takeWhile_cons_of_pos (by rw [hstop]; decide),
        List.dropWhile_cons_of_pos (by rw [hstop]; decide), List.map_cons]
      show (text ++ edit line ++ [10] ++ _, _) = (text ++ (edit line ++ [10] ++ _), _)
      rw [← List.append_assoc, ← List.append_assoc]
      rfl

/-- The lines up to the next empty one. -/
def paragraph (lines : List Text) : List Text := lines.takeWhile fun line => !decide (line = [])

/-- The lines from the next empty one on. -/
def afterParagraph (lines : List Text) : List Text := lines.dropWhile fun line => !decide (line = [])

/-- **`statement`** takes the lines up to the next empty one. -/
theorem parseStatement_eq {token : Text} {error : Bool} (args : List Text) (line : Text) (rest : List Text)
    (hflag : errorFlag (keyword :: token :: args) = .ok (some error)) :
    parseStatement loc (keyword :: token :: args) (line :: rest) =
      .ok (.statementRecord loc error (rTrim (unlines [10] (paragraph rest))) (extraOptions args),
        afterParagraph rest) := by
  have htokens : tokensFrom (keyword :: token :: args) 2 = .ok args := by
    unfold tokensFrom
    rw [if_pos (by simp)]
    rfl
  have hadv : advanceIfAny (line :: rest) = .ok rest := if_neg (List.cons_ne_nil _ _)
  simp only [parseStatement, hflag, htokens, hadv, ok_bind, gather_eq, List.map_id, List.nil_append]
  rfl

/-- The lines of a query up to the results or the next empty line, and those from there on. -/
def queryLines (lines : List Text) : List Text :=
  lines.takeWhile fun line => !decide (line = [] ∨ line = ascii "----")

def afterQuery (lines : List Text) : List Text :=
  lines.dropWhile fun line => !decide (line = [] ∨ line = ascii "----")

/-- **`query`** takes the lines up to `----`, and as results those up to the next empty one. -/
theorem parseQuery_eq (keyword : Text) (args : List Text) (line : Text) (rest : List Text) :
    parseQuery loc (keyword :: args) (line :: rest) =
      if rest = [] then .error (.exception "unexpected end")
      else if (afterQuery rest).head? = some (ascii "----") then
        .ok (.queryRecord loc (sortModeOf (keyword :: args)) (rTrim (unlines [10] (queryLines rest)))
          (unlines [10] ((paragraph (afterQuery rest).tail).map rTrim)) (extraOptions args),
          afterParagraph (afterQuery rest).tail)
      else .error (.exception "no result") := by
  have htokens : tokensFrom (keyword :: args) 1 = .ok args := by
    unfold tokensFrom
    rw [if_pos (by simp)]
    rfl
  have hadv : advance (line :: rest) = .ok rest := rfl
  have hbody : gather (fun line => line = [] ∨ line = ascii "----") id rest [] =
      (unlines [10] (queryLines rest), afterQuery rest) := by
    rw [gather_eq, List.map_id, List.nil_append]
    rfl
  have hresults : ∀ iter, gather (· = []) rTrim iter [] =
      (unlines [10] ((paragraph iter).map rTrim), afterParagraph iter) := by
    intro iter
    rw [gather_eq, List.nil_append]
    rfl
  simp only [parseQuery, htokens, hadv, ok_bind, hbody, hresults]
  split_ifs with hend hresult
  · rfl
  · have htail : advanceIfAny (afterQuery rest) = .ok (afterQuery rest).tail := by
      cases hq : afterQuery rest with
      | nil =>
        rw [hq] at hresult
        cases hresult
      | cons l ls => rfl
    rw [htail]
    rfl
  · rfl

end Branches

end Journey.SqlLogicTest
