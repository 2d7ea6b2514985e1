import Journey.Bustub.Tools.SqlLogicTest

/-!
# Journey.Bustub.Tools.SqlLogicTestSafety — the parser on malformed scripts

The parser reads the second token of every line that begins with `no` or `statement`, whether there is one or not, and
uses the flag of a statement that says neither `ok` nor `error`.

* `resume`: where parsing goes on behind a header line; `Reaches iter tokens`: it comes to a header line of these
  tokens.
* `WellHeaded`: the header lines that hold what the parser reads.
* `parse_safe_iff`: a script is parsed without undefined behaviour exactly if the header lines it comes to are.
-/

namespace Journey.SqlLogicTest

open SqlType (ascii)
open StringUtil (Text startsWith rTrim replace split unlines)

variable {loc : Location} {tokens args rest rest' iter lines : List Text} {records : List Record}
  {filename line keyword : Text}

/-! ## Header lines -/

section Headers

/-- The lines that parsing goes on with behind a header line of these tokens, if `rest` are those below it; none where
it ends, by `no test` or by an exception. -/
def resume (tokens rest : List Text) : Option (List Text) :=
  match tokens with
  | [] => none
  | keyword :: args =>
    if keyword = ascii "no" then if args.head? = some (ascii "test") then none else some rest
    else if keyword = ascii "include" ∨ keyword = ascii "halt" then if args.length = 1 then some rest else none
    else if keyword = ascii "sleep" then
      if args.length = 1 ∧ (stoi (args.headD [])).isOk = true then some rest else none
    else if keyword = ascii "statement" then some (afterParagraph rest).tail
    else if keyword = ascii "query" then
      if ascii "----" ∈ paragraph rest then some (afterParagraph rest).tail else none
    else some rest

/-- With these lines ahead, parsing comes to a header line of these tokens. -/
inductive Reaches : List Text → List Text → Prop
  | here {line : Text} {rest : List Text} : ¬ IsFiller line → Reaches (line :: rest) (tokenize line)
  | filler {line : Text} {rest tokens : List Text} : IsFiller line → Reaches rest tokens → Reaches (line :: rest) tokens
  | past {line : Text} {rest rest' tokens : List Text} : ¬ IsFiller line → resume (tokenize line) rest = some rest' →
      Reaches rest' tokens → Reaches (line :: rest) tokens

/-- There is a word behind `no`, and `ok` or `error` behind `statement`. -/
def WellHeaded (tokens : List Text) : Prop :=
  tokens ≠ [ascii "no"] ∧
    (tokens.head? = some (ascii "statement") → tokens[1]? = some (ascii "ok") ∨ tokens[1]? = some (ascii "error"))

/-- Neither undefined behaviour: records, or an exception. -/
def Safe {β : Type} (outcome : Except ParseError β) : Prop := ∀ cause, outcome ≠ .error (.undefined cause)

theorem not_reaches_nil : ¬ Reaches [] tokens := by
  intro h
  cases h

theorem reaches_filler (hfill : IsFiller line) : Reaches (line :: rest) tokens ↔ Reaches rest tokens := by
  constructor
  · intro h
    cases h with
    | here hnot => exact absurd hfill hnot
    | filler _ h => exact h
    | past hnot => exact absurd hfill hnot
  · exact .filler hfill

end Headers

/-! ## One round -/

section Round

/-- `----` before the next empty line. -/
theorem afterQuery_head (rest : List Text) :
    ((afterQuery rest).head? = some (ascii "----") ↔ ascii "----" ∈ paragraph rest) ∧
      (ascii "----" ∈ paragraph rest → afterParagraph (afterQuery rest).tail = afterParagraph rest) := by
  induction rest with
  | nil => exact ⟨by simp [afterQuery, paragraph], fun h => by cases h⟩
  | cons line rest ih =>
    by_cases hempty : line = []
    · subst hempty
      exact ⟨by simp [afterQuery, paragraph]; decide, fun h => by cases h⟩
    · have hpar : paragraph (line :: rest) = line :: paragraph rest :=
        List.takeWhile_cons_of_pos (by simp [hempty])
      have hafter : afterParagraph (line :: rest) = afterParagraph rest :=
        List.dropWhile_cons_of_pos (by simp [hempty])
      rw [hpar, hafter]
      by_cases hdash : line = ascii "----"
      · have hq : afterQuery (line :: rest) = line :: rest := List.dropWhile_cons_of_neg (by simp [hdash])
        rw [hq, hdash]
        exact ⟨by simp, fun _ => rfl⟩
      · have hq : afterQuery (line :: rest) = afterQuery rest :=
          List.dropWhile_cons_of_pos (by simp [hempty, hdash])
        rw [hq, List.mem_cons]
        exact ⟨ih.1.trans (by simp [Ne.symm hdash]), fun h => ih.2 (h.resolve_left (Ne.symm hdash))⟩

/-- A round that ends parsing, by its end or by an exception. -/
def Ends (outcome : Except ParseError Progress) : Prop :=
  (∃ records, outcome = .ok (.finished records)) ∨ ∃ e, outcome = .error e ∧ ∀ cause, e ≠ .undefined cause

/-- What a round may do when parsing goes on with `next`. -/
def Follows (outcome : Except ParseError Progress) : Option (List Text) → Prop
  | none => Ends outcome
  | some rest => (∃ records, outcome = .ok (.goOn rest records)) ∨ rest = [] ∧ Ends outcome

theorem ends_leave (iter : List Text) (records : List Record) : Follows (leave iter records) (some iter.tail) := by
  cases iter with
  | nil => exact .inr ⟨rfl, .inl ⟨records, rfl⟩⟩
  | cons line rest => exact .inl ⟨records, rfl⟩

/-- The keywords with one argument. -/
theorem follows_oneArgument (record : Text → Except ParseError Record) (hsafe : ∀ arg, Safe (record arg))
    (keyword : Text) (args rest : List Text) (records : List Record) {c : Prop} [Decidable c]
    (hc : c ↔ args.length = 1 ∧ (record (args.headD [])).isOk = true) :
    Follows ((oneArgument (keyword :: args) record).map fun r => Progress.goOn rest (records ++ [r]))
      (if c then some rest else none) := by
  rcases args with _ | ⟨arg, _ | ⟨arg', args⟩⟩
  · rw [if_neg (by simp [hc])]
    exact .inr ⟨_, rfl, fun cause h => by cases h⟩
  · have hone : oneArgument [keyword, arg] record = record arg := rfl
    rw [List.headD_cons] at hc
    rw [hone]
    cases hrec : record arg with
    | error e =>
      rw [hrec] at hc
      rw [if_neg (by simp [hc, Except.isOk, Except.toBool])]
      refine .inr ⟨e, rfl, ?_⟩
      rintro cause rfl
      exact hsafe arg cause hrec
    | ok r =>
      rw [hrec] at hc
      rw [if_pos (hc.mpr ⟨rfl, rfl⟩)]
      exact .inl ⟨_, rfl⟩
  · rw [if_neg (by simp [hc])]
    exact .inr ⟨_, rfl, fun cause h => by cases h⟩

theorem safe_stoi (arg : Text) : Safe (stoi arg) := by
  intro cause h
  unfold stoi at h
  split at h <;> cases h

theorem safe_sleep (arg : Text) : Safe (do return Record.sleepRecord loc ((← stoi arg) % 2 ^ 64).toNat) := by
  intro cause h
  cases hstoi : stoi arg with
  | error e =>
    rw [hstoi] at h
    cases h
    exact safe_stoi arg cause hstoi
  | ok n =>
    rw [hstoi] at h
    cases h

theorem follows_statement (error : Bool) {token : Text} (args : List Text)
    (hflag : errorFlag (ascii "statement" :: token :: args) = .ok (some error)) :
    Follows (parseTokens loc (ascii "statement" :: token :: args) (line :: rest) records)
      (some (afterParagraph rest).tail) := by
  rw [parseTokens_statement, parseStatement_eq args line rest hflag, ok_bind]
  exact ends_leave _ _

theorem follows_query (args : List Text) :
    Follows (parseTokens loc (ascii "query" :: args) (line :: rest) records)
      (if ascii "----" ∈ paragraph rest then some (afterParagraph rest).tail else none) := by
  obtain ⟨hhead, hafter⟩ := afterQuery_head rest
  rw [parseTokens_query, parseQuery_eq]
  by_cases hend : rest = []
  · rw [if_pos hend, if_neg (by rw [hend]; simp [paragraph])]
    exact .inr ⟨_, rfl, fun cause h => by cases h⟩
  · rw [if_neg hend]
    by_cases hdash : ascii "----" ∈ paragraph rest
    · rw [if_pos (hhead.mpr hdash), if_pos hdash, ok_bind, ← hafter hdash]
      exact ends_leave _ _
    · rw [if_neg (fun h => hdash (hhead.mp h)), if_neg hdash]
      exact .inr ⟨_, rfl, fun cause h => by cases h⟩

/-- **A well-headed line** is parsed safely, and parsing goes on where it should. -/
theorem follows_resume (hw : WellHeaded (keyword :: args)) :
    Follows (parseTokens loc (keyword :: args) (line :: rest) records) (resume (keyword :: args) rest) := by
  unfold resume
  dsimp only
  by_cases hno : keyword = ascii "no"
  · subst hno
    rw [if_pos rfl]
    rcases args with _ | ⟨arg, args⟩
    · exact absurd rfl hw.1
    · rw [parseTokens_no]
      rw [List.head?_cons]
      by_cases htest : arg = ascii "test"
      · rw [if_pos htest, if_pos (congrArg some htest)]
        exact .inl ⟨records, rfl⟩
      · rw [if_neg htest, if_neg fun h => htest (Option.some.inj h)]
        exact .inl ⟨records, rfl⟩
  rw [if_neg hno]
  by_cases hincl : keyword = ascii "include"
  · subst hincl
    rw [if_pos (.inl rfl), parseTokens_include]
    exact follows_oneArgument _ (fun arg cause h => by cases h) (ascii "include") args rest records
      (iff_self_and.mpr fun _ => rfl)
  by_cases hhalt : keyword = ascii "halt"
  · subst hhalt
    rw [if_pos (.inr rfl), parseTokens_halt]
    exact follows_oneArgument _ (fun arg cause h => by cases h) (ascii "halt") args rest records
      (iff_self_and.mpr fun _ => rfl)
  rw [if_neg (not_or.mpr ⟨hincl, hhalt⟩)]
  by_cases hsleep : keyword = ascii "sleep"
  · subst hsleep
    rw [if_pos rfl, parseTokens_sleep]
    refine follows_oneArgument _ safe_sleep (ascii "sleep") args rest records (and_congr_right fun _ => ?_)
    cases stoi (args.headD []) <;> rfl
  rw [if_neg hsleep]
  by_cases hstmt : keyword = ascii "statement"
  · subst hstmt
    rw [if_pos rfl]
    rcases args with _ | ⟨token, args⟩
    · rcases hw.2 rfl with h | h <;> cases h
    · rcases hw.2 rfl with h | h
      · cases h
        exact follows_statement false args rfl
      · cases h
        exact follows_statement true args rfl
  rw [if_neg hstmt]
  by_cases hquery : keyword = ascii "query"
  · subst hquery
    rw [if_pos rfl]
    exact follows_query args
  · rw [if_neg hquery, parseTokens_other]
    · exact .inl ⟨records, rfl⟩
    · simp [keywords, hno, hincl, hhalt, hsleep, hstmt, hquery]

/-- **Any other line** is undefined behaviour. -/
theorem undefined_of_not_wellHeaded (hw : ¬ WellHeaded (keyword :: args)) :
    ∃ cause, parseTokens loc (keyword :: args) (line :: rest) records = .error (.undefined cause) := by
  by_cases hno : keyword :: args = [ascii "no"]
  · cases hno
    exact ⟨_, parseTokens_no_alone⟩
  · obtain ⟨hhead, hflag⟩ := Classical.not_imp.mp fun h => hw ⟨hno, h⟩
    obtain rfl : keyword = ascii "statement" := Option.some.inj hhead
    rw [parseTokens_statement]
    rcases args with _ | ⟨token, args⟩
    · exact ⟨.tokenOutOfRange, rfl⟩
    · have hnone : errorFlag (ascii "statement" :: token :: args) = .ok none := by
        obtain ⟨hok, herror⟩ := not_or.mp hflag
        show (if token = ascii "ok" then _ else if token = ascii "error" then _ else _ : Except ParseError _) = _
        rw [if_neg fun h => hok (congrArg some h), if_neg fun h => herror (congrArg some h)]
        rfl
      have htokens : tokensFrom (ascii "statement" :: token :: args) 2 = .ok args := by
        unfold tokensFrom
        rw [if_pos (by simp)]
        rfl
      have hadv : advanceIfAny (line :: rest) = .ok rest := if_neg (List.cons_ne_nil _ _)
      refine ⟨.unsetFlag, ?_⟩
      simp only [parseStatement, hnone, htokens, hadv, ok_bind]
      rfl

end Round

/-! ## Scripts -/

section Scripts

theorem reaches_past (hfill : ¬ IsFiller line) :
    Reaches (line :: rest) tokens ↔
      tokens = tokenize line ∨ ∃ rest', resume (tokenize line) rest = some rest' ∧ Reaches rest' tokens := by
  constructor
  · intro h
    cases h with
    | here => exact .inl rfl
    | filler hyes => exact absurd hyes hfill
    | past _ hres h => exact .inr ⟨_, hres, h⟩
  · rintro (rfl | ⟨rest', hres, h⟩)
    · exact .here hfill
    · exact .past hfill hres h

theorem safe_of_ends (h : Ends (parseLine filename lines (line :: rest) records)) :
    Safe (parseLoop filename lines (line :: rest) records) := by
  rcases h with ⟨records', h⟩ | ⟨e, h, hthrown⟩
  · rw [parseLoop_finished (List.cons_ne_nil _ _) h]
    intro cause h'
    cases h'
  · rw [parseLoop_error (List.cons_ne_nil _ _) h]
    intro cause h'
    exact hthrown cause (Except.error.inj h')

/-- **The loop is safe** exactly if the header lines it comes to are well-headed. -/
theorem parseLoop_safe_iff (filename : Text) (lines iter : List Text) (records : List Record) :
    Safe (parseLoop filename lines iter records) ↔ ∀ tokens, Reaches iter tokens → WellHeaded tokens := by
  -- the iterator moves in every round
  induction hlen : iter.length using Nat.strong_induction_on generalizing iter records with
  | _ n ih =>
    subst hlen
    cases iter with
    | nil =>
      rw [parseLoop_nil]
      exact ⟨fun _ tokens h => absurd h not_reaches_nil, fun _ cause h => by cases h⟩
    | cons line rest =>
      by_cases hfill : IsFiller line
      · rw [parseLoop_filler hfill]
        simp only [reaches_filler hfill]
        exact ih rest.length (Nat.lt_succ_self _) rest records rfl
      · have hround : parseLine filename lines (line :: rest) records = _ := parseLine_tokens hfill rest
        simp only [reaches_past hfill]
        obtain ⟨keyword, args, htok⟩ := List.exists_cons_of_ne_nil fun h => hfill (.inr (.inr h))
        by_cases hw : WellHeaded (tokenize line)
        · have hfollows : Follows (parseTokens ⟨filename, lines.length - (line :: rest).length + 1⟩ (keyword :: args)
              (line :: rest) records) (resume (keyword :: args) rest) := follows_resume (htok ▸ hw)
          rw [← htok, ← hround] at hfollows
          cases hres : resume (tokenize line) rest with
          | none =>
            rw [hres] at hfollows
            refine iff_of_true (safe_of_ends hfollows) ?_
            rintro tokens (rfl | ⟨rest', h, -⟩)
            · exact hw
            · cases h
          | some rest' =>
            rw [hres] at hfollows
            rcases hfollows with ⟨records', hgo⟩ | ⟨rfl, hends⟩
            · rw [parseLoop_goOn (List.cons_ne_nil _ _) hgo, ih _ (parseLine_shrinks hgo) rest' records' rfl]
              constructor
              · rintro h tokens (rfl | ⟨rest'', hres', hreach⟩)
                · exact hw
                · cases hres'
                  exact h tokens hreach
              · exact fun h tokens hreach => h tokens (.inr ⟨rest', rfl, hreach⟩)
            · refine iff_of_true (safe_of_ends hends) ?_
              rintro tokens (rfl | ⟨rest'', hres', hreach⟩)
              · exact hw
              · cases hres'
                exact absurd hreach not_reaches_nil
        · refine iff_of_false ?_ fun h => hw (h _ (.inl rfl))
          intro hsafe
          obtain ⟨cause, hcause⟩ : ∃ cause, parseTokens ⟨filename, lines.length - (line :: rest).length + 1⟩
              (keyword :: args) (line :: rest) records = .error (.undefined cause) :=
            undefined_of_not_wellHeaded (htok ▸ hw)
          rw [← htok, ← hround] at hcause
          exact hsafe cause (parseLoop_error (List.cons_ne_nil _ _) hcause)

/-- **Safety of the parser.**  `Parse` returns records or throws, and reads no token that is not there, moves no
iterator past the end and uses no flag that was not set, exactly if every header line that parsing comes to
has a word behind `no`, and `ok` or `error` behind `statement`. -/
theorem parse_safe_iff (script : Text) :
    Safe (parse script) ↔
      ∀ tokens, Reaches (split 10 (replace [13, 10] [10] script)) tokens → WellHeaded tokens :=
  parseLoop_safe_iff ..

/-- `statement` alone: the parser reads a second token that is not there. -/
theorem statement_alone_unsafe :
    parse (ascii "statement\n") = .error (.undefined .tokenOutOfRange) ∧ ¬ Safe (parse (ascii "statement\n")) := by
  have hword : IsWord (ascii "statement") := by decide
  have hfill : ¬ IsFiller (ascii "statement") := by
    rintro (h | h | h)
    · exact absurd h (by decide)
    · exact absurd h (by decide)
    · rw [tokenize_word hword] at h
      cases h
  have hround : parseLine (ascii "<main>") [ascii "statement"] [ascii "statement"] [] =
      .error (.undefined .tokenOutOfRange) := by
    rw [parseLine_tokens hfill, tokenize_word hword]
    rfl
  have hparse : parse (ascii "statement\n") = .error (.undefined .tokenOutOfRange) := by
    have hscript : ascii "statement\n" = unlines [10] [ascii "statement"] := by decide
    have hplain : ∀ line ∈ [ascii "statement"], Plain line := by
      intro line hline
      rw [List.mem_singleton.mp hline]
      decide
    rw [hscript, parse_unlines [10] (.inl rfl) hplain]
    exact parseLoop_error (List.cons_ne_nil _ _) hround
  exact ⟨hparse, fun hsafe => hsafe _ hparse⟩

end Scripts

end Journey.SqlLogicTest
