import Journey.Bustub.Type.Cast
import Mathlib.Data.List.DropRight

/-!
# Journey.Bustub.Common.StringUtil — lines of a text

The functions of `StringUtil` that the SQLLogicTest parser cuts its script with, on texts as lists of bytes.

* `startsWith`, `rTrim`, `replace`, `split`: the functions.
* `unlines eol lines`: the text with a line end behind each line.
* `split_unlines`, `replace_crlf`: lines that hold no line end come back, from either kind of line end.
-/

namespace Journey.StringUtil

open SqlType (isSpace)

/-- `std::string`. -/
abbrev Text := List UInt8

/-! ## The functions -/

section Model

/-- `StringUtil::StartsWith`. -/
def startsWith (str start : Text) : Bool := start.isPrefixOf str

/-- `StringUtil::RTrim`. -/
def rTrim (str : Text) : Text := str.rdropWhile isSpace

/-- `StringUtil::Replace` of `from`, which is not empty, by `to`. -/
def replace (pat sub : Text) : Text → Text
  | [] => []
  | b :: source =>
    if pat ≠ [] ∧ pat <+: b :: source then sub ++ replace pat sub ((b :: source).drop pat.length)
    else b :: replace pat sub source
termination_by source => source.length
decreasing_by
  · rename_i hpat
    have hpos := List.length_pos_of_ne_nil hpat.1
    rw [List.length_drop, List.length_cons]
    omega
  · exact Nat.lt_succ_self _

/-- `StringUtil::Split`: `std::getline` until the stream is at its end. -/
def split (delimiter : UInt8) : Text → List Text
  | [] => []
  | b :: str =>
    let temp := (b :: str).takeWhile (· ≠ delimiter)
    temp :: split delimiter ((b :: str).drop (temp.length + 1))
termination_by str => str.length
decreasing_by
  rw [List.length_drop, List.length_cons]
  omega

end Model

/-! ## Lines -/

section Lines

variable {line str : Text} {lines : List Text} {delimiter : UInt8}

/-- Lines with the line end `eol`. -/
def unlines (eol : Text) (lines : List Text) : Text := lines.flatMap fun line => line ++ eol

theorem split_line (hline : delimiter ∉ line) (str : Text) :
    split delimiter (line ++ delimiter :: str) = line :: split delimiter str := by
  have htake : (line ++ delimiter :: str).takeWhile (· ≠ delimiter) = line := by
    rw [List.takeWhile_append_of_pos, List.takeWhile_cons_of_neg (by simp), List.append_nil]
    intro b hb
    rw [decide_eq_true_iff]
    rintro rfl
    exact hline hb
  have hdrop : (line ++ delimiter :: str).drop (line.length + 1) = str := by
    rw [List.drop_length_add_append]
    rfl
  cases line with
  | nil =>
    rw [List.nil_append, split]
    simp
  | cons b line =>
    rw [List.cons_append, split]
    rw [List.cons_append] at htake hdrop
    rw [htake, hdrop]

/-- **Lines that hold no delimiter** are what the text is split into. -/
theorem split_unlines (hlines : ∀ line ∈ lines, delimiter ∉ line) :
    split delimiter (unlines [delimiter] lines) = lines := by
  induction lines with
  | nil => exact split.eq_1 ..
  | cons line lines ih =>
    rw [unlines, List.flatMap_cons, List.append_assoc, List.singleton_append,
      split_line (hlines line (List.mem_cons_self ..))]
    exact congrArg (line :: ·) (ih fun l hl => hlines l (List.mem_cons_of_mem _ hl))

variable {first : UInt8} {pat sub : Text}

theorem replace_append (hline : first ∉ line) (str : Text) :
    replace (first :: pat) sub (line ++ str) = line ++ replace (first :: pat) sub str := by
  induction line with
  | nil => rfl
  | cons b line ih =>
    have hne : ¬ (first :: pat ≠ [] ∧ first :: pat <+: b :: (line ++ str)) := by
      rintro ⟨-, hpre⟩
      rw [List.cons_prefix_cons] at hpre
      exact hline (hpre.1 ▸ List.mem_cons_self ..)
    rw [List.cons_append, replace, if_neg hne, ih fun hmem => hline (List.mem_cons_of_mem _ hmem)]
    rfl

theorem replace_pattern (str : Text) :
    replace (first :: pat) sub (first :: pat ++ str) = sub ++ replace (first :: pat) sub str := by
  have hpre : first :: pat ≠ [] ∧ first :: pat <+: first :: (pat ++ str) :=
    ⟨List.cons_ne_nil _ _, List.prefix_append (first :: pat) str⟩
  rw [List.cons_append, replace, if_pos hpre, List.length_cons, List.drop_succ_cons, List.drop_left]

/-- **A text without the pattern's first byte** stays as it is. -/
theorem replace_of_notMem (hstr : first ∉ str) : replace (first :: pat) sub str = str := by
  have h : replace (first :: pat) sub (str ++ []) = _ := replace_append hstr []
  rwa [List.append_nil, replace, List.append_nil] at h

/-- **Other line ends** are replaced, and nothing else. -/
theorem replace_unlines (hlines : ∀ line ∈ lines, first ∉ line) :
    replace (first :: pat) sub (unlines (first :: pat) lines) = unlines sub lines := by
  induction lines with
  | nil => exact replace.eq_1 ..
  | cons line lines ih =>
    rw [unlines, List.flatMap_cons, List.append_assoc, replace_append (hlines line (List.mem_cons_self ..)),
      replace_pattern]
    rw [unlines, List.flatMap_cons, List.append_assoc]
    exact congrArg (fun text => line ++ (sub ++ text)) (ih fun l hl => hlines l (List.mem_cons_of_mem _ hl))

end Lines

/-! ## Trailing white space -/

section Trim

variable {str : Text} {b : UInt8}

theorem rTrim_concat_space (hb : isSpace b = true) (str : Text) : rTrim (str ++ [b]) = rTrim str :=
  List.rdropWhile_concat_pos _ _ _ hb

theorem rTrim_of_last (hlast : ∀ b, str.getLast? = some b → isSpace b = false) : rTrim str = str := by
  unfold rTrim
  rw [List.rdropWhile_eq_self_iff]
  intro hne
  rw [hlast _ (List.getLast?_eq_some_getLast hne)]
  decide

end Trim

end Journey.StringUtil
