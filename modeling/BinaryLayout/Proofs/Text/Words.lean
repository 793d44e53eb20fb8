import BinaryLayout.Text.Basic
import Mathlib.Data.List.Basic
import Mathlib.Data.List.TakeWhile
import Mathlib.Tactic.Common

/-!
# The words and the lines of a text

The words of a text are found by skipping blanks and taking the longest run behind them. They are
the same as the parts that arise when the text is cut at every single blank, the empty parts aside.

A text consists of lines when every line in it is ended by a newline and holds no other. The lines
are then the parts between the newlines, so they can be told from the text.

## Main definitions

* `unlines`, `lines`: a text of lines, and the lines of a text.

## Main results

* `words_eq_filter_splitOnP`: the two ways of finding words agree.
* `lines_unlines`: the lines of a text of lines are those that it was made of.
* `notMem_intercalate`: what holds no newline in its parts is one line.
-/

namespace BinaryLayout.Text

/-! ### Words -/

/-- Blanks at the beginning only cut off empty parts. -/
theorem filter_splitOnP_dropWhile (s : List Char) :
    ((s.dropWhile isBlank).splitOnP isBlank).filter (· ≠ []) =
      (s.splitOnP isBlank).filter (· ≠ []) := by
  induction s with
  | nil => rfl
  | cons c s ih =>
    by_cases hc : isBlank c = true
    · rw [List.dropWhile_cons_of_pos hc, ih, List.splitOnP_cons_eq_if_modifyHead, if_pos hc]
      simp
    · rw [List.dropWhile_cons_of_neg hc]

/-- A run of other characters is the first part, and a blank behind it only cuts it off. -/
theorem filter_splitOnP_append {w s : List Char} (hw : w ≠ []) (hink : ∀ c ∈ w, isBlank c = false)
    (hs : ∀ c ∈ s.head?, isBlank c = true) :
    ((w ++ s).splitOnP isBlank).filter (· ≠ []) =
      w :: (s.splitOnP isBlank).filter (· ≠ []) := by
  cases s with
  | nil => simp [List.splitOnP_eq_singleton hink, hw]
  | cons c s =>
    have hc : isBlank c = true := hs c rfl
    rw [List.splitOnP_append_cons_of_forall_mem hink c hc, List.splitOnP_cons_eq_if_modifyHead,
      if_pos hc]
    simp [hw]

/-- The first word has no blanks. -/
theorem not_blank_of_mem_word {s rest : List Char} {c : Char}
    (h : s.dropWhile isBlank = c :: rest) :
    ∀ x ∈ c :: rest.takeWhile isInk, isBlank x = false := by
  intro x hx
  rcases List.mem_cons.mp hx with rfl | hx
  · have := List.head?_dropWhile_not isBlank s
    simpa [h] using this
  · simpa [isInk] using List.mem_takeWhile_imp hx

/-- What follows the first word begins with a blank. -/
theorem blank_of_mem_head? (rest : List Char) :
    ∀ x ∈ (rest.dropWhile isInk).head?, isBlank x = true := by
  intro x hx
  have := List.head?_dropWhile_not isInk rest
  rw [Option.mem_def.mp hx] at this
  simpa [isInk] using this

theorem words_eq_filter_splitOnP (s : List Char) :
    words s = (s.splitOnP isBlank).filter (· ≠ []) := by
  fun_induction words s with
  | case1 s h =>
    rw [← filter_splitOnP_dropWhile, h]
    rfl
  | case2 s c rest h ih =>
    rw [ih, ← filter_splitOnP_dropWhile s, h,
      ← filter_splitOnP_append (List.cons_ne_nil _ _) (not_blank_of_mem_word h)
        (blank_of_mem_head? rest), List.cons_append, List.takeWhile_append_dropWhile]

/-! ### Lines -/

/-- The text in which a newline ends each of the lines. -/
def unlines (ls : List (List Char)) : List Char := ls.flatMap (· ++ ['\n'])

/-- The parts of a text that newlines end. -/
def lines (s : List Char) : List (List Char) := (s.splitOn '\n').dropLast

theorem splitOn_unlines {ls : List (List Char)} (h : ∀ line ∈ ls, '\n' ∉ line) :
    (unlines ls).splitOn '\n' = ls ++ [[]] := by
  induction ls with
  | nil => rfl
  | cons line ls ih =>
    obtain ⟨hline, hls⟩ := List.forall_mem_cons.mp h
    have hsplit : unlines (line :: ls) = line ++ '\n' :: unlines ls := by
      rw [unlines, List.flatMap_cons, List.append_assoc, List.singleton_append, unlines]
    rw [hsplit, List.splitOn_append_cons_self_of_not_mem hline, ih hls, List.cons_append]

theorem lines_unlines {ls : List (List Char)} (h : ∀ line ∈ ls, '\n' ∉ line) :
    lines (unlines ls) = ls := by
  rw [lines, splitOn_unlines h, List.dropLast_concat]

/-- A character that is neither in the parts of a text nor between them is not in the text. -/
theorem notMem_intercalate {c : Char} {sep : List Char} {ws : List (List Char)}
    (hsep : c ∉ sep) (h : ∀ w ∈ ws, c ∉ w) : c ∉ sep.intercalate ws := by
  induction ws with
  | nil => exact List.not_mem_nil
  | cons w ws ih =>
    obtain ⟨hw, hws⟩ := List.forall_mem_cons.mp h
    cases ws with
    | nil => rwa [List.intercalate_singleton]
    | cons w' ws =>
      rw [List.intercalate_cons_cons, List.mem_append, List.mem_append, not_or, not_or]
      exact ⟨⟨hw, hsep⟩, ih hws⟩

end BinaryLayout.Text
