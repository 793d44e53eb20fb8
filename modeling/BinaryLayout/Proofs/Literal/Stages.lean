import BinaryLayout.Literal
import BinaryLayout.Proofs.Literal.Grammar

/-!
# The stages of reading a literal

A literal is read in stages: a sign, a mark with hexadecimal digits or else decimal digits, and at
last a check that nothing is left and that the integer is a signed word. A choice that has been made
is kept, and a number that is no 64-bit word is given up for the next choice. None of this shows
from outside: what the stages read is what the grammar gives to the text.

## Main results

* `Reader.whole_digits`, `Reader.whole_convert`, `Reader.whole_orElse`: what readers make of a whole
  text.
* `whole_magnitude`: the number of a text without a sign.
* `read?_eq_value?`: the stages follow the grammar.
-/

namespace BinaryLayout

/-! ### Readers -/

namespace Reader

variable {α β : Type} {r r' : Reader α} {s : List Char}

theorem orElse_of_none (h : r s = none) : r.orElse r' s = r' s := by
  rw [orElse, h]

/-- If the second choice cannot read the whole text, the first one has to. -/
theorem whole_orElse (h : r'.whole s = none) :
    (r.orElse r').whole s = r.whole s := by
  cases hr : r s with
  | some result => simp only [whole, orElse, hr]
  | none =>
    rw [whole] at h
    simp only [whole, orElse, hr, h]

/-- Turning what is read into something else does not change what is left. -/
theorem whole_convert (r : Reader α) (f : α → Option β) (s : List Char) :
    (r.convert f).whole s = (r.whole s).bind f := by
  rw [whole, whole, convert]
  rcases r s with _ | ⟨a, _ | ⟨c, rest⟩⟩
  · rfl
  · dsimp only [Option.bind_some]
    cases f a <;> rfl
  · dsimp only [Option.bind_none]
    cases f a <;> rfl

/-- The whole of a text can be read as digits if it has nothing else. -/
theorem whole_digits (base : Nat) (s : List Char) : (digits base).whole s =
    if s ≠ [] ∧ s.all (Text.isDigitOf base) then some s else none := by
  have hsplit := List.takeWhile_append_dropWhile (p := Text.isDigitOf base) (l := s)
  have hall : s.all (Text.isDigitOf base) ↔ s.dropWhile (Text.isDigitOf base) = [] := by
    rw [List.all_eq_true, List.dropWhile_eq_nil_iff]
  simp only [whole, digits, hall]
  cases htake : s.takeWhile (Text.isDigitOf base) with
  | nil =>
    rw [htake, List.nil_append] at hsplit
    exact (if_neg fun h => h.1 (hsplit ▸ h.2)).symm
  | cons d ds =>
    cases hdrop : s.dropWhile (Text.isDigitOf base) with
    | nil =>
      rw [htake, hdrop, List.append_nil] at hsplit
      simp [← hsplit]
    | cons c rest => simp

/-- Behind a mark a text is read as if the mark were not there. -/
theorem whole_behind {mark : Reader β} {b : β} {t : List Char} (h : mark s = some (b, t)) :
    (mark.behind r).whole s = r.whole t := by
  simp only [whole, behind, h]

end Reader

/-! ### The number of a literal -/

namespace Literal

variable {s digits mark : List Char}

theorem hexMark_append (hmark : mark ∈ hexMarks) (s : List Char) :
    hexMark (mark ++ s) = some (mark, s) := by
  simp only [hexMarks, List.mem_cons, List.not_mem_nil, or_false] at hmark
  rcases hmark with rfl | rfl | rfl <;> rfl

/-- A text that begins with no mark has none to read. -/
theorem hexMark_eq_none (h : ∀ mark ∈ hexMarks, ¬ mark <+: s) : hexMark s = none := by
  have hword (mark : List Char) (hmark : mark ∈ hexMarks) : Reader.word mark s = none :=
    if_neg fun hprefix => h mark hmark (List.isPrefixOf_iff_prefix.mp hprefix)
  rw [hexMark, Reader.orElse_of_none (hword _ (by decide)),
    Reader.orElse_of_none (hword _ (by decide))]
  exact hword _ (by decide)

/-- No mark is made of decimal digits. -/
theorem not_all_isDigitOf_append (hmark : mark ∈ hexMarks) (s : List Char) :
    ¬ (mark ++ s).all (Text.isDigitOf 10) := by
  simp only [hexMarks, List.mem_cons, List.not_mem_nil, or_false] at hmark
  rcases hmark with rfl | rfl | rfl <;> exact Bool.false_ne_true

/-- Digits are read as the numeral that they are, if it stands for a word. -/
theorem whole_digits_bind (count base : Nat) (s : List Char) :
    ((Reader.digits base).whole s).bind (Word.ofNumeral? count base) =
      Word.ofNumeral? count base s := by
  rw [Reader.whole_digits]
  split_ifs with h
  · rfl
  · rw [Word.ofNumeral?, Text.numeral?, if_neg h]
    rfl

/-- Behind a mark there are hexadecimal digits, and without them the text is no number at all. -/
theorem whole_magnitude_mark (hmark : mark ∈ hexMarks) (s : List Char) :
    magnitude.whole (mark ++ s) = Word.ofNumeral? Word.count64 16 s := by
  have hdecimal : ((Reader.digits 10).convert unmarked?).whole (mark ++ s) = none := by
    rw [Reader.whole_convert, Reader.whole_digits,
      if_neg fun h => not_all_isDigitOf_append hmark s h.2]
    rfl
  rw [magnitude, Reader.whole_orElse hdecimal, Reader.whole_convert,
    Reader.whole_behind (hexMark_append hmark s), whole_digits_bind]

/-- Without a mark all of the text has to be decimal digits. -/
theorem whole_magnitude_unmarked (h : ∀ mark ∈ hexMarks, ¬ mark <+: s) :
    magnitude.whole s =
      if s ≠ [] ∧ s.all (Text.isDigitOf 10) then unmarked? s else none := by
  have hhex : ((hexMark.behind (Reader.digits 16)).convert
      (Word.ofNumeral? Word.count64 16)) s = none := by
    simp only [Reader.convert, Reader.behind, hexMark_eq_none h]
  have hdecimal := Reader.whole_convert (Reader.digits 10) unmarked? s
  rw [Reader.whole_digits] at hdecimal
  rw [Reader.whole, magnitude, Reader.orElse_of_none hhex, ← Reader.whole, hdecimal]
  split_ifs <;> rfl

/-- A numeral of a base up to ten is made of decimal digits. -/
theorem decimal_of_numeral {base n : Nat} (hbase : base ≤ 10) (h : Text.Numeral base s n) :
    s ≠ [] ∧ s.all (Text.isDigitOf 10) := by
  refine ⟨h.isWord.ne_nil, List.all_eq_true.mpr fun c hc => ?_⟩
  exact Text.isDigitOf_of_le hbase (List.all_eq_true.mp h.all_isDigitOf c hc)

/-- A literal that begins with no mark is made of decimal digits. -/
theorem Magnitude.decimal_of_unmarked {n : Nat} (h : Magnitude s n)
    (hmark : ∀ mark ∈ hexMarks, ¬ mark <+: s) : s ≠ [] ∧ s.all (Text.isDigitOf 10) := by
  cases h with
  | hexadecimal mark hmem => exact absurd (List.prefix_append mark _) (hmark mark hmem)
  | octal h =>
    obtain ⟨-, hall⟩ := decimal_of_numeral (by decide) h
    exact ⟨List.cons_ne_nil _ _, by rw [List.all_cons, hall]; rfl⟩
  | decimal h => exact decimal_of_numeral le_rfl h

/-- Decimal digits stand for an octal number behind a leading zero. -/
theorem unmarked?_eq (hne : s ≠ []) (hall : s.all (Text.isDigitOf 10)) :
    unmarked? s = (magnitude? s).filter (· < Word.count64) := by
  have hhead (c : Char) (hc : Text.isDigitOf 10 c = false) (t : List Char)
      (ht : t.all (Text.isDigitOf 10)) : t.head? ≠ some c := fun h => by
    rw [List.all_eq_true.mp ht c (List.mem_of_head? h)] at hc
    cases hc
  rw [unmarked?]
  split_ifs with hzero
  · obtain ⟨hlength, hzero⟩ := hzero
    obtain ⟨t, rfl⟩ := List.head?_eq_some_iff.mp hzero
    have ht : t.all (Text.isDigitOf 10) := by
      rw [List.all_cons, Bool.and_eq_true] at hall
      exact hall.2
    have htail : t ≠ [] := fun h => absurd hlength (by simp [h])
    rw [List.tail_cons, Word.ofNumeral?,
      magnitude?_eq_octal htail (hhead 'x' rfl t ht) (hhead 'X' rfl t ht)]
  · have hdecimal : s.length = 1 ∨ s.head? ≠ some '0' := by
      have hpos := List.length_pos_iff.mpr hne
      by_cases hlength : s.length = 1
      · exact .inl hlength
      · exact .inr fun h => hzero ⟨by omega, h⟩
    rw [Word.ofNumeral?, magnitude?_eq_decimal (hhead '#' rfl s hall) hdecimal]

/-- **Numbers.** The number of a text is the one that the grammar gives to it, if it is a word. -/
theorem whole_magnitude (s : List Char) :
    magnitude.whole s = (magnitude? s).filter (· < Word.count64) := by
  by_cases hmark : ∃ mark ∈ hexMarks, mark <+: s
  · obtain ⟨mark, hmark, digits, rfl⟩ := hmark
    rw [whole_magnitude_mark hmark, magnitude?_eq_hexadecimal hmark, Word.ofNumeral?]
  · have hmark : ∀ mark ∈ hexMarks, ¬ mark <+: s := fun mark hmem h => hmark ⟨mark, hmem, h⟩
    rw [whole_magnitude_unmarked hmark]
    split_ifs with h
    · exact unmarked?_eq h.1 h.2
    · cases hnumber : magnitude? s with
      | none => rfl
      | some n => exact absurd ((magnitude?_eq_some_iff.mp hnumber).decimal_of_unmarked hmark) h

/-! ### The integer of a literal -/

/-- The sign of a text, and what is behind it, give the integer of the text. -/
theorem exists_sign (s : List Char) : ∃ sign t,
    Reader.optional (Reader.oneOf ['+', '-']) s = some (sign, t) ∧
      integer? s = (magnitude? t).map (withSign sign) := by
  unfold integer?
  split
  · exact ⟨some '-', _, rfl, rfl⟩
  · exact ⟨some '+', _, rfl, rfl⟩
  · next hminus hplus =>
    refine ⟨none, s, ?_, rfl⟩
    cases s with
    | nil => rfl
    | cons c s =>
      have hc : c ∉ ['+', '-'] := by
        simp only [List.mem_cons, List.not_mem_nil, or_false, not_or]
        exact ⟨fun h => hplus s (h ▸ rfl), fun h => hminus s (h ▸ rfl)⟩
      rw [Reader.optional, Reader.oneOf, if_neg hc]

theorem whole_signed {sign : Option Char} {t : List Char}
    (h : Reader.optional (Reader.oneOf ['+', '-']) s = some (sign, t)) :
    signed.whole s = (magnitude.whole t).map (sign, ·) := by
  have hconvert := Reader.whole_convert magnitude (fun n => some (sign, n)) t
  rw [Reader.whole] at hconvert
  rw [Reader.whole, signed, h]
  exact hconvert.trans Option.map_eq_bind.symm

/-- A number that is no 64-bit word is no signed one with any sign either. -/
theorem isSigned64_withSign {n : Nat} (h : ¬ n < Word.count64) (sign : Option Char) :
    Word.isSigned64 (withSign sign n) = false := by
  have hhalf : Word.count64 = Word.half64 + Word.half64 := rfl
  have hpos : 0 < Word.half64 := by decide
  rw [Word.isSigned64, Bool.and_eq_false_iff, decide_eq_false_iff_not, decide_eq_false_iff_not,
    withSign]
  split_ifs <;> omega

/-- **Stages.** What the stages read is the value that the grammar gives to the text. -/
theorem read?_eq_value? (s : List Char) : read? s = value? s := by
  obtain ⟨sign, t, hsign, hinteger⟩ := exists_sign s
  rw [read?, whole_signed hsign, whole_magnitude, value?, hinteger]
  cases magnitude? t with
  | none => rfl
  | some n =>
    by_cases hn : n < Word.count64
    · simp only [Option.filter_some, decide_eq_true hn, if_true, Option.map_some]
      split_ifs <;> rfl
    · simp only [Option.filter_some, decide_eq_false hn, Bool.false_eq_true, if_false,
        Option.map_some, Option.map_none, isSigned64_withSign hn]

end Literal

end BinaryLayout
