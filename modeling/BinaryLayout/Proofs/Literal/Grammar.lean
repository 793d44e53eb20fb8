import BinaryLayout.Proofs.Text.Numerals
import BinaryLayout.Word

/-!
# The grammar of integer literals

A literal is a numeral in one of three bases, told by what it begins with, and a sign may stand in
front of it. The grammar tells for every text at most one integer, with no bound on its size, and
the texts whose integer is a signed 64-bit word are those with a value. Every such word is written
in decimal as a literal for it.

## Main definitions

* `Magnitude`: the literals without a sign, and their numbers.
* `Denotes`: the literals and their integers.
* `integer?`, `value?`: the integer and the value that the grammar gives to a text.

## Main results

* `value?_eq_some_iff`: a text has a value if it is a literal for it.
* `value?_signedDecimal`: a value in decimal has itself as its value.
-/

namespace BinaryLayout.Literal

open Text (Digit Numeral)

variable {s : List Char} {n : Nat} {i : Int}

/-- What a hexadecimal literal begins with. -/
def hexMarks : List (List Char) := [['#'], ['0', 'x'], ['0', 'X']]

/-- The text is a literal without a sign for the number. A decimal literal has no zero in front
unless the zero is all of it; an octal one has at least one digit behind its zero. -/
inductive Magnitude : List Char → Nat → Prop
  | hexadecimal (mark : List Char) {digits : List Char} {n : Nat} (hmark : mark ∈ hexMarks)
      (h : Numeral 16 digits n) : Magnitude (mark ++ digits) n
  | octal {digits : List Char} {n : Nat} (h : Numeral 8 digits n) : Magnitude ('0' :: digits) n
  | decimal {digits : List Char} {n : Nat} (h : Numeral 10 digits n)
      (hzero : digits.length = 1 ∨ digits.head? ≠ some '0') : Magnitude digits n

/-- The text is a literal for the integer. -/
inductive Denotes : List Char → Int → Prop
  | unsigned {s : List Char} {n : Nat} (h : Magnitude s n) : Denotes s n
  | plus {s : List Char} {n : Nat} (h : Magnitude s n) : Denotes ('+' :: s) n
  | minus {s : List Char} {n : Nat} (h : Magnitude s n) : Denotes ('-' :: s) (-n)

/-- The number that a literal without a sign denotes. -/
def magnitude? : List Char → Option Nat
  | '#' :: digits => Text.numeral? 16 digits
  | '0' :: 'x' :: digits => Text.numeral? 16 digits
  | '0' :: 'X' :: digits => Text.numeral? 16 digits
  | '0' :: d :: digits => Text.numeral? 8 (d :: digits)
  | digits => Text.numeral? 10 digits

/-- The integer that a literal denotes, with no bound on its size. -/
def integer? : List Char → Option Int
  | '-' :: body => (magnitude? body).map fun n : Nat => -(n : Int)
  | '+' :: body => (magnitude? body).map fun n : Nat => (n : Int)
  | body => (magnitude? body).map fun n : Nat => (n : Int)

/-- The value that a literal denotes. -/
def value? (s : List Char) : Option Int64 :=
  ((integer? s).filter Word.isSigned64).map Int64.ofInt

/-! ### Literals without a sign -/

/-- A numeral begins with a digit. -/
theorem head?_numeral_ne {base : Nat} {c : Char} (h : Numeral base s n)
    (hc : Text.digit? c = none) : s.head? ≠ some c := by
  intro hhead
  have hdigit := List.all_eq_true.mp h.all_isDigitOf c (List.mem_of_head? hhead)
  rw [Text.isDigitOf, hc] at hdigit
  exact Bool.noConfusion hdigit

theorem magnitude?_eq_hexadecimal {mark : List Char} (hmark : mark ∈ hexMarks)
    (digits : List Char) : magnitude? (mark ++ digits) = Text.numeral? 16 digits := by
  simp only [hexMarks, List.mem_cons, List.not_mem_nil, or_false] at hmark
  rcases hmark with rfl | rfl | rfl <;> rfl

theorem magnitude?_eq_octal (h : s ≠ []) (hlower : s.head? ≠ some 'x')
    (hupper : s.head? ≠ some 'X') : magnitude? ('0' :: s) = Text.numeral? 8 s := by
  obtain ⟨d, digits, rfl⟩ := List.exists_cons_of_ne_nil h
  unfold magnitude?
  split <;> simp_all

theorem magnitude?_eq_decimal (hmark : s.head? ≠ some '#')
    (hzero : s.length = 1 ∨ s.head? ≠ some '0') : magnitude? s = Text.numeral? 10 s := by
  unfold magnitude?
  split <;> simp_all

/-- A text with nothing behind a leading zero is of one character or has no leading zero. -/
theorem length_eq_one_or_head?_ne (hne : s ≠ [])
    (h : ∀ c digits, s = '0' :: c :: digits → False) :
    s.length = 1 ∨ s.head? ≠ some '0' := by
  rcases s with _ | ⟨c, _ | ⟨d, digits⟩⟩
  · exact absurd rfl hne
  · exact .inl rfl
  · exact .inr fun hc => h d digits (Option.some.inj hc ▸ rfl)

theorem magnitude?_eq_some_iff : magnitude? s = some n ↔ Magnitude s n := by
  constructor
  · intro h
    unfold magnitude? at h
    split at h
    · exact .hexadecimal ['#'] (by decide) (Text.numeral?_eq_some_iff.mp h)
    · exact .hexadecimal ['0', 'x'] (by decide) (Text.numeral?_eq_some_iff.mp h)
    · exact .hexadecimal ['0', 'X'] (by decide) (Text.numeral?_eq_some_iff.mp h)
    · exact .octal (Text.numeral?_eq_some_iff.mp h)
    · rename_i hoctal
      have hdigits := Text.numeral?_eq_some_iff.mp h
      exact .decimal hdigits (length_eq_one_or_head?_ne hdigits.isWord.ne_nil hoctal)
  · intro h
    cases h with
    | hexadecimal mark hmark h =>
      rw [magnitude?_eq_hexadecimal hmark]
      exact Text.numeral?_eq_some_iff.mpr h
    | octal h =>
      rw [magnitude?_eq_octal h.isWord.ne_nil (head?_numeral_ne h rfl) (head?_numeral_ne h rfl)]
      exact Text.numeral?_eq_some_iff.mpr h
    | decimal h hzero =>
      rw [magnitude?_eq_decimal (head?_numeral_ne h rfl) hzero]
      exact Text.numeral?_eq_some_iff.mpr h

/-! ### Signs -/

/-- A literal without a sign begins with a digit or the number sign. -/
theorem Magnitude.head?_ne {c : Char} (h : Magnitude s n) (hdigit : Text.digit? c = none)
    (hmark : c ≠ '#') : s.head? ≠ some c := by
  intro hhead
  have hzero : s.head? ≠ some '0' := by
    rw [hhead]
    rintro ⟨rfl⟩
    exact absurd hdigit (by decide)
  have hhash : s.head? ≠ some '#' := fun heq => hmark (Option.some.inj (hhead.symm.trans heq))
  rw [← magnitude?_eq_some_iff, magnitude?_eq_decimal hhash (.inr hzero)] at h
  exact head?_numeral_ne (Text.numeral?_eq_some_iff.mp h) hdigit hhead

theorem integer?_eq_some_iff : integer? s = some i ↔ Denotes s i := by
  constructor
  · intro h
    unfold integer? at h
    split at h
    · obtain ⟨n, hn, rfl⟩ := Option.map_eq_some_iff.mp h
      exact .minus (magnitude?_eq_some_iff.mp hn)
    · obtain ⟨n, hn, rfl⟩ := Option.map_eq_some_iff.mp h
      exact .plus (magnitude?_eq_some_iff.mp hn)
    · obtain ⟨n, hn, rfl⟩ := Option.map_eq_some_iff.mp h
      exact .unsigned (magnitude?_eq_some_iff.mp hn)
  · intro h
    cases h with
    | unsigned h =>
      have hminus : s.head? ≠ some '-' := h.head?_ne (by decide) (by decide)
      have hplus : s.head? ≠ some '+' := h.head?_ne (by decide) (by decide)
      unfold integer?
      split
      · exact absurd rfl hminus
      · exact absurd rfl hplus
      · rw [magnitude?_eq_some_iff.mpr h]
        rfl
    | plus h =>
      rw [integer?, magnitude?_eq_some_iff.mpr h]
      rfl
    | minus h =>
      rw [integer?, magnitude?_eq_some_iff.mpr h]
      rfl

/-! ### Values -/

/-- **Literals.** A text has a value if it is a literal for it, and none if it is no literal or one
of an integer beyond the signed 64-bit words. -/
theorem value?_eq_some_iff {v : Int64} : value? s = some v ↔ Denotes s v.toInt := by
  rw [value?, Option.map_eq_some_iff]
  constructor
  · rintro ⟨i, hi, rfl⟩
    obtain ⟨hi, hsigned⟩ := Option.filter_eq_some_iff.mp hi
    simp only [Word.isSigned64, Bool.and_eq_true, decide_eq_true_eq] at hsigned
    rw [Int64.toInt_ofInt_of_le hsigned.1 hsigned.2]
    exact integer?_eq_some_iff.mp hi
  · intro h
    refine ⟨v.toInt, Option.filter_eq_some_iff.mpr ⟨?_, Word.isSigned64_toInt v⟩, ?_⟩
    · exact integer?_eq_some_iff.mpr h
    · exact Int64.ofInt_toInt v

instance (s : List Char) : Decidable (∃ v : Int64, Denotes s v.toInt) :=
  decidable_of_iff ((value? s).isSome = true) (by
    simp only [Option.isSome_iff_exists, value?_eq_some_iff])

theorem magnitude_decimal (n : Nat) : Magnitude (Text.decimal n) n := by
  refine .decimal (Text.numeral_decimal n) ?_
  rcases Nat.eq_zero_or_pos n with rfl | hpos
  · exact .inl rfl
  · exact .inr (Text.head?_decimal_ne hpos)

theorem denotes_signedDecimal (i : Int) : Denotes (Text.signedDecimal i) i := by
  rw [Text.signedDecimal]
  split
  · have hminus := Denotes.minus (magnitude_decimal i.natAbs)
    rwa [show -(i.natAbs : Int) = i by omega] at hminus
  · have hunsigned := Denotes.unsigned (magnitude_decimal i.natAbs)
    rwa [show (i.natAbs : Int) = i by omega] at hunsigned

/-- **Decimal values.** A value that is written in decimal is the value of what is written. -/
theorem value?_signedDecimal (v : Int64) : value? (Text.signedDecimal v.toInt) = some v :=
  value?_eq_some_iff.mpr (denotes_signedDecimal v.toInt)

theorem isWord_signedDecimal (i : Int) : Text.IsWord (Text.signedDecimal i) := by
  have hdecimal := (Text.numeral_decimal i.natAbs).isWord
  have hsign : ['-'].all Text.isInk = true := rfl
  rw [Text.signedDecimal]
  split
  · exact hdecimal.append_left hsign
  · exact hdecimal

end BinaryLayout.Literal
