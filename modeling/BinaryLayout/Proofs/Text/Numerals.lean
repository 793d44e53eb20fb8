import BinaryLayout.Proofs.Text.Spacing
import BinaryLayout.Text.Basic
import Mathlib.Algebra.Group.Nat.Defs
import Mathlib.Data.List.Basic
import Mathlib.Data.List.Induction
import Mathlib.Tactic.Common

/-!
# The grammar of numerals

A numeral is a digit, or a numeral with a digit behind it; the digit adds to the base times the
number before it. Reading a text finds the number that this grammar gives it, and fails on every
other text. The digits of a number in a base are a numeral for it, without a zero in front.

A number is also written in lowercase hexadecimal digits with zeros in front up to a least width.
What is written is said without the digits' algorithm: a numeral in lowercase digits that is at
least as long as asked for, and begins with a zero only if it is no longer than that.

## Main definitions

* `Digit`: the characters that stand for a number below sixteen.
* `Numeral`: the texts that stand for a number in a base.
* `IsHexadecimal`: the text of a number in hexadecimal digits.

## Main results

* `numeral?_eq_some_iff`: the reader of numerals follows the grammar.
* `numeral_toDigits`: the digits of a number in a base are a numeral for it.
* `isHexadecimal_hexadecimal`: the digits that are written are the text of the number.
* `length_hexadecimal`: a number that fits in the width is written in so many digits.
-/

namespace BinaryLayout.Text

variable {base n d : Nat} {c : Char} {s : List Char}

/-- The character stands for the number: an ASCII digit for itself, and a letter from `a` to `f` in
either case for one of the numbers from ten on. -/
inductive Digit : Char → Nat → Prop
  | decimal {d : Nat} (h : d < 10) : Digit (Char.ofNat ('0'.toNat + d)) d
  | lower {d : Nat} (h : d < 6) : Digit (Char.ofNat ('a'.toNat + d)) (d + 10)
  | upper {d : Nat} (h : d < 6) : Digit (Char.ofNat ('A'.toNat + d)) (d + 10)

/-- The text stands for the number in the base, the most significant digit first. -/
inductive Numeral (base : Nat) : List Char → Nat → Prop
  | digit {c : Char} {d : Nat} (hc : Digit c d) (hd : d < base) : Numeral base [c] d
  | snoc {s : List Char} {c : Char} {n d : Nat} (h : Numeral base s n) (hc : Digit c d)
      (hd : d < base) : Numeral base (s ++ [c]) (n * base + d)

/-! ### Digits -/

/-- A character between two others is as far behind the first as its code point. -/
theorem exists_offset_of_le {a b : Char} (h : a ≤ c ∧ c ≤ b) :
    ∃ k ≤ b.toNat - a.toNat, c.toNat - a.toNat = k ∧ c = Char.ofNat (a.toNat + k) := by
  simp only [Char.le_def, UInt32.le_iff_toNat_le] at h
  have low : a.toNat ≤ c.toNat := h.1
  have high : c.toNat ≤ b.toNat := h.2
  refine ⟨c.toNat - a.toNat, by omega, rfl, ?_⟩
  rw [Nat.add_sub_cancel' low, Char.ofNat_toNat]

theorem digit?_eq_some_iff : digit? c = some d ↔ Digit c d := by
  constructor
  · intro h
    rw [digit?] at h
    split_ifs at h with hdecimal hlower hupper
    · obtain ⟨k, hk, hvalue, rfl⟩ := exists_offset_of_le hdecimal
      rw [hvalue, Option.some.injEq] at h
      exact h ▸ .decimal (Nat.lt_succ_of_le hk)
    · obtain ⟨k, hk, hvalue, rfl⟩ := exists_offset_of_le hlower
      rw [hvalue, Option.some.injEq] at h
      exact h ▸ .lower (Nat.lt_succ_of_le hk)
    · obtain ⟨k, hk, hvalue, rfl⟩ := exists_offset_of_le hupper
      rw [hvalue, Option.some.injEq] at h
      exact h ▸ .upper (Nat.lt_succ_of_le hk)
  · intro h
    cases h with
    | decimal h => exact (by decide : ∀ k < 10, digit? (Char.ofNat ('0'.toNat + k)) = some k) _ h
    | lower h =>
      exact (by decide : ∀ k < 6, digit? (Char.ofNat ('a'.toNat + k)) = some (k + 10)) _ h
    | upper h =>
      exact (by decide : ∀ k < 6, digit? (Char.ofNat ('A'.toNat + k)) = some (k + 10)) _ h

theorem Digit.not_blank (h : Digit c d) : isBlank c = false := by
  cases h with
  | decimal h => exact (by decide : ∀ k < 10, isBlank (Char.ofNat ('0'.toNat + k)) = false) _ h
  | lower h => exact (by decide : ∀ k < 6, isBlank (Char.ofNat ('a'.toNat + k)) = false) _ h
  | upper h => exact (by decide : ∀ k < 6, isBlank (Char.ofNat ('A'.toNat + k)) = false) _ h

theorem isDigitOf_iff : isDigitOf base c = true ↔ ∃ d, Digit c d ∧ d < base := by
  simp only [isDigitOf, Option.any_eq_true, decide_eq_true_eq, digit?_eq_some_iff]

/-- The digits of a base are digits of every larger one. -/
theorem isDigitOf_of_le {larger : Nat} (h : base ≤ larger) (hc : isDigitOf base c = true) :
    isDigitOf larger c = true := by
  obtain ⟨d, hd, hbase⟩ := isDigitOf_iff.mp hc
  exact isDigitOf_iff.mpr ⟨d, hd, Nat.lt_of_lt_of_le hbase h⟩

theorem digit_digitChar (h : d < 16) : Digit (Nat.digitChar d) d := by
  by_cases hd : d < 10
  · have heq := (by decide : ∀ k < 10, Nat.digitChar k = Char.ofNat ('0'.toNat + k)) d hd
    exact heq ▸ .decimal hd
  · obtain ⟨k, rfl⟩ := Nat.exists_eq_add_of_le' (Nat.le_of_not_lt hd)
    have hk : k < 6 := by omega
    have heq := (by decide : ∀ k < 6, Nat.digitChar (k + 10) = Char.ofNat ('a'.toNat + k)) k hk
    exact heq ▸ .lower hk

/-! ### Numerals -/

theorem Numeral.isWord (h : Numeral base s n) : IsWord s := by
  induction h with
  | digit hc hd => exact ⟨List.cons_ne_nil _ _, List.forall_mem_singleton.mpr hc.not_blank⟩
  | snoc _ hc _ ih =>
    refine ⟨List.append_ne_nil_of_left_ne_nil ih.ne_nil _, ?_⟩
    exact List.forall_mem_append.mpr ⟨ih.not_blank, List.forall_mem_singleton.mpr hc.not_blank⟩

theorem numeralValue_append_singleton (base : Nat) (s : List Char) (hc : Digit c d) :
    numeralValue base (s ++ [c]) = numeralValue base s * base + d := by
  rw [numeralValue, List.foldl_append, List.foldl_cons, List.foldl_nil,
    digit?_eq_some_iff.mpr hc, Option.getD_some, ← numeralValue]

/-- A text of digits is a numeral for its value. -/
theorem numeral_numeralValue (hs : s ≠ []) (h : s.all (isDigitOf base) = true) :
    Numeral base s (numeralValue base s) := by
  induction s using List.reverseRecOn with
  | nil => exact absurd rfl hs
  | append_singleton s c ih =>
    simp only [List.all_append, List.all_cons, List.all_nil, Bool.and_true, Bool.and_eq_true] at h
    obtain ⟨d, hc, hd⟩ := isDigitOf_iff.mp h.2
    rw [numeralValue_append_singleton base s hc]
    by_cases hnil : s = []
    · subst hnil
      simpa [numeralValue] using Numeral.digit hc hd
    · exact .snoc (ih hnil h.1) hc hd

theorem Numeral.all_isDigitOf (h : Numeral base s n) : s.all (isDigitOf base) = true := by
  induction h with
  | digit hc hd => simpa using isDigitOf_iff.mpr ⟨_, hc, hd⟩
  | snoc _ hc hd ih => simpa [ih] using isDigitOf_iff.mpr ⟨_, hc, hd⟩

theorem Numeral.numeralValue_eq (h : Numeral base s n) : numeralValue base s = n := by
  induction h with
  | digit hc _ => simpa [numeralValue] using numeralValue_append_singleton base [] hc
  | snoc _ hc _ ih => rw [numeralValue_append_singleton base _ hc, ih]

/-- **Numerals.** A text is read as the number that it stands for, and fails if it stands for
none. -/
theorem numeral?_eq_some_iff : numeral? base s = some n ↔ Numeral base s n := by
  constructor
  · intro h
    rw [numeral?, Option.ite_none_right_eq_some] at h
    exact Option.some.inj h.2 ▸ numeral_numeralValue h.1.1 h.1.2
  · intro h
    rw [numeral?, if_pos ⟨h.isWord.ne_nil, h.all_isDigitOf⟩, h.numeralValue_eq]

theorem numeral_zero_cons (h : Numeral base s n) : Numeral base ('0' :: s) n := by
  have hzero : Digit '0' 0 := digit?_eq_some_iff.mp (by decide)
  induction h with
  | digit hc hd =>
    have hpair := (Numeral.digit hzero (Nat.zero_lt_of_lt hd)).snoc hc hd
    rwa [Nat.zero_mul, Nat.zero_add] at hpair
  | snoc _ hc hd ih => exact ih.snoc hc hd

/-- Any number of zeros in front of a numeral leaves its number as it is. -/
theorem numeral_replicate_zero_append (h : Numeral base s n) (k : Nat) :
    Numeral base (List.replicate k '0' ++ s) n := by
  induction k with
  | zero => exact h
  | succ k ih => exact numeral_zero_cons ih

/-! ### The digits of a number -/

section Digits

variable (hbase : 1 < base) (hbase' : base ≤ 16)

include hbase hbase'

/-- The digits of a number are a numeral for it. -/
theorem numeral_toDigits (n : Nat) : Numeral base (Nat.toDigits base n) n := by
  induction n using Nat.strong_induction_on with
  | _ n ih =>
    by_cases h : n < base
    · rw [Nat.toDigits_of_lt_base h]
      exact .digit (digit_digitChar (h.trans_le hbase')) h
    · have hlast : n % base < base := Nat.mod_lt n (by omega)
      have hless : n / base < n := Nat.div_lt_self (by omega) hbase
      have hdigits :=
        Numeral.snoc (ih (n / base) hless) (digit_digitChar (hlast.trans_le hbase')) hlast
      rw [Nat.div_add_mod'] at hdigits
      rwa [Nat.toDigits_of_base_le hbase (by omega)]

/-- The digits of a number do not begin with a zero, unless it is zero. -/
theorem head?_toDigits_ne (h : 0 < n) : (Nat.toDigits base n).head? ≠ some '0' := by
  induction n using Nat.strong_induction_on with
  | _ n ih =>
    by_cases hlt : n < base
    · rw [Nat.toDigits_of_lt_base hlt]
      have hdigits : ∀ k < 16, 0 < k → [Nat.digitChar k].head? ≠ some '0' := by decide
      exact hdigits n (hlt.trans_le hbase') h
    · rw [Nat.toDigits_of_base_le hbase (by omega),
        List.head?_append_of_ne_nil _ Nat.toDigits_ne_nil]
      exact ih (n / base) (Nat.div_lt_self (by omega) hbase) (Nat.div_pos (by omega) (by omega))

end Digits

theorem numeral_decimal (n : Nat) : Numeral 10 (decimal n) n :=
  numeral_toDigits (by decide) (by decide) n

theorem decimal_injective : Function.Injective decimal := fun m n h => by
  rw [← (numeral_decimal m).numeralValue_eq, h, (numeral_decimal n).numeralValue_eq]

theorem head?_decimal_ne (h : 0 < n) : (decimal n).head? ≠ some '0' :=
  head?_toDigits_ne (by decide) (by decide) h

/-! ### Numbers in formatted texts -/

theorem toList_toString_nat (n : Nat) : (toString n).toList = decimal n := by
  rw [Nat.toString_eq_repr, Nat.toList_repr]
  rfl

theorem ofList_decimal (n : Nat) : String.ofList (decimal n) = toString n := by
  rw [← toList_toString_nat, String.ofList_toList]

theorem toList_toString_int (i : Int) : (toString i).toList = signedDecimal i := by
  rw [Int.toString_eq_repr, Int.repr_eq_if, signedDecimal]
  by_cases h : i < 0
  · have habs : (-i).toNat = i.natAbs := by omega
    rw [if_neg (by omega), if_pos h, habs, String.toList_append, Nat.toList_repr]
    rfl
  · have habs : i.toNat = i.natAbs := by omega
    rw [if_pos (by omega), if_neg h, habs, Nat.toList_repr]
    rfl

/-! ### Hexadecimal digits up to a width -/

variable {width : Nat}

/-- The lowercase hexadecimal digits. -/
def hexDigits : List Char := "0123456789abcdef".toList

/-- The text is the number in lowercase hexadecimal digits, with zeros in front up to the width and
no further. -/
structure IsHexadecimal (width n : Nat) (s : List Char) : Prop where
  lowercase : ∀ c ∈ s, c ∈ hexDigits
  numeral : Numeral 16 s n
  width_le : width ≤ s.length
  head?_ne : width < s.length → s.head? ≠ some '0'

theorem mem_hexDigits_of_mem_toDigits (h : c ∈ Nat.toDigits 16 n) : c ∈ hexDigits := by
  have hdigits : ∀ k < 16, Nat.digitChar k ∈ hexDigits := by decide
  induction n using Nat.strong_induction_on with
  | _ n ih =>
    by_cases hn : n < 16
    · rw [Nat.toDigits_of_lt_base hn, List.mem_singleton] at h
      exact h ▸ hdigits n hn
    · rw [Nat.toDigits_of_base_le (by decide) (Nat.le_of_not_lt hn), List.mem_append,
        List.mem_singleton] at h
      rcases h with h | rfl
      · exact ih (n / 16) (by omega) h
      · exact hdigits _ (Nat.mod_lt n (by decide))

/-- A number that fits in the width is written in so many digits. -/
theorem length_hexadecimal (hwidth : 0 < width) (h : n < 16 ^ width) :
    (hexadecimal width n).length = width := by
  have hle := (Nat.length_toDigits_le_iff (by decide : 1 < 16) hwidth).mpr h
  rw [hexadecimal, List.length_leftpad, Nat.max_eq_left hle]

theorem numeral_hexadecimal (width n : Nat) : Numeral 16 (hexadecimal width n) n :=
  numeral_replicate_zero_append (numeral_toDigits (by decide) (by decide) n) _

theorem mem_hexDigits_of_mem_hexadecimal (h : c ∈ hexadecimal width n) : c ∈ hexDigits := by
  rcases List.mem_append.mp h with h | h
  · rw [List.eq_of_mem_replicate h]
    decide
  · exact mem_hexDigits_of_mem_toDigits h

/-- **Hexadecimal digits.** What is written for a number is its text. -/
theorem isHexadecimal_hexadecimal (hwidth : 0 < width) (n : Nat) :
    IsHexadecimal width n (hexadecimal width n) where
  lowercase _ := mem_hexDigits_of_mem_hexadecimal
  numeral := numeral_hexadecimal width n
  width_le := by
    rw [hexadecimal, List.length_leftpad]
    exact Nat.le_max_left _ _
  head?_ne h := by
    rw [hexadecimal, List.length_leftpad] at h
    have hlong : width < (Nat.toDigits 16 n).length := by omega
    have hpos : 0 < n := by
      -- Zero is a single digit, which is never longer than the width.
      refine Nat.pos_of_ne_zero fun hzero => ?_
      rw [hzero, Nat.toDigits_zero, List.length_singleton] at hlong
      omega
    rw [hexadecimal, List.leftpad, Nat.sub_eq_zero_of_le hlong.le, List.replicate_zero,
      List.nil_append]
    exact head?_toDigits_ne (by decide) (by decide) hpos

end BinaryLayout.Text
