import BinaryLayout.Definition
import BinaryLayout.Proofs.Literal.Stages
import Mathlib.Algebra.Order.Ring.Int

/-!
# The accepted literals

The datum of a declaration is accepted if it is a literal for a signed 64-bit integer, and the
integer is its value. Every other text is refused with the text itself. The integer that a literal
stands for is computed without bounds, so zeros behind the mark of a hexadecimal or an octal literal
change nothing, however many they are.

## Main definitions

* `ZeroFilled`: a literal with zeros put behind its mark.

## Main results

* `ZeroFilled.integer?_eq`: such a literal stands for the same integer.
* `readDatum_eq_ok_iff`: the accepted texts and their values.
* `accepts_exactly_literals`: what is accepted, what is refused and how, and the zeros that do not
  count.
-/

namespace BinaryLayout.Literal

open Text (Numeral numeral_replicate_zero_append)

variable {s t : List Char} {n : Nat} {i : Int} {base : Nat}

/-! ### Zeros in front -/

/-- What can stand in front of a literal without a sign. -/
def signs : List (List Char) := [[], ['+'], ['-']]

/-- The marks of literals that are not decimal, with their bases. -/
def radixMarks : List (List Char × Nat) := (['0'], 8) :: hexMarks.map (·, 16)

/-- The second text is the first one, a literal with a mark, with zeros behind the mark. -/
inductive ZeroFilled : List Char → List Char → Prop
  | fill {sign digits : List Char} {mark : List Char × Nat} {n : Nat} (hsign : sign ∈ signs)
      (hmark : mark ∈ radixMarks) (h : Numeral mark.2 digits n) (k : Nat) :
      ZeroFilled (sign ++ (mark.1 ++ digits))
        (sign ++ (mark.1 ++ (List.replicate k '0' ++ digits)))

theorem magnitude_mark_append {mark : List Char × Nat} (hmark : mark ∈ radixMarks)
    (h : Numeral mark.2 s n) : Magnitude (mark.1 ++ s) n := by
  rw [radixMarks, List.mem_cons, List.mem_map] at hmark
  rcases hmark with rfl | ⟨hexMark, hmem, rfl⟩
  · exact .octal h
  · exact .hexadecimal hexMark hmem h

/-- A sign changes the number of every literal behind it in one way. -/
theorem exists_denotes_sign_append {sign : List Char} (hsign : sign ∈ signs) (n : Nat) :
    ∃ i, ∀ s, Magnitude s n → Denotes (sign ++ s) i := by
  simp only [signs, List.mem_cons, List.not_mem_nil, or_false] at hsign
  rcases hsign with rfl | rfl | rfl
  · exact ⟨n, fun _ h => .unsigned h⟩
  · exact ⟨n, fun _ h => .plus h⟩
  · exact ⟨-n, fun _ h => .minus h⟩

/-- A literal with zeros behind its mark stands for the same integer. -/
theorem ZeroFilled.integer?_eq (h : ZeroFilled s t) : integer? t = integer? s := by
  obtain ⟨hsign, hmark, hdigits, k⟩ := h
  obtain ⟨i, hi⟩ := exists_denotes_sign_append hsign _
  have hs := hi _ (magnitude_mark_append hmark hdigits)
  have ht := hi _ (magnitude_mark_append hmark (numeral_replicate_zero_append hdigits k))
  rw [integer?_eq_some_iff.mpr hs, integer?_eq_some_iff.mpr ht]

/-! ### Acceptance -/

theorem readDatum_eq_ok_iff {v : Int64} :
    Declaration.readDatum s = .ok v ↔ Denotes s v.toInt := by
  rw [← value?_eq_some_iff, Declaration.readDatum, read?_eq_value?]
  cases value? s <;> simp

/-- A text with no value is refused with the text itself. -/
theorem readDatum_eq_error (h : value? s = none) :
    Declaration.readDatum s = .error (.invalidLiteral (String.ofList s)) := by
  rw [Declaration.readDatum, read?_eq_value?, h]

/-- A literal is accepted if its integer is a signed 64-bit word. -/
theorem exists_readDatum_iff :
    (∃ v : Int64, Declaration.readDatum s = .ok v ∧ v.toInt = i) ↔
      Denotes s i ∧ -2 ^ 63 ≤ i ∧ i ≤ 2 ^ 63 - 1 := by
  constructor
  · rintro ⟨v, hv, rfl⟩
    exact ⟨readDatum_eq_ok_iff.mp hv, v.le_toInt, Int.le_sub_one_of_lt v.toInt_lt⟩
  · rintro ⟨hi, hlow, hhigh⟩
    have hvalue : (Int64.ofInt i).toInt = i :=
      Int64.toInt_ofInt_of_le hlow (Int.lt_of_le_sub_one hhigh)
    exact ⟨Int64.ofInt i, readDatum_eq_ok_iff.mpr (hvalue.symm ▸ hi), hvalue⟩

/-- **The accepted literals.** A text is accepted with an integer as its value if it is a literal
for the integer and the integer is a signed 64-bit word, and every other text is refused with the
text itself. Zeros behind the mark of a literal that is not decimal change nothing, however many. -/
theorem accepts_exactly_literals (s : String) :
    (∀ i : Int, (∃ v : Int64, Declaration.readDatum s.toList = .ok v ∧ v.toInt = i) ↔
        Denotes s.toList i ∧ -2 ^ 63 ≤ i ∧ i ≤ 2 ^ 63 - 1) ∧
      ((¬ ∃ i, Denotes s.toList i ∧ -2 ^ 63 ≤ i ∧ i ≤ 2 ^ 63 - 1) →
        Declaration.readDatum s.toList = .error (.invalidLiteral s)) ∧
      ∀ t, ZeroFilled s.toList t → ∀ v,
        Declaration.readDatum t = .ok v ↔ Declaration.readDatum s.toList = .ok v := by
  refine ⟨fun i => exists_readDatum_iff, fun h => ?_, fun t ht v => ?_⟩
  · have hnone : value? s.toList = none := by
      refine Option.eq_none_iff_forall_ne_some.mpr fun v hv => h ⟨v.toInt, ?_⟩
      exact exists_readDatum_iff.mp ⟨v, readDatum_eq_ok_iff.mpr (value?_eq_some_iff.mp hv), rfl⟩
    rw [readDatum_eq_error hnone, String.ofList_toList]
  · rw [readDatum_eq_ok_iff, readDatum_eq_ok_iff, ← integer?_eq_some_iff, ht.integer?_eq,
      integer?_eq_some_iff]

/-- An octal literal below zero, and the same with more zeros behind its mark. -/
theorem accepts_exactly_literals_octal :
    (∃ v : Int64, Declaration.readDatum "-010".toList = .ok v ∧ v.toInt = -8) ∧
      ZeroFilled "-010".toList "-00010".toList ∧
      Declaration.readDatum "-00010".toList = .ok (-8) := by
  have hdenotes : Denotes "-010".toList (-8) := integer?_eq_some_iff.mp (by decide)
  have hdigits : Numeral 8 ['1', '0'] 8 := Text.numeral?_eq_some_iff.mp (by decide)
  have hfilled : ZeroFilled "-010".toList "-00010".toList :=
    .fill (show ['-'] ∈ signs by decide) (show (['0'], 8) ∈ radixMarks by decide) hdigits 2
  obtain ⟨haccepted, -, hzeros⟩ := accepts_exactly_literals "-010"
  exact ⟨(haccepted (-8)).mpr ⟨hdenotes, by decide, by decide⟩, hfilled,
    (hzeros _ hfilled _).mpr (readDatum_eq_ok_iff.mpr hdenotes)⟩

end BinaryLayout.Literal
