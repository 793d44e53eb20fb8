import BinaryLayout.Config
import BinaryLayout.Proofs.Literal.Grammar
import BinaryLayout.Proofs.Text.Names

/-!
# Settings in free text

A setting can be given as a word, with blanks around it. A width is a numeral for its number of
bits, behind a plus sign or without one, and zeros in front of it do not count. A byte order and a
padding are names, in letters of either case. Everything else is refused. A width that does not
exist is named by its number, if the number is a 32-bit word, and whatever else is refused is named
as it was given, blanks included.

## Main definitions

* `Width.Counts`: the texts that stand for a number of bits.

## Main results

* `Width.ofText_eq_ok_iff`, `ByteOrder.ofText_eq_ok_iff`, `Padding.ofText_eq_ok_iff`: the accepted
  texts of each setting.
* `Config.free_texts_exact`: what is accepted, what is refused and how, for all three settings.
-/

namespace BinaryLayout

variable {s : String} {t : List Char} {n : Nat}

/-! ### Widths -/

namespace Width

/-- The text stands for the number of bits: it is a decimal numeral, behind a plus sign or without
one. -/
inductive Counts : List Char → Nat → Prop
  | unsigned {digits : List Char} {n : Nat} (h : Text.Numeral 10 digits n) : Counts digits n
  | plus {digits : List Char} {n : Nat} (h : Text.Numeral 10 digits n) : Counts ('+' :: digits) n

/-- A text is read as a number of bits if, trimmed, it stands for the number and this is a 32-bit
word. -/
theorem bitsOfText?_eq_some_iff :
    bitsOfText? t = some n ↔ Counts (Text.trim t) n ∧ n < Word.count32 := by
  simp only [bitsOfText?, Word.ofNumeral?, Option.filter_eq_some_iff, decide_eq_true_eq,
    and_congr_left_iff, Text.numeral?_eq_some_iff]
  intro _
  split
  · next rest htrim =>
    refine ⟨fun h => htrim ▸ .plus h, fun h => ?_⟩
    rw [htrim] at h
    cases h with
    | unsigned h => exact absurd rfl (Literal.head?_numeral_ne h (c := '+') rfl)
    | plus h => exact h
  · next hplus =>
    refine ⟨fun h => .unsigned h, fun h => ?_⟩
    generalize Text.trim t = u at h hplus
    cases h with
    | unsigned h => exact h
    | plus h => exact absurd rfl (hplus _)

theorem bits_lt_count32 (w : Width) : w.bits < Word.count32 := by
  cases w <;> decide

theorem ofText_eq_ok_iff {w : Width} : ofText s = .ok w ↔ Counts (Text.trim s.toList) w.bits := by
  have hbits : bitsOfText? s.toList = some w.bits ↔ Counts (Text.trim s.toList) w.bits := by
    rw [bitsOfText?_eq_some_iff, and_iff_left w.bits_lt_count32]
  rw [← hbits, ofText]
  cases bitsOfText? s.toList with
  | none => simp only [reduceCtorEq]
  | some n => simp only [ofBits_eq_ok_iff, Option.some.injEq]

/-- A number that is no width is refused by its value. -/
theorem ofText_of_counts (h : Counts (Text.trim s.toList) n) (hn : n < Word.count32)
    (hwidth : ∀ w : Width, n ≠ w.bits) : ofText s = .error (.invalidWidth (toString n)) := by
  have h16 : n ≠ 16 := hwidth bits16
  have h32 : n ≠ 32 := hwidth bits32
  have h64 : n ≠ 64 := hwidth bits64
  simp only [ofText, bitsOfText?_eq_some_iff.mpr ⟨h, hn⟩, ofBits, if_neg h16, if_neg h32,
    if_neg h64, Text.ofList_decimal]

/-- A text that stands for no number, or for one that is too large, is refused as it stands. -/
theorem ofText_of_not_counts (h : ¬ ∃ n < Word.count32, Counts (Text.trim s.toList) n) :
    ofText s = .error (.invalidWidth s) := by
  have hnone : bitsOfText? s.toList = none := by
    refine Option.eq_none_iff_forall_ne_some.mpr fun n hn => h ?_
    obtain ⟨hcounts, hlt⟩ := bitsOfText?_eq_some_iff.mp hn
    exact ⟨n, hlt, hcounts⟩
  rw [ofText, hnone]

end Width

/-! ### Byte orders and paddings -/

namespace ByteOrder

theorem mem_all (order : ByteOrder) : order ∈ all := by
  cases order <;> decide

theorem name_injective : Function.Injective name :=
  Text.injective_of_nodup mem_all (by decide)

theorem ofText_eq_ok_iff {order : ByteOrder} : ofText s = .ok order ↔
    List.Forall₂ Text.Lowers (Text.trim s.toList) order.name.toList := by
  rw [← Text.find?_lower_eq_some_iff mem_all name_injective, ofText, ofName?]
  cases all.find? _ <;> simp

theorem ofText_eq_error
    (h : ∀ order : ByteOrder, ¬ List.Forall₂ Text.Lowers (Text.trim s.toList) order.name.toList) :
    ofText s = .error (.invalidByteOrder s) := by
  cases hread : ofText s with
  | ok order => exact absurd (ofText_eq_ok_iff.mp hread) (h order)
  | error fault =>
    rw [ofText] at hread
    split at hread <;> cases hread
    rfl

end ByteOrder

namespace Padding

theorem mem_all (padding : Padding) : padding ∈ all := by
  cases padding <;> decide

theorem name_injective : Function.Injective name :=
  Text.injective_of_nodup mem_all (by decide)

theorem ofText_eq_ok_iff {padding : Padding} : ofText s = .ok padding ↔
    List.Forall₂ Text.Lowers (Text.trim s.toList) padding.name.toList := by
  rw [← Text.find?_lower_eq_some_iff mem_all name_injective, ofText, ofName?]
  cases all.find? _ <;> simp

theorem ofText_eq_error
    (h : ∀ padding : Padding, ¬ List.Forall₂ Text.Lowers (Text.trim s.toList) padding.name.toList) :
    ofText s = .error (.invalidPadding s) := by
  cases hread : ofText s with
  | ok padding => exact absurd (ofText_eq_ok_iff.mp hread) (h padding)
  | error fault =>
    rw [ofText] at hread
    split at hread <;> cases hread
    rfl

end Padding

/-! ### All three settings -/

/-- **Settings in free text.** Behind the blanks at its ends a text is a width if it stands for the
width's number of bits, and a byte order or a padding if it means the name in small letters. A width
is refused by its number if the text stands for another 32-bit word; every other text is refused as
it was given. -/
theorem Config.free_texts_exact (s : String) :
    Text.IsTrimmed s.toList (Text.trim s.toList) ∧
    ((∀ w, Width.ofText s = .ok w ↔ Width.Counts (Text.trim s.toList) w.bits) ∧
      (∀ n < Word.count32, Width.Counts (Text.trim s.toList) n → (∀ w : Width, n ≠ w.bits) →
        Width.ofText s = .error (.invalidWidth (toString n))) ∧
      ((¬ ∃ n < Word.count32, Width.Counts (Text.trim s.toList) n) →
        Width.ofText s = .error (.invalidWidth s))) ∧
    ((∀ order, ByteOrder.ofText s = .ok order ↔
        List.Forall₂ Text.Lowers (Text.trim s.toList) order.name.toList) ∧
      ((∀ order : ByteOrder,
          ¬ List.Forall₂ Text.Lowers (Text.trim s.toList) order.name.toList) →
        ByteOrder.ofText s = .error (.invalidByteOrder s))) ∧
    ((∀ padding, Padding.ofText s = .ok padding ↔
        List.Forall₂ Text.Lowers (Text.trim s.toList) padding.name.toList) ∧
      ((∀ padding : Padding,
          ¬ List.Forall₂ Text.Lowers (Text.trim s.toList) padding.name.toList) →
        Padding.ofText s = .error (.invalidPadding s))) := by
  refine ⟨Text.isTrimmed_trim s.toList, ⟨fun w => Width.ofText_eq_ok_iff, ?_, ?_⟩,
    ⟨fun order => ByteOrder.ofText_eq_ok_iff, ByteOrder.ofText_eq_error⟩,
    ⟨fun padding => Padding.ofText_eq_ok_iff, Padding.ofText_eq_error⟩⟩
  · exact fun n hn hcounts hwidth => Width.ofText_of_counts hcounts hn hwidth
  · exact Width.ofText_of_not_counts

/-- The largest 32-bit word behind a zero and a plus sign is refused by its number, and a long s is
no capital of the ASCII alphabet. -/
theorem Config.free_texts_exact_word :
    Width.ofText "\u2003+04294967295\n" = .error (.invalidWidth "4294967295") ∧
      ByteOrder.ofText " biG" = .ok .big ∧
      Padding.ofText "\u017Fhort" = .error (.invalidPadding "\u017Fhort") := by
  obtain ⟨-, ⟨-, hrefused, -⟩, -⟩ := free_texts_exact "\u2003+04294967295\n"
  obtain ⟨-, -, ⟨horder, -⟩, -⟩ := free_texts_exact " biG"
  obtain ⟨-, -, -, -, hpadding⟩ := free_texts_exact "\u017Fhort"
  have hcounts : Width.Counts (Text.trim "\u2003+04294967295\n".toList) 4294967295 :=
    (Width.bitsOfText?_eq_some_iff.mp (by decide)).1
  refine ⟨hrefused _ (by decide) hcounts fun w => ?_, (horder _).mpr ?_,
    hpadding fun padding h => ?_⟩
  · cases w <;> decide
  · exact Text.map_toLower_eq_iff.mp (by decide)
  · cases padding <;> exact absurd (Text.map_toLower_eq_iff.mpr h) (by decide)

end BinaryLayout
