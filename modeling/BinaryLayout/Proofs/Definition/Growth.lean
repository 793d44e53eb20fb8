import BinaryLayout.Proofs.Definition.Reading

/-!
# Growth of definitions

Neither a wider machine nor a coarser padding makes a definition smaller. Rounding up to a larger
number need not lead further: four is a multiple of four already, but as a multiple of three it
becomes six. Placement grows because an alignment is the greatest common divisor of the element's
size and of the largest alignment under the padding. For the wider width and the coarser padding
each of the two is a multiple of what it was, and so is the alignment: every start that is allowed
then was allowed before.

## Main definitions

* `Padding.limit`: the largest alignment under a padding.
* `Field.Below`, `Definition.Below`: the same declarations, no larger and no further up.

## Main results

* `Padding.alignment_eq_gcd`: an alignment as a greatest common divisor.
* `Declaration.below_placed`: a declaration is placed no further up for a smaller width and padding.
* `Definition.below_of_parse`: a text that is read is also read for every smaller width and padding,
  as the same declarations, no larger and no further up.
-/

namespace BinaryLayout

/-! ### The order of the settings -/

/-- Widths are ordered by their bits. -/
instance : LE Width := ⟨fun width width' => width.bits ≤ width'.bits⟩

/-- The largest alignment under a padding. -/
def Padding.limit : Padding → Nat
  | none => 1
  | short => 2
  | int => 4
  | long => 8

/-- Paddings are ordered by their largest alignments. -/
instance : LE Padding := ⟨fun padding padding' => padding.limit ≤ padding'.limit⟩

variable {width width' : Width} {padding padding' : Padding} {offset offset' : Nat}

theorem ElementType.size_pos (width : Width) (e : ElementType) : 0 < e.size width := by
  rcases e.size_cases width with h | h | h | h <;> rw [h] <;> decide

/-- On a wider machine the size of an element is a multiple of what it was. -/
theorem ElementType.size_dvd_size (h : width ≤ width') (e : ElementType) :
    e.size width ∣ e.size width' := by
  have hbits : width.bits ≤ width'.bits := h
  cases e with
  | byte | word => exact Nat.dvd_refl _
  | int | long => revert hbits; cases width <;> cases width' <;> decide

namespace Padding

theorem limit_dvd_limit (h : padding ≤ padding') : padding.limit ∣ padding'.limit := by
  have hlimit : padding.limit ≤ padding'.limit := h
  revert hlimit
  cases padding <;> cases padding' <;> decide

/-- Constants are aligned to the greatest power of two that divides their size and is allowed. -/
theorem alignment_eq_gcd (padding : Padding) (width : Width) (e : ElementType) :
    padding.alignment (e.size width) = Nat.gcd padding.limit (e.size width) := by
  rcases e.size_cases width with h | h | h | h <;> rw [h] <;> cases padding <;> rfl

theorem alignment_dvd_alignment (hwidth : width ≤ width') (hpadding : padding ≤ padding')
    (e : ElementType) : padding.alignment (e.size width) ∣ padding'.alignment (e.size width') := by
  rw [alignment_eq_gcd, alignment_eq_gcd]
  exact Nat.dvd_trans (Nat.gcd_dvd_gcd_of_dvd_left _ (limit_dvd_limit hpadding))
    (Nat.gcd_dvd_gcd_of_dvd_right _ (e.size_dvd_size hwidth))

end Padding

/-! ### One declaration -/

namespace Field

variable {f g : Field}

/-- One field declares the same as another one, is no larger and stands no further up. -/
structure Below (f g : Field) : Prop where
  label_eq : f.label = g.label
  kind_eq : f.kind = g.kind
  datum_eq : f.datum = g.datum
  unit_le : f.unit ≤ g.unit
  offset_le : f.offset ≤ g.offset
  totalSize_le : f.totalSize ≤ g.totalSize

theorem Below.stop_le (h : f.Below g) : f.stop ≤ g.stop :=
  Nat.add_le_add h.offset_le h.totalSize_le

end Field

namespace Declaration

variable (d : Declaration)

/-- For a smaller width and padding a declaration starts no further up. -/
theorem start_le_start (hwidth : width ≤ width') (hpadding : padding ≤ padding')
    (hoffset : offset ≤ offset') :
    d.start width padding offset ≤ d.start width' padding' offset' := by
  cases hk : d.statement.kind with
  | constant =>
    simp only [start, hk]
    -- The start further up is a multiple of the smaller alignment too, and the least one is below.
    have hleast := padding.isLeast_add_gap offset (d.unit width)
    have hdvd := padding'.alignment_dvd_add_gap offset' (d.unit width')
    have halignment := Padding.alignment_dvd_alignment hwidth hpadding d.statement.element
    exact hleast.2 ⟨Nat.dvd_trans halignment hdvd, hoffset.trans (Nat.le_add_right _ _)⟩
  | space =>
    simp only [start, hk]
    exact hoffset

/-- **One declaration** becomes a field that is no larger and no further up for a smaller width and
padding. -/
theorem below_placed (hwidth : width ≤ width') (hpadding : padding ≤ padding')
    (hoffset : offset ≤ offset') :
    (d.placed width padding offset).Below (d.placed width' padding' offset') := by
  have hunit : d.unit width ≤ d.unit width' :=
    Nat.le_of_dvd (d.statement.element.size_pos width') (d.statement.element.size_dvd_size hwidth)
  exact
    { label_eq := rfl
      kind_eq := rfl
      datum_eq := rfl
      unit_le := hunit
      offset_le := d.start_le_start hwidth hpadding hoffset
      totalSize_le := Nat.mul_le_mul_right _ hunit }

end Declaration

/-! ### A whole definition -/

namespace Definition

/-- One definition has the same declarations as another one, and neither the fields nor the whole
are larger or further up. -/
structure Below (d d' : Definition) : Prop where
  fields : List.Forall₂ Field.Below d.fields d'.fields
  totalSize_le : d.totalSize ≤ d'.totalSize

/-- Words that are read behind an offset are also read for a smaller width and padding behind a
smaller offset. -/
theorem below_of_place (hwidth : width ≤ width') (hpadding : padding ≤ padding') :
    ∀ {words : List (List Char)} {labels : List String} {offset offset' : Nat} {d' : Definition},
      offset ≤ offset' → place width' padding' labels offset' words = .ok d' →
        ∃ d, place width padding labels offset words = .ok d ∧ d.Below d'
  | [], _, offset, _, _, hoffset, h => by
      simp only [place, Except.ok.injEq] at h
      subst h
      exact ⟨⟨[], offset⟩, rfl, .nil, hoffset⟩
  | [_], _, _, _, _, _, h => by simp only [place, reduceCtorEq] at h
  | [_, _], _, _, _, _, _, h => by simp only [place, reduceCtorEq] at h
  | _ :: _ :: _ :: _, _, offset, _, _, hoffset, h => by
      obtain ⟨decl, later', hread, hlabel, hneg, hle, hlater, rfl⟩ := place_cons_eq_ok h
      have hbelow := decl.below_placed hwidth hpadding hoffset
      obtain ⟨later, hplace, hfields, hsize⟩ := below_of_place hwidth hpadding hbelow.stop_le hlater
      exact ⟨_, place_cons_of_ok padding offset hread hlabel hneg (hbelow.stop_le.trans hle) hplace,
        .cons hbelow hfields, hsize⟩

/-- **Growth.** A text that is read for some width and padding is read for every smaller width and
padding as well. Its fields have the same labels, kinds and data in the same order, and neither
their elements, their offsets and their sizes nor the size of the whole are larger. -/
theorem below_of_parse {text : String} {d' : Definition} (hwidth : width ≤ width')
    (hpadding : padding ≤ padding') (h : parse text width' padding' = .ok d') :
    ∃ d, parse text width padding = .ok d ∧ d.Below d' :=
  below_of_place hwidth hpadding le_rfl h

/-- A long behind a byte: on a wider machine with a coarser padding it moves from the second byte to
the fourth, and the space behind it from the sixth to the twelfth. -/
theorem below_byte_long_ints :
    Width.bits32 ≤ Width.bits64 ∧ Padding.short ≤ Padding.int ∧
    parse "a dc.b 1 b dc.l -2 c ds.i 3" .bits64 .int = .ok
      ⟨[⟨"a", .constant, 1, 0, 1⟩, ⟨"b", .constant, 8, 4, -2⟩, ⟨"c", .space, 4, 12, 3⟩], 24⟩ ∧
    ∃ d, parse "a dc.b 1 b dc.l -2 c ds.i 3" .bits32 .short = .ok d ∧ d.Below
      ⟨[⟨"a", .constant, 1, 0, 1⟩, ⟨"b", .constant, 8, 4, -2⟩, ⟨"c", .space, 4, 12, 3⟩], 24⟩ := by
  have hwidth : Width.bits32 ≤ Width.bits64 := (by decide : 32 ≤ 64)
  have hpadding : Padding.short ≤ Padding.int := (by decide : 2 ≤ 4)
  have h : parse "a dc.b 1 b dc.l -2 c ds.i 3" .bits64 .int = .ok
      ⟨[⟨"a", .constant, 1, 0, 1⟩, ⟨"b", .constant, 8, 4, -2⟩, ⟨"c", .space, 4, 12, 3⟩], 24⟩ := by
    decide +kernel
  exact ⟨hwidth, hpadding, h, below_of_parse hwidth hpadding h⟩

end Definition

end BinaryLayout
