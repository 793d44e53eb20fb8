import BinaryLayout.Proofs.Definition.FirstFault
import Mathlib.Data.List.Forall2

/-!
# Outlines of definitions

The outline of a field is the field without the initial value of a constant: where it stands, how
large it is, and how it is called. Where the fields of a definition stand does not depend on the
values of its constants, so two definitions that declare the same labels, statements and numbers of
elements have the same outline.

## Main definitions

* `Field.outline`: a field without the initial value of a constant.
* `Triple.Resembles`, `Definition.Resemble`: triples and texts that declare the same but for the
  values of constants.

## Main results

* `Definition.outline_of_parse`: texts that resemble each other become definitions with the same
  outline.
-/

namespace BinaryLayout

namespace Field

/-- A field without the initial value of a constant. -/
def outline (f : Field) : Field := { f with datum := if f.isConstant then 0 else f.datum }

@[simp] theorem label_outline (f : Field) : f.outline.label = f.label := rfl

@[simp] theorem kind_outline (f : Field) : f.outline.kind = f.kind := rfl

@[simp] theorem unit_outline (f : Field) : f.outline.unit = f.unit := rfl

@[simp] theorem offset_outline (f : Field) : f.outline.offset = f.offset := rfl

@[simp] theorem isConstant_outline (f : Field) : f.outline.isConstant = f.isConstant := rfl

@[simp] theorem totalSize_outline (f : Field) : f.outline.totalSize = f.totalSize := by
  cases f with
  | mk label kind unit offset datum => cases kind <;> rfl

@[simp] theorem stop_outline (f : Field) : f.outline.stop = f.stop := by
  rw [stop, stop, totalSize_outline, offset_outline]

@[simp] theorem describe_outline (f : Field) (value : Int64) :
    f.outline.describe value = f.describe value := by
  cases f with
  | mk label kind unit offset datum => cases kind <;> rfl

theorem datum_outline_of_space {f : Field} (h : f.kind = .space) : f.outline.datum = f.datum := by
  simp only [outline, isConstant, h]
  rfl

/-- Where a field stands does not depend on the initial value of a constant. -/
theorem Follows.of_outline_eq {f g : Field} {padding : Padding} {offset : Nat}
    (hf : f.Follows padding offset) (h : g.outline = f.outline) : g.Follows padding offset := by
  have hkind : g.kind = f.kind := by rw [← kind_outline, h, kind_outline]
  have hunit : g.unit = f.unit := by rw [← unit_outline, h, unit_outline]
  have hoffset : g.offset = f.offset := by rw [← offset_outline, h, offset_outline]
  have hstop : g.stop = f.stop := by rw [← stop_outline, h, stop_outline]
  refine ⟨?_, ?_, hunit ▸ hf.unit_cases, fun hk => ?_, hstop ▸ hf.stop_le⟩
  · rw [hkind, hoffset]
    exact hf.space
  · rw [hkind, hunit, hoffset]
    exact hf.constant
  · have hk' : f.kind = .space := hkind ▸ hk
    rw [← datum_outline_of_space hk, h, datum_outline_of_space hk']
    exact hf.datum_nonneg hk'

end Field

/-- Fields with the same outlines stand in the same places. -/
theorem Definition.Placed.of_outline_eq {padding : Padding} {offset stop : Nat}
    {fields fields' : List Field} (h : Placed padding offset fields stop)
    (heq : fields'.map Field.outline = fields.map Field.outline) :
    Placed padding offset fields' stop := by
  induction h generalizing fields' with
  | nil =>
    rw [List.map_eq_nil_iff.mp heq]
    exact .nil _
  | @cons _ _ f fields hf _ ih =>
    obtain ⟨g, rest, rfl, hg, hrest⟩ := List.map_eq_cons_iff.mp heq
    have hstop : g.stop = f.stop := by rw [← Field.stop_outline, hg, Field.stop_outline]
    exact .cons (hf.of_outline_eq hg) (hstop ▸ ih hrest)

namespace Triple

/-- Two triples declare the same but for the value of a constant: they have the same label and the
same statement, and spaces have the same number of elements. -/
structure Resembles (t t' : Triple) : Prop where
  label_eq : t.label = t'.label
  statement_eq : t.statement = t'.statement
  value_eq : t.kind = .space → t.value = t'.value

namespace Resembles

variable {t t' : Triple} (h : t.Resembles t')

include h

theorem kind_eq : t.kind = t'.kind := by
  rw [kind, kind, h.statement_eq]

theorem unit_eq (width : Width) : t.unit width = t'.unit width := by
  rw [unit, unit, h.statement_eq]

theorem start_eq (width : Width) (padding : Padding) (offset : Nat) :
    t.start width padding offset = t'.start width padding offset := by
  rw [start, start, h.kind_eq, h.unit_eq]

theorem stop_eq (width : Width) (padding : Padding) (offset : Nat) :
    t.stop width padding offset = t'.stop width padding offset := by
  rw [stop, stop, h.start_eq, size, size, ← h.kind_eq, h.unit_eq]
  cases hkind : t.kind with
  | constant => rfl
  | space => rw [h.value_eq hkind]

theorem outline_field_eq (width : Width) (padding : Padding) (offset : Nat) :
    (t.field width padding offset).outline = (t'.field width padding offset).outline := by
  cases hkind : t.kind with
  | constant =>
    simp only [Field.outline, field, Field.isConstant, ← h.kind_eq, hkind, h.label_eq, h.unit_eq,
      h.start_eq, beq_self_eq_true, if_true]
  | space =>
    simp only [Field.outline, field, ← h.kind_eq, h.label_eq, h.unit_eq, h.start_eq,
      h.value_eq hkind]

end Resembles

variable {ts ts' : List Triple}

/-- The ends of triples that resemble each other are the same. -/
theorem endOf_eq_of_forall₂ (width : Width) (padding : Padding)
    (h : List.Forall₂ Resembles ts ts') : endOf width padding ts = endOf width padding ts' := by
  rw [endOf, endOf]
  generalize 0 = offset
  induction h generalizing offset with
  | nil => rfl
  | cons ht _ ih => rw [List.foldl_cons, List.foldl_cons, ht.stop_eq, ih]

end Triple

namespace Definition

/-- Two texts declare the same but for the values of constants. -/
def Resemble (text text' : String) : Prop :=
  List.Forall₂ Triple.Resembles (Triple.ofWords (Text.words text.toList))
    (Triple.ofWords (Text.words text'.toList))

theorem outline_fieldsOf_eq (width : Width) (padding : Padding) {ts ts' : List Triple}
    (h : List.Forall₂ Triple.Resembles ts ts') :
    (fieldsOf width padding ts).map Field.outline =
      (fieldsOf width padding ts').map Field.outline := by
  have hlength := h.length_eq
  refine List.ext_getElem (by simp [fieldsOf, hlength]) fun i hi hi' => ?_
  have hi : i < ts.length := by simpa [fieldsOf] using hi
  have hi' : i < ts'.length := hlength ▸ hi
  have hend := Triple.endOf_eq_of_forall₂ width padding (List.forall₂_take i h)
  simp only [fieldsOf, List.getElem_map, List.getElem_zipIdx, Nat.zero_add, ← hend]
  exact (h.get hi hi').outline_field_eq width padding _

/-- **Outlines.** Texts that declare the same but for the values of constants become definitions
whose fields have the same outlines and which have the same size. -/
theorem outline_of_parse {text text' : String} {width : Width} {padding : Padding}
    {d d' : Definition} (hresemble : Resemble text text') (h : parse text width padding = .ok d)
    (h' : parse text' width padding = .ok d') :
    d.fields.map Field.outline = d'.fields.map Field.outline ∧ d.totalSize = d'.totalSize := by
  rw [eq_of_parse h, eq_of_parse h']
  exact ⟨outline_fieldsOf_eq width padding hresemble,
    Triple.endOf_eq_of_forall₂ width padding hresemble⟩

end Definition

end BinaryLayout
