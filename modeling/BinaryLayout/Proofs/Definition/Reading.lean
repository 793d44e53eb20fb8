import BinaryLayout.Proofs.Definition.FirstFault
import Mathlib.Data.List.Forall2

/-!
# Reading as a relation

A definition is read when its words, three at a time, describe fields with different labels that
follow one another from the beginning of the buffer. What a triple describes of a field is its
label, its kind, the size of its elements and its value or number of elements; where the field
stands follows from the fields before it.

## Main definitions

* `Statement.resolve`: the kind of field and the element size that a statement declares.
* `Triple.Describes`: a triple of words declares a field, its offset aside.

## Main results

* `Definition.place_of_describes`: words that describe fields in their places are read as them.
* `Definition.place_eq_ok_iff`, `Definition.parse_eq_ok_iff`: these are the only words that are
  read.
-/

namespace BinaryLayout

/-- The kind of field and the bytes of an element that a statement declares. -/
def Statement.resolve (width : Width) (s : List Char) : Except StatementError (FieldKind × Nat) :=
  (Statement.read s).map fun statement => (statement.kind, statement.element.size width)

namespace Triple

/-- The words of a triple in their order. -/
def words (t : Triple) : List (List Char) := [t.label, t.statement, t.datum]

/-- The triple declares the field: its label, its kind, the size of its elements, and its value or
number of elements. -/
structure Describes (width : Width) (t : Triple) (f : Field) : Prop where
  label_eq : String.ofList t.label = f.label
  resolve_eq : Statement.resolve width t.statement = .ok (f.kind, f.unit)
  denotes : Literal.Denotes t.datum f.datum.toInt

variable {width : Width} {padding : Padding} {offset : Nat} {t : Triple} {f : Field}

/-- What a triple is read as describes the field that it becomes. -/
theorem describes_of_read {d : Declaration}
    (h : Declaration.read t.label t.statement t.datum = .ok d) :
    t.Describes width (d.placed width padding offset) := by
  obtain ⟨k, e, v, hk, he, hv, rfl⟩ := exists_of_read_ok h
  refine ⟨rfl, ?_, hv⟩
  simp only [Statement.resolve, Statement.read, hk, he]
  rfl

/-- A triple that describes a field is read as a declaration of it. -/
theorem Describes.exists_read (h : t.Describes width f) :
    ∃ e : ElementType, e.size width = f.unit ∧
      Declaration.read t.label t.statement t.datum = .ok ⟨f.label, ⟨f.kind, e⟩, f.datum⟩ := by
  have hresolve := h.resolve_eq
  cases hread : Statement.read t.statement with
  | error fault => simp only [Statement.resolve, hread, Except.map, reduceCtorEq] at hresolve
  | ok statement =>
    simp only [Statement.resolve, hread, Except.map, Except.ok.injEq, Prod.mk.injEq] at hresolve
    obtain ⟨hkind, hunit⟩ := hresolve
    have hdatum : Literal.read? t.datum = some f.datum := by
      rw [Literal.read?_eq_value?, Literal.value?_eq_some_iff]
      exact h.denotes
    refine ⟨statement.element, hunit, ?_⟩
    simp only [Declaration.read, Declaration.readStatement, hread, Declaration.readDatum, hdatum,
      h.label_eq, ← hkind]

theorem exists_describes_of_mem {ts : List Triple} {fields : List Field}
    (h : List.Forall₂ (Triple.Describes width) ts fields) (hf : f ∈ fields) :
    ∃ t ∈ ts, t.Describes width f := by
  induction h with
  | nil => exact absurd hf List.not_mem_nil
  | @cons t _ ts _ ht _ ih =>
    rcases List.mem_cons.mp hf with rfl | hf
    · exact ⟨t, List.mem_cons_self, ht⟩
    · obtain ⟨t, hmem, ht⟩ := ih hf
      exact ⟨t, List.mem_cons_of_mem _ hmem, ht⟩

end Triple

namespace Field

variable {f : Field} {width : Width} {padding : Padding} {offset : Nat} {e : ElementType}

/-- A field that follows an offset is where a declaration of it is placed. -/
theorem Follows.placed_eq (h : f.Follows padding offset) (hunit : e.size width = f.unit) :
    Declaration.placed ⟨f.label, ⟨f.kind, e⟩, f.datum⟩ width padding offset = f := by
  have hstart : Declaration.start ⟨f.label, ⟨f.kind, e⟩, f.datum⟩ width padding offset =
      f.offset := by
    cases hk : f.kind with
    | constant =>
      have hleast := padding.isLeast_add_gap offset f.unit
      simp only [Declaration.start, Declaration.unit, hunit]
      exact hleast.unique (h.constant hk)
    | space => exact (h.space hk).symm
  simp only [Declaration.placed, Declaration.fieldAt, Declaration.unit, hstart, hunit]

theorem Follows.hasNegativeCount_eq (h : f.Follows padding offset) (e : ElementType) :
    Declaration.hasNegativeCount ⟨f.label, ⟨f.kind, e⟩, f.datum⟩ = false := by
  cases hk : f.kind with
  | constant => rfl
  | space => simpa [Declaration.hasNegativeCount, Int64.lt_iff_toInt_lt] using h.datum_nonneg hk

end Field

namespace Definition

variable {width : Width} {padding : Padding}

/-- A declaration that can be placed, in front of a definition, is read before it. -/
theorem place_cons_of_ok (padding : Padding) (offset : Nat) {labels : List String}
    {label statement datum : List Char} {rest : List (List Char)} {decl : Declaration}
    {later : Definition}
    (hread : Declaration.read label statement datum = .ok decl) (hlabel : decl.label ∉ labels)
    (hneg : decl.hasNegativeCount = false)
    (hle : (decl.placed width padding offset).stop ≤ maxSize)
    (hlater : place width padding (decl.label :: labels) (decl.placed width padding offset).stop
      rest = .ok later) :
    place width padding labels offset (label :: statement :: datum :: rest) =
      .ok ⟨decl.placed width padding offset :: later.fields, later.totalSize⟩ := by
  have hone : placeOne width padding offset decl =
      .ok (decl.placed width padding offset, (decl.placed width padding offset).stop) :=
    placeOne_eq_ok_iff.mpr ⟨hneg, rfl, rfl, hle⟩
  simp only [place, hread, if_neg hlabel, hone, hlater]

/-- Words that describe fields in their places are read as these fields. -/
theorem place_of_describes {ts : List Triple} {fields : List Field} {labels : List String}
    {offset stop : Nat} (h : List.Forall₂ (Triple.Describes width) ts fields)
    (hp : Placed padding offset fields stop) (hnodup : (fields.map Field.label).Nodup)
    (hfresh : ∀ f ∈ fields, f.label ∉ labels) :
    place width padding labels offset (ts.flatMap Triple.words) = .ok ⟨fields, stop⟩ := by
  induction h generalizing labels offset with
  | nil =>
    cases hp
    rfl
  | @cons t f ts fields ht _ ih =>
    rcases hp with _ | ⟨hf, hp⟩
    obtain ⟨hlabel, hfresh⟩ := List.forall_mem_cons.mp hfresh
    obtain ⟨hnew, hnodup⟩ := List.nodup_cons.mp hnodup
    obtain ⟨e, hunit, hread⟩ := ht.exists_read
    have hplaced := hf.placed_eq hunit
    have hlater : place width padding (f.label :: labels) f.stop (ts.flatMap Triple.words) =
        .ok ⟨fields, stop⟩ := ih hp hnodup fun g hg hmem => by
      rcases List.mem_cons.mp hmem with heq | hmem
      · exact hnew (heq ▸ List.mem_map_of_mem hg)
      · exact hfresh g hg hmem
    have hplace := place_cons_of_ok padding offset hread hlabel
      (hf.hasNegativeCount_eq e) (hplaced.symm ▸ hf.stop_le) (hplaced.symm ▸ hlater)
    rw [hplaced] at hplace
    exact hplace

/-- Words that are read are triples, and each describes its field. -/
theorem exists_describes_of_place : ∀ {words : List (List Char)} {labels : List String}
    {offset : Nat} {d : Definition}, place width padding labels offset words = .ok d →
      ∃ ts : List Triple, words = ts.flatMap Triple.words ∧
        List.Forall₂ (Triple.Describes width) ts d.fields
  | [], _, _, _, h => by
      simp only [place, Except.ok.injEq] at h
      subst h
      exact ⟨[], rfl, .nil⟩
  | [_], _, _, _, h => by simp only [place, reduceCtorEq] at h
  | [_, _], _, _, _, h => by simp only [place, reduceCtorEq] at h
  | label :: statement :: datum :: _, _, _, _, h => by
      obtain ⟨decl, later, hread, -, -, -, hlater, rfl⟩ := place_cons_eq_ok h
      obtain ⟨ts, rfl, hts⟩ := exists_describes_of_place hlater
      exact ⟨⟨label, statement, datum⟩ :: ts, rfl, .cons (Triple.describes_of_read hread) hts⟩

/-- Words are read as a definition behind an offset and some labels if, three at a time, they
describe the fields, these follow one another from the offset, and their labels are new and
different. -/
theorem place_eq_ok_iff {words : List (List Char)} {labels : List String} {offset : Nat}
    {d : Definition} : place width padding labels offset words = .ok d ↔
    ∃ ts : List Triple, words = ts.flatMap Triple.words ∧
      List.Forall₂ (Triple.Describes width) ts d.fields ∧
      Placed padding offset d.fields d.totalSize ∧ (d.fields.map Field.label).Nodup ∧
      ∀ f ∈ d.fields, f.label ∉ labels := by
  constructor
  · intro h
    obtain ⟨ts, hwords, hts⟩ := exists_describes_of_place h
    exact ⟨ts, hwords, hts, placed_of_place h, labels_of_place h⟩
  · rintro ⟨ts, rfl, hts, hp, hnodup, hfresh⟩
    exact place_of_describes hts hp hnodup hfresh

/-- **Reading.** A text is read as a definition if its words, three at a time, describe the fields,
these follow one another from zero to the end of the buffer, and no two have the same label. -/
theorem parse_eq_ok_iff {text : String} {d : Definition} : parse text width padding = .ok d ↔
    ∃ ts : List Triple, Text.words text.toList = ts.flatMap Triple.words ∧
      List.Forall₂ (Triple.Describes width) ts d.fields ∧
      Placed padding 0 d.fields d.totalSize ∧ (d.fields.map Field.label).Nodup := by
  rw [parse, place_eq_ok_iff]
  simp only [List.not_mem_nil, not_false_eq_true, implies_true, and_true]

end Definition

end BinaryLayout
