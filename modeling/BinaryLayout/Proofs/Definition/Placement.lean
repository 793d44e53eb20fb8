import BinaryLayout.Definition
import Mathlib.Order.Bounds.Basic
import Mathlib.Order.Interval.Set.Basic
import Mathlib.Tactic.Common

/-!
# Placement of the fields

A definition's fields are placed in the order of declaration. While they are placed, every sum and
every product of sizes is checked for overflow on its own. This file shows that the checks are
together one comparison of the field's end, computed without bounds (`Definition.slot?_eq`),
and what follows for the fields as a whole: each stands as early as its kind allows, they do not
overlap, and all of them lie inside a buffer that ends where the last field ends.

## Main definitions

* `Field.Follows`: a field stands as early as possible behind an offset.
* `Definition.Placed`: fields that follow one another from an offset up to an end.
* `Definition.IsTight`: the same for a whole definition, by the position of each field.

## Main results

* `Definition.placed_of_parse`: the fields that are read follow one another from zero on.
* `Definition.isTight_of_parse`: placement is sound and tight.
-/

namespace BinaryLayout

/-! ### One field -/

namespace Field

/-- The addresses that a field covers. -/
def range (f : Field) : Set Nat := Set.Ico f.offset f.stop

theorem offset_le_stop (f : Field) : f.offset ≤ f.stop := Nat.le_add_right _ _

/-- A field stands as early as possible behind an offset: a space at once, a constant at the next
multiple of its alignment. Its elements have one, two, four or eight bytes, a space has no negative
number of them, and it ends within the largest buffer. -/
structure Follows (f : Field) (padding : Padding) (offset : Nat) : Prop where
  space : f.kind = .space → f.offset = offset
  constant : f.kind = .constant →
    IsLeast {a | padding.alignment f.unit ∣ a ∧ offset ≤ a} f.offset
  unit_cases : f.unit = 1 ∨ f.unit = 2 ∨ f.unit = 4 ∨ f.unit = 8
  datum_nonneg : f.kind = .space → 0 ≤ f.datum.toInt
  stop_le : f.stop ≤ Definition.maxSize

theorem Follows.le_offset {f : Field} {padding : Padding} {offset : Nat}
    (hf : f.Follows padding offset) : offset ≤ f.offset := by
  cases hk : f.kind with
  | constant => exact (hf.constant hk).1.2
  | space => exact (hf.space hk).ge

end Field

/-- The gap leads to the next multiple of the alignment. -/
theorem Padding.isLeast_add_gap (padding : Padding) (offset unit : Nat) :
    IsLeast {a | padding.alignment unit ∣ a ∧ offset ≤ a} (offset + padding.gap offset unit) := by
  refine ⟨⟨padding.alignment_dvd_add_gap offset unit, Nat.le_add_right _ _⟩, ?_⟩
  rintro a ⟨ha, hle⟩
  -- A smaller multiple would be a whole alignment below, hence before the offset.
  by_contra hlt
  have hgap := padding.gap_lt offset unit
  have hdvd := Nat.dvd_sub (padding.alignment_dvd_add_gap offset unit) ha
  have := Nat.le_of_dvd (by omega) hdvd
  omega

theorem ElementType.size_cases (width : Width) (e : ElementType) :
    e.size width = 1 ∨ e.size width = 2 ∨ e.size width = 4 ∨ e.size width = 8 := by
  cases e <;> cases width <;> simp [size, Width.intSize, Width.longSize]

/-! ### One declaration -/

namespace Declaration

variable (d : Declaration) (width : Width) (padding : Padding) (offset : Nat)

/-- Where the declaration starts behind an offset, with no bound on addresses. -/
def start : Nat :=
  match d.statement.kind with
  | .constant => offset + padding.gap offset (d.unit width)
  | .space => offset

/-- The bytes that the declaration takes, with no bound on their number. -/
def extent : Nat :=
  match d.statement.kind with
  | .constant => d.unit width
  | .space => d.unit width * d.datum.toInt.toNat

/-- The field that the declaration becomes behind an offset, with no bound on its addresses. -/
def placed : Field := d.fieldAt width (d.start width padding offset)

@[simp] theorem kind_placed : (d.placed width padding offset).kind = d.statement.kind := rfl

theorem stop_placed : (d.placed width padding offset).stop =
    d.start width padding offset + d.extent width := by
  cases hk : d.statement.kind <;>
    simp only [Field.stop, Field.totalSize, Field.count, placed, fieldAt, extent, hk, Nat.mul_one]

theorem follows_placed (hneg : d.hasNegativeCount = false)
    (h : (d.placed width padding offset).stop ≤ Definition.maxSize) :
    (d.placed width padding offset).Follows padding offset where
  space hk := by
    rw [kind_placed] at hk
    simp only [placed, fieldAt, start, hk]
  constant hk := by
    rw [kind_placed] at hk
    simp only [placed, fieldAt, start, hk]
    exact padding.isLeast_add_gap offset _
  unit_cases := ElementType.size_cases width _
  datum_nonneg hk := by
    rw [kind_placed] at hk
    have hdatum : 0 ≤ d.datum.toInt := by
      simpa [hasNegativeCount, hk, Int64.lt_iff_toInt_lt] using hneg
    exact hdatum
  stop_le := h

/-- A start that is not found is beyond every buffer. -/
theorem start?_eq_or : d.start? width padding offset = some (d.start width padding offset) ∨
    d.start? width padding offset = none ∧ Definition.maxSize < d.start width padding offset := by
  have hmax : Definition.maxSize < Word.count64 := by decide
  cases hk : d.statement.kind with
  | constant =>
    simp only [start?, start, hk, Word.add?]
    split_ifs with h
    · exact Or.inl rfl
    · exact Or.inr ⟨rfl, by omega⟩
  | space =>
    simp only [start?, start, hk]
    exact Or.inl trivial

/-- An extent that is not found is larger than every buffer. -/
theorem extent?_eq_or : d.extent? width = some (d.extent width) ∨
    d.extent? width = none ∧ Definition.maxSize < d.extent width := by
  have hmax : Definition.maxSize < Word.count64 := by decide
  cases hk : d.statement.kind with
  | constant =>
    simp only [extent?, extent, hk]
    exact Or.inl trivial
  | space =>
    simp only [extent?, extent, hk, Word.mul?]
    split_ifs with h
    · exact Or.inl rfl
    · exact Or.inr ⟨rfl, by omega⟩

end Declaration

namespace Definition

theorem stop?_eq (start extent : Nat) :
    stop? start extent = if start + extent ≤ maxSize then some (start + extent) else none := by
  have hmax : maxSize < Word.count64 := by decide
  by_cases h : start + extent < Word.count64
  · simp [stop?, Word.add?, h, Option.filter]
  · have hlarge : ¬ start + extent ≤ maxSize := by omega
    simp [stop?, Word.add?, h, hlarge]

/-- **One comparison.** The checks of the start, of the extent and of the end of a declaration are
together one comparison of its end, computed without bounds. -/
theorem slot?_eq (width : Width) (padding : Padding) (offset : Nat) (d : Declaration) :
    slot? width padding offset d =
      if (d.placed width padding offset).stop ≤ maxSize then
        some (d.start width padding offset, (d.placed width padding offset).stop)
      else none := by
  rw [d.stop_placed]
  rcases d.start?_eq_or width padding offset with hs | ⟨hs, hlarge⟩
  · rcases d.extent?_eq_or width with he | ⟨he, hlarge⟩
    · simp only [slot?, hs, he, stop?_eq, Option.bind_eq_bind, Option.bind_some]
      split_ifs <;> rfl
    · rw [if_neg (by omega)]
      simp only [slot?, hs, he, Option.bind_eq_bind, Option.bind_some, Option.bind_none]
  · rw [if_neg (by omega)]
    simp only [slot?, hs, Option.bind_eq_bind, Option.bind_none]

/-- What is placed ends within the largest buffer, and the next declaration follows its end. -/
theorem placeOne_eq_ok_iff {width : Width} {padding : Padding} {offset stop : Nat}
    {d : Declaration} {f : Field} :
    placeOne width padding offset d = .ok (f, stop) ↔
      d.hasNegativeCount = false ∧ f = d.placed width padding offset ∧ stop = f.stop ∧
        stop ≤ maxSize := by
  rw [placeOne, slot?_eq]
  have hf : d.fieldAt width (d.start width padding offset) = d.placed width padding offset := rfl
  cases hneg : d.hasNegativeCount with
  | true => simp
  | false =>
    by_cases h : (d.placed width padding offset).stop ≤ maxSize
    · simp only [Bool.false_eq_true, if_false, if_pos h, hf, Except.ok.injEq, Prod.mk.injEq,
        true_and]
      constructor
      · rintro ⟨rfl, rfl⟩
        exact ⟨rfl, rfl, h⟩
      · rintro ⟨rfl, rfl, -⟩
        exact ⟨rfl, rfl⟩
    · simp only [Bool.false_eq_true, if_false, if_neg h, reduceCtorEq, true_and, false_iff]
      rintro ⟨rfl, rfl, hle⟩
      exact h hle

/-! ### A sequence of fields -/

/-- The fields follow one another, from an offset up to the end of the last. -/
inductive Placed (padding : Padding) : Nat → List Field → Nat → Prop
  | nil (offset : Nat) : Placed padding offset [] offset
  | cons {offset stop : Nat} {f : Field} {fields : List Field} (hf : f.Follows padding offset)
      (h : Placed padding f.stop fields stop) : Placed padding offset (f :: fields) stop

namespace Placed

variable {padding : Padding} {offset stop : Nat} {fields : List Field}

theorem offset_le (h : Placed padding offset fields stop) : offset ≤ stop := by
  induction h with
  | nil => exact le_rfl
  | cons hf _ ih => exact hf.le_offset.trans ((Field.offset_le_stop _).trans ih)

theorem offset_le_of_mem (h : Placed padding offset fields stop) :
    ∀ f ∈ fields, offset ≤ f.offset := by
  induction h with
  | nil => simp
  | @cons offset _ g _ hg _ ih =>
    intro f hf
    rcases List.mem_cons.mp hf with rfl | hf
    · exact hg.le_offset
    · exact hg.le_offset.trans (g.offset_le_stop.trans (ih f hf))

theorem stop_le_of_mem (h : Placed padding offset fields stop) : ∀ f ∈ fields, f.stop ≤ stop := by
  induction h with
  | nil => simp
  | cons _ h ih =>
    intro f hf
    rcases List.mem_cons.mp hf with rfl | hf
    · exact h.offset_le
    · exact ih f hf

theorem follows_of_mem (h : Placed padding offset fields stop) :
    ∀ f ∈ fields, ∃ before, f.Follows padding before := by
  induction h with
  | nil => simp
  | cons hg _ ih =>
    intro f hf
    rcases List.mem_cons.mp hf with rfl | hf
    · exact ⟨_, hg⟩
    · exact ih f hf

/-- A field ends before every later one starts. -/
theorem pairwise_stop_le (h : Placed padding offset fields stop) :
    fields.Pairwise fun f g => f.stop ≤ g.offset := by
  induction h with
  | nil => exact List.Pairwise.nil
  | cons _ h ih => exact List.Pairwise.cons h.offset_le_of_mem ih

/-- Fields that follow one another can be cut anywhere. -/
theorem append_iff {later : List Field} :
    Placed padding offset (fields ++ later) stop ↔
      ∃ middle, Placed padding offset fields middle ∧ Placed padding middle later stop := by
  induction fields generalizing offset with
  | nil =>
    refine ⟨fun h => ⟨offset, .nil offset, h⟩, ?_⟩
    rintro ⟨_, ⟨⟩, h⟩
    exact h
  | cons f fields ih =>
    constructor
    · rintro (_ | ⟨hf, h⟩)
      obtain ⟨middle, hfront, hback⟩ := ih.mp h
      exact ⟨middle, .cons hf hfront, hback⟩
    · rintro ⟨middle, _ | ⟨hf, hfront⟩, hback⟩
      exact .cons hf (ih.mpr ⟨middle, hfront, hback⟩)

/-- The end is that of the last field. -/
theorem stop_eq (h : Placed padding offset fields stop) :
    stop = (fields.getLast?.map Field.stop).getD offset := by
  induction h with
  | nil => rfl
  | @cons _ _ f fields _ _ ih =>
    rw [ih, List.getLast?_cons]
    cases fields.getLast? <;> rfl

theorem stop_le_maxSize (h : Placed padding offset fields stop) (ho : offset ≤ maxSize) :
    stop ≤ maxSize := by
  induction h with
  | nil => exact ho
  | cons hf _ ih => exact ih hf.stop_le

end Placed

/-! ### A whole definition -/

/-- What stands behind a definition's first declaration. -/
theorem place_cons_eq_ok {width : Width} {padding : Padding} {labels : List String} {offset : Nat}
    {label statement datum : List Char} {rest : List (List Char)} {d : Definition}
    (h : place width padding labels offset (label :: statement :: datum :: rest) = .ok d) :
    ∃ decl later, Declaration.read label statement datum = .ok decl ∧ decl.label ∉ labels ∧
      decl.hasNegativeCount = false ∧ (decl.placed width padding offset).stop ≤ maxSize ∧
      place width padding (decl.label :: labels) (decl.placed width padding offset).stop rest =
        .ok later ∧
      d = ⟨decl.placed width padding offset :: later.fields, later.totalSize⟩ := by
  rw [place] at h
  split at h
  · cases h
  rename_i decl hread
  split_ifs at h with hlabel
  split at h
  · cases h
  rename_i f stop hone
  obtain ⟨hneg, rfl, rfl, hle⟩ := placeOne_eq_ok_iff.mp hone
  split at h
  · cases h
  rename_i later hlater
  cases h
  exact ⟨decl, later, hread, hlabel, hneg, hle, hlater, rfl⟩

/-- The fields that the words form follow one another. -/
theorem placed_of_place {width : Width} {padding : Padding} :
    ∀ {words : List (List Char)} {labels : List String} {offset : Nat} {d : Definition},
      place width padding labels offset words = .ok d → Placed padding offset d.fields d.totalSize
  | [], _, offset, _, h => by
      simp only [place, Except.ok.injEq] at h
      subst h
      exact .nil offset
  | [_], _, _, _, h => by simp only [place, reduceCtorEq] at h
  | [_, _], _, _, _, h => by simp only [place, reduceCtorEq] at h
  | _ :: _ :: _ :: _, _, _, _, h => by
      obtain ⟨decl, later, -, -, hneg, hle, hlater, rfl⟩ := place_cons_eq_ok h
      exact .cons (decl.follows_placed _ _ _ hneg hle) (placed_of_place hlater)

/-- The labels of the fields that the words form are new and differ from one another. -/
theorem labels_of_place {width : Width} {padding : Padding} :
    ∀ {words : List (List Char)} {labels : List String} {offset : Nat} {d : Definition},
      place width padding labels offset words = .ok d →
        (d.fields.map Field.label).Nodup ∧ ∀ f ∈ d.fields, f.label ∉ labels
  | [], _, offset, _, h => by
      simp only [place, Except.ok.injEq] at h
      subst h
      exact ⟨List.nodup_nil, fun _ hf => absurd hf List.not_mem_nil⟩
  | [_], _, _, _, h => by simp only [place, reduceCtorEq] at h
  | [_, _], _, _, _, h => by simp only [place, reduceCtorEq] at h
  | _ :: _ :: _ :: _, _, _, _, h => by
      obtain ⟨decl, later, -, hnew, -, -, hlater, rfl⟩ := place_cons_eq_ok h
      obtain ⟨hnodup, hfresh⟩ := labels_of_place hlater
      refine ⟨List.nodup_cons.mpr ⟨fun hmem => ?_, hnodup⟩, fun f hf => ?_⟩
      · obtain ⟨f, hf, heq⟩ := List.mem_map.mp hmem
        exact hfresh f hf (heq ▸ List.mem_cons_self)
      · rcases List.mem_cons.mp hf with rfl | hf
        · exact hnew
        · exact fun hold => hfresh f hf (List.mem_cons_of_mem _ hold)

variable {text : String} {width : Width} {padding : Padding} {d : Definition}

theorem placed_of_parse (h : parse text width padding = .ok d) :
    Placed padding 0 d.fields d.totalSize :=
  placed_of_place h

theorem nodup_labels_of_parse (h : parse text width padding = .ok d) :
    (d.fields.map Field.label).Nodup :=
  (labels_of_place h).1

/-- The end of the field before the `i`-th, or zero for the first. -/
def endBefore (d : Definition) : Nat → Nat
  | 0 => 0
  | i + 1 => (d.fields[i]?.map Field.stop).getD 0

theorem endBefore_eq {i : Nat} (hi : i ≤ d.fields.length) :
    d.endBefore i = ((d.fields.take i).getLast?.map Field.stop).getD 0 := by
  cases i with
  | zero => rfl
  | succ i =>
    rw [endBefore, List.getLast?_take, if_neg (Nat.succ_ne_zero i), Nat.add_sub_cancel,
      List.getElem?_eq_getElem hi, Option.some_or]

/-- Each field follows the end of the one before it. -/
theorem Placed.follows_getElem (h : Placed padding 0 d.fields d.totalSize) {i : Nat}
    (hi : i < d.fields.length) : d.fields[i].Follows padding (d.endBefore i) := by
  have hsplit : d.fields.take i ++ d.fields[i] :: d.fields.drop (i + 1) = d.fields := by
    rw [← List.drop_eq_getElem_cons hi, List.take_append_drop]
  rw [← hsplit] at h
  obtain ⟨middle, hfront, _ | ⟨hf, -⟩⟩ := Placed.append_iff.mp h
  rwa [endBefore_eq hi.le, ← hfront.stop_eq]

/-- The fields of a definition stand as early as their kinds allow and do not overlap; the buffer
ends where the last field ends; no size and no address needs more than 64 bits. -/
structure IsTight (d : Definition) (padding : Padding) : Prop where
  offset_space : ∀ i (hi : i < d.fields.length), d.fields[i].kind = .space →
    d.fields[i].offset = d.endBefore i
  offset_constant : ∀ i (hi : i < d.fields.length), d.fields[i].kind = .constant →
    IsLeast {a | padding.alignment d.fields[i].unit ∣ a ∧ d.endBefore i ≤ a} d.fields[i].offset
  totalSize_eq : d.totalSize = d.endBefore d.fields.length
  totalSize_lt : d.totalSize < Word.half64
  offset_mono : d.fields.Pairwise fun f g => f.offset ≤ g.offset
  disjoint_range : d.fields.Pairwise fun f g => ∀ a ∈ f.range, a ∉ g.range
  range_inside : ∀ f ∈ d.fields, f.stop ≤ d.totalSize ∧ f.range ⊆ Set.Ico 0 d.totalSize
  no_overflow : ∀ f ∈ d.fields,
    f.totalSize < Word.count64 ∧ f.stop < Word.count64 ∧ f.unit * Field.byteBits < Word.count64

/-- **Placement is sound and tight.** In every definition that is read, whatever the width and the
padding, each field stands at the first place behind its predecessor that its kind allows, no two
fields overlap, and the buffer ends with the last of them. -/
theorem isTight_of_parse (h : parse text width padding = .ok d) : d.IsTight padding := by
  have hp := placed_of_parse h
  have hsize : d.totalSize ≤ maxSize := hp.stop_le_maxSize (Nat.zero_le _)
  have hmax : maxSize < Word.half64 := by decide
  refine
    { offset_space := fun i hi => (hp.follows_getElem hi).space
      offset_constant := fun i hi => (hp.follows_getElem hi).constant
      totalSize_eq := ?_
      totalSize_lt := hsize.trans_lt hmax
      offset_mono := ?_
      disjoint_range := ?_
      range_inside := fun f hf => ⟨hp.stop_le_of_mem f hf, fun a ha => ?_⟩
      no_overflow := fun f hf => ?_ }
  · rw [endBefore_eq le_rfl, List.take_length]
    exact hp.stop_eq
  · exact hp.pairwise_stop_le.imp fun hle => (Field.offset_le_stop _).trans hle
  · refine hp.pairwise_stop_le.imp fun hle a hf hg => ?_
    exact absurd (hle.trans hg.1) (Nat.not_le.mpr hf.2)
  · exact ⟨Nat.zero_le a, ha.2.trans_le (hp.stop_le_of_mem f hf)⟩
  · obtain ⟨before, hfollows⟩ := hp.follows_of_mem f hf
    have hstop : f.stop < Word.count64 := hfollows.stop_le.trans_lt (by decide)
    have hunit := hfollows.unit_cases
    refine ⟨(Nat.le_add_left _ _).trans_lt hstop, hstop, ?_⟩
    rw [Field.byteBits, Word.count64]
    omega

/-- A byte, three words behind it without padding, and a long aligned to eight bytes. -/
theorem isTight_byte_words_long :
    parse "a dc.b 1\nb ds.w 3 c dc.l -0x10" .bits64 .long = .ok
      ⟨[⟨"a", .constant, 1, 0, 1⟩, ⟨"b", .space, 2, 1, 3⟩, ⟨"c", .constant, 8, 8, -16⟩], 16⟩ ∧
    IsTight ⟨[⟨"a", .constant, 1, 0, 1⟩, ⟨"b", .space, 2, 1, 3⟩, ⟨"c", .constant, 8, 8, -16⟩], 16⟩
      .long := by
  have h : parse "a dc.b 1\nb ds.w 3 c dc.l -0x10" .bits64 .long = .ok
      ⟨[⟨"a", .constant, 1, 0, 1⟩, ⟨"b", .space, 2, 1, 3⟩, ⟨"c", .constant, 8, 8, -16⟩], 16⟩ := by
    decide +kernel
  exact ⟨h, isTight_of_parse h⟩

end Definition

end BinaryLayout
