import BinaryLayout.Proofs.Definition.Appending
import Mathlib.Data.Set.List

/-!
# Relocation

Where a field stands follows from the offset behind which it is placed. Every alignment divides
eight, so behind an offset that is a multiple of eight, fields stand as they do behind zero, only
that much further up. Without padding this holds behind every offset. A definition that is read
behind another one is therefore that of its text read alone, moved by the size of the other.

## Main definitions

* `Field.moved`, `Definition.moved`: a field and a definition further up.

## Main results

* `Field.follows_moved_iff`: a field that is moved follows an offset that is moved.
* `Definition.Placed.map_moved_iff`: the same for fields that follow one another.
* `Definition.place_eq_ok_iff_moved`: reading behind an offset is reading behind zero.
* `Definition.parse_appended_eq_ok_iff_moved`: reading a text behind another one.
-/

namespace BinaryLayout

variable {width : Width} {padding : Padding} {distance offset stop unit : Nat}

/-! ### Alignments -/

namespace Padding

/-- The gap leads to the only least multiple of the alignment. -/
theorem isLeast_iff {start : Nat} :
    IsLeast {a | padding.alignment unit ∣ a ∧ offset ≤ a} start ↔
      start = offset + padding.gap offset unit :=
  ⟨fun h => h.unique (padding.isLeast_add_gap offset unit),
    fun h => h ▸ padding.isLeast_add_gap offset unit⟩

/-- Every alignment divides eight, and without padding nothing is aligned. -/
theorem alignment_dvd (h : padding = .none ∨ 8 ∣ distance) (unit : Nat) :
    padding.alignment unit ∣ distance := by
  rcases h with rfl | h
  · have hone : alignment .none unit = 1 := by
      rw [alignment]
      split_ifs <;> rfl
    exact hone ▸ Nat.one_dvd distance
  · rcases padding.alignment_cases unit with ha | ha | ha | ha <;> rw [ha] <;> omega

theorem gap_add (h : padding.alignment unit ∣ distance) (offset : Nat) :
    padding.gap (distance + offset) unit = padding.gap offset unit := by
  rw [gap, gap, Nat.add_mod, Nat.mod_eq_zero_of_dvd h, Nat.zero_add, Nat.mod_mod]

theorem isLeast_add_iff (h : padding.alignment unit ∣ distance) {start : Nat} :
    IsLeast {a | padding.alignment unit ∣ a ∧ distance + offset ≤ a} (distance + start) ↔
      IsLeast {a | padding.alignment unit ∣ a ∧ offset ≤ a} start := by
  rw [isLeast_iff, isLeast_iff, gap_add h, Nat.add_assoc, Nat.add_left_cancel_iff]

end Padding

/-! ### Fields further up -/

namespace Field

variable {f : Field}

/-- The field with its offset moved up. -/
def moved (distance : Nat) (f : Field) : Field := { f with offset := distance + f.offset }

@[simp] theorem label_moved (distance : Nat) (f : Field) : (f.moved distance).label = f.label := rfl

@[simp] theorem kind_moved (distance : Nat) (f : Field) : (f.moved distance).kind = f.kind := rfl

@[simp] theorem unit_moved (distance : Nat) (f : Field) : (f.moved distance).unit = f.unit := rfl

@[simp] theorem datum_moved (distance : Nat) (f : Field) : (f.moved distance).datum = f.datum := rfl

@[simp] theorem isConstant_moved (distance : Nat) (f : Field) :
    (f.moved distance).isConstant = f.isConstant := rfl

@[simp] theorem offset_moved (distance : Nat) (f : Field) :
    (f.moved distance).offset = distance + f.offset := rfl

@[simp] theorem stop_moved (distance : Nat) (f : Field) :
    (f.moved distance).stop = distance + f.stop :=
  Nat.add_assoc _ _ _

theorem exists_moved_eq (h : distance ≤ f.offset) : ∃ g : Field, g.moved distance = f :=
  ⟨{ f with offset := f.offset - distance }, congrArg (fun offset => { f with offset := offset })
    (Nat.add_sub_of_le h)⟩

/-- A field that is moved by a multiple of its alignment follows the offset moved with it. -/
theorem follows_moved_iff (h : padding = .none ∨ 8 ∣ distance) :
    (f.moved distance).Follows padding (distance + offset) ↔
      f.Follows padding offset ∧ distance + f.stop ≤ Definition.maxSize := by
  have hdvd := padding.alignment_dvd h f.unit
  constructor
  · intro hf
    have hle : distance + f.stop ≤ Definition.maxSize := stop_moved distance f ▸ hf.stop_le
    exact ⟨{ space := fun hk => Nat.add_left_cancel (hf.space hk)
             constant := fun hk => (Padding.isLeast_add_iff hdvd).mp (hf.constant hk)
             unit_cases := hf.unit_cases
             datum_nonneg := hf.datum_nonneg
             stop_le := (Nat.le_add_left _ _).trans hle }, hle⟩
  · rintro ⟨hf, hle⟩
    exact { space := fun hk => congrArg (distance + ·) (hf.space hk)
            constant := fun hk => (Padding.isLeast_add_iff hdvd).mpr (hf.constant hk)
            unit_cases := hf.unit_cases
            datum_nonneg := hf.datum_nonneg
            stop_le := (stop_moved distance f).symm ▸ hle }

end Field

/-- A triple says nothing of offsets. -/
theorem Triple.describes_moved_iff {t : Triple} {f : Field} :
    t.Describes width (f.moved distance) ↔ t.Describes width f :=
  ⟨fun h => ⟨h.label_eq, h.resolve_eq, h.denotes⟩, fun h => ⟨h.label_eq, h.resolve_eq, h.denotes⟩⟩

namespace Definition

variable {fields : List Field}

/-! ### Definitions further up -/

/-- The definition with all its fields moved up, and its end with them. -/
def moved (distance : Nat) (d : Definition) : Definition :=
  ⟨d.fields.map (Field.moved distance), distance + d.totalSize⟩

theorem exists_moved_eq {d : Definition} (hfields : ∀ f ∈ d.fields, distance ≤ f.offset)
    (hsize : distance ≤ d.totalSize) : ∃ e : Definition, e.moved distance = d := by
  obtain ⟨fields, hmoved⟩ : d.fields ∈ Set.range (List.map (Field.moved distance)) := by
    rw [Set.range_list_map]
    exact fun f hf => Field.exists_moved_eq (hfields f hf)
  obtain ⟨size, hsize⟩ := Nat.exists_eq_add_of_le hsize
  exact ⟨⟨fields, size⟩, by rw [moved, hmoved, ← hsize]⟩

namespace Placed

theorem nil_iff : Placed padding offset [] stop ↔ stop = offset := by
  constructor
  · rintro ⟨⟩
    rfl
  · rintro rfl
    exact .nil stop

theorem cons_iff {f : Field} : Placed padding offset (f :: fields) stop ↔
    f.Follows padding offset ∧ Placed padding f.stop fields stop :=
  ⟨fun | .cons hf h => ⟨hf, h⟩, fun ⟨hf, h⟩ => .cons hf h⟩

/-- Fields that are moved follow one another from the offset moved with them, as long as they end
within the largest buffer. -/
theorem map_moved_iff (h : padding = .none ∨ 8 ∣ distance) (offset : Nat) :
    Placed padding (distance + offset) (fields.map (Field.moved distance)) (distance + stop) ↔
      Placed padding offset fields stop ∧ ∀ f ∈ fields, distance + f.stop ≤ maxSize := by
  induction fields generalizing offset with
  | nil =>
    rw [List.map_nil, nil_iff, nil_iff, Nat.add_left_cancel_iff]
    exact (and_iff_left fun f hf => absurd hf List.not_mem_nil).symm
  | cons f fields ih =>
    rw [List.map_cons, cons_iff, cons_iff, Field.follows_moved_iff h, Field.stop_moved, ih,
      List.forall_mem_cons]
    exact and_and_and_comm

end Placed

/-! ### Reading behind an offset -/

/-- Words are read behind an offset and some labels if they are read behind zero, without these
labels and with an end that leaves room for the offset. -/
theorem place_eq_ok_iff_moved (h : padding = .none ∨ 8 ∣ distance) (hmax : distance ≤ maxSize)
    {labels : List String} {words : List (List Char)} {d : Definition} :
    place width padding labels distance words = .ok d ↔
      ∃ e, place width padding [] 0 words = .ok e ∧ (∀ f ∈ e.fields, f.label ∉ labels) ∧
        distance + e.totalSize ≤ maxSize ∧ d = e.moved distance := by
  have hlabel (fields : List Field) :
      (fields.map (Field.moved distance)).map Field.label = fields.map Field.label :=
    List.map_map
  constructor
  · intro hplace
    obtain ⟨ts, hwords, hts, hp, hnodup, hfresh⟩ := place_eq_ok_iff.mp hplace
    obtain ⟨e, rfl⟩ := exists_moved_eq hp.offset_le_of_mem hp.offset_le
    have hfirst : Placed padding 0 e.fields e.totalSize := ((Placed.map_moved_iff h 0).mp hp).1
    refine ⟨e, place_eq_ok_iff.mpr ⟨ts, hwords, ?_, hfirst, hlabel e.fields ▸ hnodup, ?_⟩, ?_,
      hp.stop_le_maxSize hmax, rfl⟩
    · exact (List.forall₂_map_right_iff.mp hts).imp fun _ _ => Triple.describes_moved_iff.mp
    · exact fun f _ => List.not_mem_nil
    · exact fun f hf => hfresh (f.moved distance) (List.mem_map_of_mem hf)
  · rintro ⟨e, hplace, hfresh, hsize, rfl⟩
    obtain ⟨ts, hwords, hts, hp, hnodup, -⟩ := place_eq_ok_iff.mp hplace
    have hstop : ∀ f ∈ e.fields, distance + f.stop ≤ maxSize := fun f hf =>
      (Nat.add_le_add_left (hp.stop_le_of_mem f hf) distance).trans hsize
    refine place_eq_ok_iff.mpr ⟨ts, hwords, ?_, (Placed.map_moved_iff h 0).mpr ⟨hp, hstop⟩,
      (hlabel e.fields).symm ▸ hnodup, ?_⟩
    · exact List.forall₂_map_right_iff.mpr (hts.imp fun _ _ => Triple.describes_moved_iff.mpr)
    · intro f hf
      obtain ⟨g, hg, rfl⟩ := List.mem_map.mp hf
      exact hfresh g hg

/-- A text is read behind another one if it is read alone, no label of it is one of the other, and
both fit in the largest buffer. Its fields are then moved by the size of the other. -/
theorem parse_appended_eq_ok_iff_moved {text later : String} {d d' : Definition}
    (h : parse text width padding = .ok d) (haligned : padding = .none ∨ 8 ∣ d.totalSize) :
    parse (text ++ "\n" ++ later) width padding = .ok d' ↔
      ∃ e, parse later width padding = .ok e ∧
        (∀ f ∈ e.fields, ∀ g ∈ d.fields, f.label ≠ g.label) ∧
        d.totalSize + e.totalSize ≤ maxSize ∧ d' = d.extendedBy (e.moved d.totalSize) := by
  have hmax : d.totalSize ≤ maxSize := (placed_of_parse h).stop_le_maxSize (Nat.zero_le _)
  have hlabels (f : Field) : f.label ∉ (d.fields.map Field.label).reverse ↔
      ∀ g ∈ d.fields, f.label ≠ g.label := by
    simp only [List.mem_reverse, List.mem_map, not_exists, not_and, ne_comm, ne_eq]
  rw [parse_appended_eq_ok_iff h]
  simp only [place_eq_ok_iff_moved haligned hmax, hlabels]
  constructor
  · rintro ⟨_, ⟨e, hparse, hfresh, hsize, rfl⟩, rfl⟩
    exact ⟨e, hparse, hfresh, hsize, rfl⟩
  · rintro ⟨e, hparse, hfresh, hsize, rfl⟩
    exact ⟨e.moved d.totalSize, ⟨e, hparse, hfresh, hsize, rfl⟩, rfl⟩

/-- Behind a space that fills the largest buffer there is room for no byte, but for empty spaces. -/
example : parse "a ds.b 0x7fffffffffffffff\nb ds.l 0" .bits64 .none =
      .ok ⟨[⟨"a", .space, 1, 0, Int64.maxValue⟩, ⟨"b", .space, 8, maxSize, 0⟩], maxSize⟩ ∧
    parse "a ds.b 0x7fffffffffffffff\nb dc.b 0" .bits64 .none = .error (.tooLarge "b") := by
  decide +kernel

end Definition

end BinaryLayout
