import BinaryLayout.Proofs.Definition.Outline
import BinaryLayout.Proofs.Definition.Printing
import BinaryLayout.Proofs.Layout.Accessors
import BinaryLayout.Proofs.Layout.Run
import BinaryLayout.Proofs.Scalar.Codec

/-!
# Snapshots of layouts

The state of a layout can be written as a definition: each field is declared as before, with the
value that a constant shows now as its initial value. The definition is read as the same fields in
the same places, because where a field stands does not depend on the value of a constant. What it
builds shows the same values, because the bytes of an element are written again for the value that
they are read as. The contents of spaces are not recorded, and are zero afterwards.

## Main definitions

* `Layout.IsSnapshot`: a text that records a layout, field by field.
* `Layout.rebuilt`: the layout that a snapshot builds.
* `Layout.Restores`: what a rebuilt layout shares with the original.

## Main results

* `Layout.parse_snapshot`: a snapshot is read as the fields with their current values.
* `Layout.restores_rebuilt`: what is rebuilt restores the original.
* `Layout.snapshot_restores`: whatever has been asked of a layout, it has a snapshot, and every
  snapshot of it builds a layout that restores it.
-/

namespace BinaryLayout.Layout

variable {l : Layout} {f : Field} {t : Triple} {text : String}

/-! ### Snapshots -/

/-- The words declare the field anew: with its label, with a statement of its kind and element
size, and with the value that a constant shows or the number of elements of a space. -/
structure Records (l : Layout) (t : Triple) (f : Field) : Prop where
  label_eq : t.label = f.label.toList
  resolve_eq : Statement.resolve l.config.width t.statement = .ok (f.kind, f.unit)
  constant : f.kind = .constant →
    ∃ v, l.get f.label = .ok v ∧ t.datum = Text.signedDecimal v.toInt
  space : f.kind = .space → t.datum = Text.decimal f.count

/-- The text records the fields one by one. -/
def IsSnapshot (l : Layout) (text : String) : Prop :=
  ∃ ts : List Triple, Text.Spaced (ts.flatMap Triple.words) text.toList ∧
    List.Forall₂ l.Records ts l.fields

/-- A field with the value that a constant shows as its initial value. -/
def recorded (l : Layout) (f : Field) : Field :=
  { f with datum := match f.kind with
      | .constant => l.current f
      | .space => f.datum }

/-- The definition that snapshots are read as. -/
def recording (l : Layout) : Definition := ⟨l.fields.map l.recorded, l.size⟩

theorem datum_recorded_of_constant (h : f.kind = .constant) :
    (l.recorded f).datum = l.current f := by
  simp only [recorded, h]

theorem datum_recorded_of_space (h : f.kind = .space) : (l.recorded f).datum = f.datum := by
  simp only [recorded, h]

@[simp] theorem outline_recorded (l : Layout) (f : Field) :
    (l.recorded f).outline = f.outline := by
  cases hk : f.kind <;> simp [recorded, Field.outline, Field.isConstant, hk]

theorem range_recorded (l : Layout) (f : Field) : (l.recorded f).range = f.range := by
  have hstop : (l.recorded f).stop = f.stop := by
    rw [← Field.stop_outline, outline_recorded, Field.stop_outline]
  rw [Field.range, hstop]
  rfl

theorem map_outline_recording (l : Layout) :
    l.recording.fields.map Field.outline = l.fields.map Field.outline :=
  List.map_map.trans (List.map_congr_left fun f _ => l.outline_recorded f)

theorem map_label_recording (l : Layout) : l.recording.fields.map Field.label = l.labels :=
  List.map_map.trans rfl

namespace Sound

variable (hl : l.Sound)

include hl

theorem placed_recording :
    Definition.Placed l.config.padding 0 l.recording.fields l.recording.totalSize :=
  hl.placed.of_outline_eq l.map_outline_recording

theorem nodup_labels_recording : (l.recording.fields.map Field.label).Nodup := by
  rw [map_label_recording]
  exact hl.nodup_labels

/-- The number of elements of a space is its datum. -/
theorem signedDecimal_datum (hf : f ∈ l.fields) (hs : f.kind = .space) :
    Text.signedDecimal f.datum.toInt = Text.decimal f.count := by
  obtain ⟨before, hfollows⟩ := hl.placed.follows_of_mem f hf
  have hnonneg := hfollows.datum_nonneg hs
  simp only [Text.signedDecimal, if_neg hnonneg.not_gt, Field.count, hs]
  exact congrArg Text.decimal (by omega)

/-- Words that record a field describe it with the value that a constant shows. -/
theorem describes_of_records (hf : f ∈ l.fields) (h : l.Records t f) :
    t.Describes l.config.width (l.recorded f) where
  label_eq := h.label_eq ▸ String.ofList_toList
  resolve_eq := h.resolve_eq
  denotes := by
    cases hk : f.kind with
    | constant =>
      obtain ⟨v, hv, hdatum⟩ := h.constant hk
      rw [hl.get_eq hf, Except.ok.injEq] at hv
      rw [hdatum, datum_recorded_of_constant hk, hv]
      exact Literal.denotes_signedDecimal _
    | space =>
      rw [h.space hk, ← hl.signedDecimal_datum hf hk, datum_recorded_of_space hk]
      exact Literal.denotes_signedDecimal _

/-- A snapshot is read as the fields with their current values. -/
theorem parse_snapshot (h : l.IsSnapshot text) :
    Definition.parse text l.config.width l.config.padding = .ok l.recording := by
  obtain ⟨ts, hspaced, hts⟩ := h
  have hdescribes : List.Forall₂ (Triple.Describes l.config.width) ts l.recording.fields := by
    rw [recording, List.forall₂_map_right_iff, List.forall₂_iff_zip]
    refine ⟨hts.length_eq, fun hmem => ?_⟩
    exact hl.describes_of_records (List.of_mem_zip hmem).2 (List.forall₂_zip hts hmem)
  exact Definition.parse_eq_ok_iff.mpr
    ⟨ts, hspaced.words_eq, hdescribes, hl.placed_recording, hl.nodup_labels_recording⟩

/-- A layout whose labels are words and whose elements are of a type has a snapshot. -/
theorem isSnapshot_print (hlabels : ∀ f ∈ l.fields, Text.IsWord f.label.toList)
    (hunits : ∀ f ∈ l.fields, ∃ e : ElementType, e.size l.config.width = f.unit) :
    l.IsSnapshot (l.recording.print l.config.width) := by
  have hwords : ∀ f ∈ l.recording.fields, Text.IsWord f.label.toList := by
    rw [recording, List.forall_mem_map]
    exact hlabels
  refine ⟨_, l.recording.spaced_print l.config.width hwords, ?_⟩
  rw [recording, List.map_map, List.forall₂_map_left_iff, List.forall₂_same]
  intro f hf
  have hstatement := Field.resolve_statement (f := l.recorded f) (hunits f hf)
  refine ⟨rfl, hstatement, fun hk => ?_, fun hk => ?_⟩
  · refine ⟨l.current f, hl.get_eq hf, ?_⟩
    rw [← datum_recorded_of_constant hk]
    rfl
  · rw [← hl.signedDecimal_datum hf hk, ← datum_recorded_of_space hk]
    rfl

end Sound

/-! ### Rebuilding -/

/-- The layout that a snapshot builds. -/
def rebuilt (l : Layout) : Layout := initial l.config l.recording

/-- The second layout restores the first: it has the same configuration, its fields have the same
labels, kinds and element sizes and stand in the same places of a buffer of the same size, it shows
the same value under every label, and it has the same bytes in the constants and zeros elsewhere. -/
structure Restores (l l' : Layout) : Prop where
  config_eq : l'.config = l.config
  outline_eq : l'.fields.map Field.outline = l.fields.map Field.outline
  size_eq : l'.size = l.size
  get_eq : ∀ label, l'.get label = l.get label
  byte_constant : ∀ f ∈ l.fields, f.kind = .constant → ∀ a ∈ f.range, l'.bytes[a]? = l.bytes[a]?
  byte_elsewhere : ∀ a < l.size, (∀ f ∈ l.fields, f.kind = .constant → a ∉ f.range) →
    l'.bytes[a]? = some 0

/-- On a system that grants the memory a snapshot is built. -/
theorem Sound.build_snapshot (hl : l.Sound) {granted : Nat → Bool} (h : l.IsSnapshot text)
    (hgranted : granted l.size = true) :
    build granted text l.config = .ok l.rebuilt :=
  build_of_parse (hl.parse_snapshot h) hgranted

namespace Sound

variable (hl : l.Sound)

include hl

theorem size_rebuilt : l.rebuilt.size = l.size := size_initial hl.placed_recording

theorem rebuilt : l.rebuilt.Sound :=
  sound_initial hl.placed_recording hl.nodup_labels_recording

/-- A constant is written with the bytes that its value was read from. -/
theorem element_rebuilt (hf : f ∈ l.fields) (hc : f.isConstant = true) :
    f.element l.rebuilt.bytes 0 = f.element l.bytes 0 := by
  have hmem : l.recorded f ∈ l.recording.fields := List.mem_map_of_mem hf
  have hlength := hl.length_element hf (zero_lt_count hc)
  have hunit := hl.unit_cases hf
  calc f.element l.rebuilt.bytes 0
      = Scalar.encode l.config.byteOrder f.unit (l.recorded f).datum :=
        element_initial hl.placed_recording hmem hc
    _ = Scalar.encode l.config.byteOrder (f.element l.bytes 0).length
          (Scalar.decode l.config.byteOrder (f.element l.bytes 0)) := by
        rw [datum_recorded_of_constant (beq_iff_eq.mp hc), current, if_pos hc, hlength]
    _ = f.element l.bytes 0 := Scalar.encode_decode _ (by omega)

theorem getElem?_rebuilt (hf : f ∈ l.fields) (hc : f.isConstant = true) {a : Nat}
    (ha : a ∈ f.range) : l.rebuilt.bytes[a]? = l.bytes[a]? := by
  obtain ⟨hle, hlt⟩ := ha
  rw [stop_of_isConstant hc] at hlt
  have hbyte := congrArg (fun bytes => bytes[a - f.offset]?) (hl.element_rebuilt hf hc)
  simp only [Field.element, Field.address, Nat.zero_mul, Nat.add_zero, Buffer.getElem?_slice,
    if_pos (show a - f.offset < f.unit by omega), Nat.add_sub_cancel' hle] at hbyte
  exact hbyte

theorem getElem?_rebuilt_of_forall {a : Nat} (ha : a < l.size)
    (h : ∀ f ∈ l.fields, f.isConstant = true → a ∉ f.range) : l.rebuilt.bytes[a]? = some 0 := by
  refine getElem?_initial hl.placed_recording ha ?_
  rw [recording, List.forall_mem_map]
  intro f hf hc
  rw [range_recorded]
  exact h f hf hc

theorem current_rebuilt (hf : f ∈ l.fields) :
    l.rebuilt.current (l.recorded f) = l.current f := by
  have hrecorded : l.rebuilt.current (l.recorded f) = if f.isConstant then
      Scalar.decode l.config.byteOrder (f.element l.rebuilt.bytes 0) else 0 := rfl
  rw [hrecorded, current]
  split_ifs with hc
  · rw [hl.element_rebuilt hf hc]
  · rfl

theorem get_rebuilt (label : String) : l.rebuilt.get label = l.get label := by
  rcases hl.field_cases label with ⟨f, hf, rfl, -⟩ | ⟨hlabel, hfield⟩
  · have hmem : l.recorded f ∈ l.rebuilt.fields := List.mem_map_of_mem hf
    have hget := hl.rebuilt.get_eq hmem
    rw [hl.current_rebuilt hf] at hget
    exact hget.trans (hl.get_eq hf).symm
  · have hlabels : l.rebuilt.labels = l.labels := l.map_label_recording
    rw [get, get, hfield, field_eq_error (hlabels ▸ hlabel)]

/-- **Restoring.** What is rebuilt restores the original. -/
theorem restores_rebuilt : l.Restores l.rebuilt where
  config_eq := rfl
  outline_eq := l.map_outline_recording
  size_eq := hl.size_rebuilt
  get_eq := hl.get_rebuilt
  byte_constant _ hf hk _ ha := hl.getElem?_rebuilt hf (beq_iff_eq.mpr hk) ha
  byte_elsewhere _ ha h :=
    hl.getElem?_rebuilt_of_forall ha fun f hf hc => h f hf (beq_iff_eq.mp hc)

end Sound

/-! ### Snapshots of layouts that were built -/

variable {granted : Nat → Bool} {config : Config} {built : Layout}

theorem exists_isSnapshot_of_build (h : build granted text config = .ok built)
    (operations : List Operation) : ∃ snapshot, (built.run operations).IsSnapshot snapshot := by
  obtain ⟨d, hparse, rfl⟩ := exists_of_build h
  refine ⟨_, ((sound_of_build h).run operations).isSnapshot_print ?_ ?_⟩
  · rw [fields_run]
    exact fun f hf => Definition.isWord_label_of_parse hparse hf
  · rw [fields_run, config_run]
    exact fun f hf => Definition.exists_size_eq_of_parse hparse hf

/-- **Snapshots.** After any requests a layout can be recorded as a definition, and every such
definition builds, with the same configuration, a layout that restores it. -/
theorem snapshot_restores (h : build granted text config = .ok built)
    (operations : List Operation) :
    let l := built.run operations
    (∃ snapshot, l.IsSnapshot snapshot) ∧
      ∀ snapshot, l.IsSnapshot snapshot →
        ∃ l', build granted snapshot l.config = .ok l' ∧ l.Restores l' := by
  intro l
  have hl : l.Sound := (sound_of_build h).run operations
  have hgranted : granted l.size = true := (size_run built operations).symm ▸ granted_of_build h
  refine ⟨exists_isSnapshot_of_build h operations, fun snapshot hsnapshot => ?_⟩
  exact ⟨l.rebuilt, hl.build_snapshot hsnapshot hgranted, hl.restores_rebuilt⟩

/-- A byte that a store has changed, a space with something in it, and a word that was declared
negative and shows as a positive number. -/
theorem snapshot_restores_byte_space_word :
    let built : Layout := ⟨⟨.bits32, .big, .int⟩,
      [⟨"v", .constant, 1, 0, 1⟩, ⟨"n", .space, 1, 1, 2⟩, ⟨"w", .constant, 2, 4, -2⟩],
      ⟨[1, 0, 0, 0, 255, 254]⟩⟩
    let l := built.run [.set "v" 200, .setAt "n" 7 0]
    build (· ≤ 1024) "v dc.b 1 n ds.b 2 w dc.w -2" ⟨.bits32, .big, .int⟩ =
        .ok built ∧
      l.IsSnapshot "v dc.b 200 n ds.b 2 w dc-.s 65534" ∧
      ∃ l', build (· ≤ 1024) "v dc.b 200 n ds.b 2 w dc-.s 65534" l.config =
        .ok l' ∧ l.Restores l' := by
  intro built l
  have h : build (· ≤ 1024) "v dc.b 1 n ds.b 2 w dc.w -2" ⟨.bits32, .big, .int⟩ =
      .ok built := by decide +kernel
  have hsnapshot : l.IsSnapshot "v dc.b 200 n ds.b 2 w dc-.s 65534" := by
    refine ⟨[⟨['v'], "dc.b".toList, "200".toList⟩, ⟨['n'], "ds.b".toList, ['2']⟩,
      ⟨['w'], "dc-.s".toList, "65534".toList⟩], Text.words_eq_iff.mp (by decide +kernel), ?_⟩
    exact .cons ⟨rfl, rfl, fun _ => ⟨200, by decide +kernel⟩, nofun⟩ <|
      .cons ⟨rfl, rfl, nofun, fun _ => by decide +kernel⟩ <|
      .cons ⟨rfl, rfl, fun _ => ⟨65534, by decide +kernel⟩, nofun⟩ .nil
  exact ⟨h, hsnapshot, (snapshot_restores h [.set "v" 200, .setAt "n" 7 0]).2 _ hsnapshot⟩

end BinaryLayout.Layout
