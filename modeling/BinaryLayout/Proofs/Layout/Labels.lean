import BinaryLayout.Proofs.Layout.FieldTable
import BinaryLayout.Proofs.Layout.Safety

/-!
# Labels

The labels of a layout are the first words of its definition's declarations, in their order. They
are words, no two of them are equal, and no request changes them. A label leads to the one field
that has it: the first label to the first field, and so on. Every other text leads nowhere, and a
request about it is refused before anything is read or written.

## Main definitions

* `Layout.Labelled`: the labels of a layout are the first words of triples, and each leads to its
  field.

## Main results

* `Definition.labels_of_parse`: the labels of a definition are the first words of its triples.
* `Layout.labelled_run`: the labels of a layout that was built, whatever it was used for.
-/

namespace BinaryLayout

namespace Definition

variable {width : Width} {padding : Padding}

theorem map_label_fieldsOf (ts : List Triple) :
    (fieldsOf width padding ts).map Field.label = ts.map fun t => String.ofList t.label := by
  calc (fieldsOf width padding ts).map Field.label
    _ = ts.zipIdx.map fun p => String.ofList p.1.label := List.map_map
    _ = (ts.zipIdx.map Prod.fst).map fun t => String.ofList t.label := by
      rw [List.map_map, Function.comp_def]
    _ = ts.map fun t => String.ofList t.label := by rw [List.zipIdx_map_fst]

/-- The labels of a definition are the first words of its triples. -/
theorem labels_of_parse {text : String} {d : Definition} (h : parse text width padding = .ok d) :
    d.fields.map Field.label =
      (Triple.ofWords (Text.words text.toList)).map fun t => String.ofList t.label := by
  rw [eq_of_parse h]
  exact map_label_fieldsOf _

end Definition

namespace Layout

variable {l built : Layout} {label : String} {f : Field}

/-- The labels of the layout are the first words of the triples, they are different words, and each
leads to its own field. No other text leads to a field, and what is asked about one is refused. -/
structure Labelled (ts : List Triple) (l : Layout) : Prop where
  labels_eq : l.labels = ts.map fun t => String.ofList t.label
  nodup : l.labels.Nodup
  isWord : ∀ label ∈ l.labels, Text.IsWord label.toList
  existsUnique : ∀ label ∈ l.labels, ∃! f, f ∈ l.fields ∧ f.label = label
  field_eq_ok_iff : ∀ label f, l.field label = .ok f ↔ f ∈ l.fields ∧ f.label = label
  field_eq_error_iff : ∀ label fault,
    l.field label = .error fault ↔ label ∉ l.labels ∧ fault = .undefinedLabel label
  position?_eq_some_iff : ∀ (label : String) (i : Nat),
    l.position? label = some i ↔ l.labels[i]? = some label
  field_of_getElem? : ∀ (label : String) (i : Nat), l.labels[i]? = some label →
    ∃ f, l.fields[i]? = some f ∧ l.field label = .ok f
  perform_of_notMem : ∀ operation : Operation, ∀ label ∉ l.labels, operation.label? = some label →
    l.perform operation = (.error (.layout (.undefinedLabel label)), l)

/-! ### Looking up a label -/

theorem Sound.field_eq_ok_iff (hl : l.Sound) :
    l.field label = .ok f ↔ f ∈ l.fields ∧ f.label = label := by
  constructor
  · intro h
    exact mem_of_field_eq_ok h
  · rintro ⟨hf, rfl⟩
    exact hl.field_eq hf

theorem Sound.field_eq_error_iff (hl : l.Sound) {fault : LayoutError} :
    l.field label = .error fault ↔ label ∉ l.labels ∧ fault = .undefinedLabel label := by
  rcases hl.field_cases label with ⟨f, hf, rfl, hfield⟩ | ⟨hnew, hfield⟩
  · have hmem : f.label ∈ l.labels := List.mem_map_of_mem hf
    simp only [hfield, hmem, reduceCtorEq, not_true_eq_false, false_and]
  · simp only [hfield, hnew, Except.error.injEq, not_false_eq_true, true_and, eq_comm]

theorem Sound.existsUnique_of_mem_labels (hl : l.Sound) (h : label ∈ l.labels) :
    ∃! f, f ∈ l.fields ∧ f.label = label := by
  obtain ⟨f, hf, rfl⟩ := List.mem_map.mp h
  exact ⟨f, ⟨hf, rfl⟩, fun _ hg => hl.eq_of_label_eq hf hg.1 hg.2⟩

/-- The label at a position leads to the field at the same position. -/
theorem Sound.field_of_getElem?_labels (hl : l.Sound) {i : Nat} (h : l.labels[i]? = some label) :
    ∃ f, l.fields[i]? = some f ∧ l.field label = .ok f := by
  rw [labels, List.getElem?_map, Option.map_eq_some_iff] at h
  obtain ⟨f, hf, rfl⟩ := h
  exact ⟨f, hf, hl.field_eq (List.mem_of_getElem? hf)⟩

/-! ### Whole runs -/

/-- **Labels.** A layout that was built from a text, whatever sequence of requests it has served,
has the labels that the text declares, and each leads to its field. The triples are the parts of the
text between its blanks, three at a time. -/
theorem labelled_run {granted : Nat → Bool} {text : String} {config : Config}
    (h : build granted text config = .ok built) (operations : List Operation) :
    (built.run operations).Labelled
      (Triple.ofWords ((text.toList.splitOnP Text.isBlank).filter (· ≠ []))) := by
  have hreach : (built.run operations).Reachable :=
    ⟨granted, text, config, built, operations, h, rfl⟩
  have hl := hreach.sound
  have hlabels : (built.run operations).labels = built.labels :=
    congrArg (List.map Field.label) (fields_run built operations)
  refine
    { labels_eq := ?_
      nodup := hl.nodup_labels
      isWord := ?_
      existsUnique := fun _ => hl.existsUnique_of_mem_labels
      field_eq_ok_iff := fun _ _ => hl.field_eq_ok_iff
      field_eq_error_iff := fun _ _ => hl.field_eq_error_iff
      position?_eq_some_iff := fun _ _ => hl.position?_eq_some_iff
      field_of_getElem? := fun _ _ => hl.field_of_getElem?_labels
      perform_of_notMem := fun _ _ hnew hlabel => Layout.perform_of_notMem hlabel hnew }
  · obtain ⟨d, hparse, rfl⟩ := exists_of_build h
    rw [hlabels, ← Text.words_eq_filter_splitOnP]
    exact Definition.labels_of_parse hparse
  · intro label hmem
    obtain ⟨f, hf, rfl⟩ := List.mem_map.mp hmem
    exact hreach.isWord_label hf

/-- Labels that differ in case alone, one of them with a sign that divides other formats, after a
request about a label that is not declared. -/
theorem labelled_run_case :
    let built : Layout := ⟨⟨.bits16, .little, .none⟩, [⟨"é,", .constant, 1, 0, 1⟩,
      ⟨"É,", .space, 2, 1, 2⟩], ⟨[1, 0, 0, 0, 0]⟩⟩
    build (· ≤ 1024) "é, dc.b 1\n\tÉ, ds.w 2" ⟨.bits16, .little, .none⟩ =
      .ok built ∧
    (built.run [.set "e" 5, .setAt "É," 7 1]).Labelled
      [⟨"é,".toList, "dc.b".toList, ['1']⟩, ⟨"É,".toList, "ds.w".toList, ['2']⟩] := by
  intro built
  have hbuilt : build (· ≤ 1024) "é, dc.b 1\n\tÉ, ds.w 2"
      ⟨.bits16, .little, .none⟩ = .ok built := by decide +kernel
  have htriples : Triple.ofWords
      (("é, dc.b 1\n\tÉ, ds.w 2".toList.splitOnP Text.isBlank).filter (· ≠ [])) =
      [⟨"é,".toList, "dc.b".toList, ['1']⟩, ⟨"É,".toList, "ds.w".toList, ['2']⟩] := by
    decide +kernel
  exact ⟨hbuilt, htriples ▸ labelled_run hbuilt _⟩

end Layout

end BinaryLayout
