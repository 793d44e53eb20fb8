import BinaryLayout.Proofs.Layout.Element
import BinaryLayout.Proofs.Layout.InitialImage

/-!
# The accessors of a sound layout

What each accessor of a sound layout returns, said by the bytes of the buffer. A label either leads
to its field or is not declared, and then every accessor fails with it. On a field the accessors
that read or write it as a whole do not fail: the checks behind them always succeed. An accessor of
an element fails if the element reaches beyond the buffer.

## Main definitions

* `Field.content`: the bytes of a field.
* `Layout.current`: the value that a field shows.

## Main results

* `Layout.Sound.field_cases`: a label leads to its field or is not declared.
* `Layout.Sound.getAt_eq`, `Layout.Sound.setAt_eq`: the accessors of an element.
* `Layout.Sound.get_eq`, `Layout.Sound.set_eq`, `Layout.Sound.getString_eq`,
  `Layout.Sound.setString_eq`: the accessors of a whole field.
* `Layout.Sound.display_eq`: the field table.
-/

namespace BinaryLayout

/-- The bytes of a field. -/
def Field.content (f : Field) (bytes : List UInt8) : List UInt8 :=
  Buffer.slice bytes f.offset f.totalSize

namespace Layout

variable {l : Layout} {f : Field} {label : String}

/-! ### Labels -/

theorem field_eq_error (h : label ∉ l.labels) : l.field label = .error (.undefinedLabel label) := by
  have hnone : l.fields.find? (fun f => f.label == label) = none := by
    rw [List.find?_eq_none]
    exact fun f hf heq => h (List.mem_map.mpr ⟨f, hf, beq_iff_eq.mp heq⟩)
  rw [field, hnone]

/-- A label leads to its field or is not declared. -/
theorem Sound.field_cases (hl : l.Sound) (label : String) :
    (∃ f ∈ l.fields, f.label = label ∧ l.field label = .ok f) ∨
      label ∉ l.labels ∧ l.field label = .error (.undefinedLabel label) := by
  by_cases h : label ∈ l.labels
  · obtain ⟨f, hf, rfl⟩ := List.mem_map.mp h
    exact Or.inl ⟨f, hf, rfl, hl.field_eq hf⟩
  · exact Or.inr ⟨h, field_eq_error h⟩

/-! ### Ranges of the buffer -/

theorem readRange_eq (hl : l.size < Word.count64) (f : Field) {start length : Nat}
    (h : start + length ≤ l.size) :
    l.readRange f start length = .ok (Buffer.slice l.bytes start length) := by
  simp only [readRange, Buffer.read_eq h hl]
  rfl

theorem writeRange_eq (hl : l.size < Word.count64) (f : Field) (index : Nat) {start : Nat}
    {new : List UInt8} (h : start + new.length ≤ l.size) :
    l.writeRange f index start new = .ok (l.patch start new) := by
  simp only [writeRange, Buffer.write_eq h hl]
  rfl

/-- The padded text is as long as asked for. -/
@[simp] theorem length_paddedText (text : String) (size : Nat) :
    (paddedText text size).length = size := by
  simp only [paddedText, List.length_append, List.length_replicate, List.length_take]
  omega

/-! ### Elements and whole fields -/

/-- The value that a field shows: a constant shows the value of its bytes, and a space zero. -/
def current (l : Layout) (f : Field) : Int64 :=
  if f.isConstant then Scalar.decode l.config.byteOrder (f.element l.bytes 0) else 0

namespace Sound

variable (hl : l.Sound) (hf : f ∈ l.fields)

include hl hf

theorem stop_le_size : f.stop ≤ l.size := hl.placed.stop_le_of_mem f hf

theorem length_content : (f.content l.bytes).length = f.totalSize :=
  Buffer.length_slice (hl.stop_le_size hf)

theorem getAt_eq (index : Nat) : l.getAt f.label index =
    if f.address index + f.unit ≤ l.size then
      .ok (Scalar.decode l.config.byteOrder (f.element l.bytes index))
    else .error (.outOfBounds f.label index) := by
  simp only [getAt, hl.field_eq hf]
  exact Layout.valueAt_eq hl.size_lt f index

theorem setAt_eq (value : Int64) (index : Nat) : l.setAt f.label value index =
    if f.address index + f.unit ≤ l.size then
      .ok (l.patch (f.address index) (Scalar.encode l.config.byteOrder f.unit value))
    else .error (.outOfBounds f.label index) := by
  simp only [setAt, hl.field_eq hf]
  exact Layout.storeAt_eq hl.size_lt f value index

theorem get_eq : l.get f.label = .ok (l.current f) := by
  simp only [get, hl.field_eq hf, current]
  split_ifs with hc
  · exact hl.valueAt_eq hf (zero_lt_count hc)
  · rfl

theorem set_eq (value : Int64) : l.set f.label value =
    .ok (if f.isConstant then
      l.patch (f.address 0) (Scalar.encode l.config.byteOrder f.unit value) else l) := by
  simp only [set, hl.field_eq hf]
  split_ifs with hc
  · exact hl.storeAt_eq hf (zero_lt_count hc) value
  · rfl

theorem getString_eq : l.getString f.label =
    .ok (if f.totalSize = 0 then none else
      some (String.ofList (Text.Latin.decode (f.content l.bytes)))) := by
  simp only [getString, hl.field_eq hf, readRange_eq hl.size_lt f (hl.stop_le_size hf)]
  split_ifs <;> rfl

theorem getCString_eq : l.getCString f.label =
    .ok (if f.totalSize = 0 then none else
      some (String.ofList (Text.Latin.beforeNul (Text.Latin.decode (f.content l.bytes))))) := by
  rw [getCString, hl.getString_eq hf]
  split_ifs
  · rfl
  · simp only [String.toList_ofList]

theorem setString_eq (text : String) : l.setString f.label text =
    .ok (min text.length f.totalSize, if min text.length f.totalSize = 0 then l
      else l.patch f.offset (paddedText text f.totalSize)) := by
  have hfits : f.offset + (paddedText text f.totalSize).length ≤ l.size :=
    (length_paddedText text f.totalSize).symm ▸ hl.stop_le_size hf
  simp only [setString, hl.field_eq hf, writeRange_eq hl.size_lt f 0 hfits]
  split_ifs with hcopied
  · rw [hcopied]
  · rfl

end Sound

/-! ### The field table -/

theorem Sound.table_eq (hl : l.Sound) {fields : List Field} (h : ∀ f ∈ fields, f ∈ l.fields) :
    l.table fields = .ok (fields.flatMap fun f => f.describe (l.current f) ++ ['\n']) := by
  induction fields with
  | nil => rfl
  | cons f fields ih =>
    obtain ⟨hf, hrest⟩ := List.forall_mem_cons.mp h
    have hvalue : (if f.isConstant then l.getAt f.label 0 else .ok 0) = .ok (l.current f) := by
      rw [current]
      split_ifs with hc
      · rw [getAt, hl.field_eq hf]
        exact hl.valueAt_eq hf (zero_lt_count hc)
      · rfl
    simp only [table, hvalue, ih hrest, List.flatMap_cons, List.append_assoc,
      List.singleton_append]

theorem Sound.display_eq (hl : l.Sound) : l.display =
    .ok (String.ofList (l.fields.flatMap fun f => f.describe (l.current f) ++ ['\n'])) := by
  rw [display, hl.table_eq fun _ hf => hf]
  rfl

end Layout

end BinaryLayout
