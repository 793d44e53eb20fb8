import BinaryLayout.Proofs.Layout.Access
import Mathlib.Data.List.Forall2

/-!
# The initial image and the gaps between fields

When a layout is built, each constant holds the bytes of its declared value and every other byte is
zero. A byte that belongs to no field, which is one that was skipped to align a constant, stays zero
as long as requests write inside the fields: writing a constant, a text or an element of a field
replaces bytes of that field and no others.

## Main definitions

* `Layout.IsFieldPatchOf`: a layout is another one, or the other one with bytes of one field
  replaced.
* `Layout.WritesInFields`: a request that neither leaves its field nor replaces the whole buffer.

## Main results

* `Layout.Sound.isFieldPatchOf_perform`: what such a request can change.
* `Layout.getElem?_run_of_forall₂`: a run of such requests leaves the gaps as they were.
* `Layout.initial_image_and_gaps`: the initial image, and the gaps after every such run.
-/

namespace BinaryLayout.Layout

variable {l l' : Layout} {f : Field} {operation : Operation} {a : Nat}

/-- The layout is the old one, or the old one with bytes replaced that lie in one of its fields. -/
def IsFieldPatchOf (l' l : Layout) : Prop :=
  l' = l ∨ ∃ f ∈ l.fields, ∃ start new, f.offset ≤ start ∧ start + new.length ≤ f.stop ∧
    l' = l.patch start new

/-- A request writes inside the fields: it is not for an element beyond its field unless it fails,
and it does not replace the buffer without regard to fields. -/
def WritesInFields (fields : List Field) (operation : Operation)
    (outcome : Except OperationError Answer × Layout) : Prop :=
  match operation with
  | .setAt label _ index =>
    (∃ f ∈ fields, f.label = label ∧ index < f.count) ∨ ∃ fault, outcome.1 = .error fault
  | .setBytes _ | .loadImage _ => False
  | _ => True

/-! ### One request -/

/-- Storing a value in an element of a field replaces bytes of the field. -/
theorem isFieldPatchOf_patch (hf : f ∈ l.fields) {index : Nat} (hindex : index < f.count)
    (value : Int64) : (l.patch (f.address index)
      (Scalar.encode l.config.byteOrder f.unit value)).IsFieldPatchOf l := by
  refine Or.inr ⟨f, hf, _, _, f.offset_le_address index, ?_, rfl⟩
  rw [Scalar.length_encode]
  exact Field.address_add_unit_le hindex

namespace Sound

variable (hl : l.Sound)

include hl

/-- Replacing bytes of a field leaves the bytes outside the fields. -/
theorem getElem?_of_isFieldPatchOf (h : l'.IsFieldPatchOf l) (ha : ∀ f ∈ l.fields, a ∉ f.range) :
    l'.bytes[a]? = l.bytes[a]? := by
  rcases h with rfl | ⟨f, hf, start, new, hoffset, hstop, rfl⟩
  · rfl
  · have hfits : start + new.length ≤ l.bytes.length := hstop.trans (hl.stop_le_size hf)
    rw [bytes_patch, Buffer.getElem?_patched hfits, if_neg]
    rintro ⟨hle, hlt⟩
    exact ha f hf ⟨hoffset.trans hle, hlt.trans_le hstop⟩

/-- **One request** that writes inside the fields keeps the layout or replaces bytes of one
field. -/
theorem isFieldPatchOf_perform (h : WritesInFields l.fields operation (l.perform operation)) :
    (l.perform operation).2.IsFieldPatchOf l := by
  -- An element beyond its field is excluded only where the request succeeds.
  cases hresult : (l.perform operation).1 with
  | error fault => exact Or.inl (hl.snd_perform_of_error hresult)
  | ok answer =>
    cases operation with
    | set label value =>
      rcases hl.field_cases label with ⟨f, hf, rfl, -⟩ | ⟨hnew, -⟩
      · simp only [Layout.perform, hl.set_eq hf, Except.map, writing]
        split_ifs with hc
        · exact isFieldPatchOf_patch hf (zero_lt_count hc) value
        · exact Or.inl rfl
      · rw [perform_of_notMem rfl hnew]
        exact Or.inl rfl
    | setAt label value index =>
      rcases h with ⟨f, hf, rfl, hindex⟩ | ⟨fault, hfault⟩
      · rw [hl.perform_setAt hf value (hl.address_le_size hf hindex)]
        exact isFieldPatchOf_patch hf hindex value
      · rw [hresult] at hfault
        cases hfault
    | setString label text =>
      rcases hl.field_cases label with ⟨f, hf, rfl, -⟩ | ⟨hnew, -⟩
      · simp only [Layout.perform, hl.setString_eq hf, Except.map, writing]
        split_ifs with hcopied
        · exact Or.inl rfl
        · refine Or.inr ⟨f, hf, _, _, le_rfl, ?_, rfl⟩
          rw [length_paddedText, Field.stop]
      · rw [perform_of_notMem rfl hnew]
        exact Or.inl rfl
    | setBytes | loadImage => exact h.elim
    | size | config | fields | labels | bytes | hexDump | saveImage => exact Or.inl rfl
    | field | describe | range | offsetOf | sizeOf | get | getAt | getString | getCString
    | display => exact Or.inl (reading_snd ..)

end Sound

/-! ### Runs -/

/-- A run of requests that write inside the fields leaves the bytes outside the fields. -/
theorem getElem?_run_of_forall₂ {operations : List Operation} (hl : l.Sound)
    (h : List.Forall₂ (WritesInFields l.fields) operations (l.transcript operations))
    (ha : ∀ f ∈ l.fields, a ∉ f.range) : (l.run operations).bytes[a]? = l.bytes[a]? := by
  induction operations generalizing l with
  | nil => rfl
  | cons operation operations ih =>
    obtain ⟨hfirst, hrest⟩ := List.forall₂_cons.mp h
    -- The fields do not change, so a gap of the first layout is a gap of every later one.
    have hfields := fields_perform l operation
    rw [← hfields] at hrest
    rw [run_cons, ih (hl.perform operation) hrest (hfields.symm ▸ ha)]
    exact hl.getElem?_of_isFieldPatchOf (hl.isFieldPatchOf_perform hfirst) ha

variable {granted : Nat → Bool} {text : String} {config : Config} {d : Definition}

/-- In the initial image each byte of a constant's declared value stands at the address of its
weight. -/
theorem getElem?_initial_byteAddress
    (hp : Definition.Placed config.padding 0 d.fields d.totalSize) (hf : f ∈ d.fields)
    (hc : f.isConstant = true) {k : Nat} (hk : k < f.unit) :
    (initial config d).bytes[f.byteAddress config.byteOrder 0 k]? =
      some (Scalar.byte f.datum.toInt k) := by
  have hbytes := congrArg (fun bytes => bytes[Scalar.place config.byteOrder f.unit k]?)
    (element_initial hp hf hc)
  simp only [Field.element, Buffer.getElem?_slice, if_pos (Scalar.place_lt config.byteOrder hk),
    Scalar.getElem?_encode_place config.byteOrder f.datum hk] at hbytes
  rwa [f.byteAddress_eq config.byteOrder 0 hk]

/-- **The initial image and the gaps.** A layout that is built has the fields and the size of its
definition. Each constant's bytes are those of its declared value in the configured order, and every
byte outside the constants is zero. After every sequence of requests that write inside the fields,
each byte that belongs to no field is still zero. -/
theorem initial_image_and_gaps (h : build granted text config = .ok l) :
    (∃ d, Definition.parse text config.width config.padding = .ok d ∧ l.fields = d.fields ∧
        l.size = d.totalSize) ∧
      (∀ f ∈ l.fields, f.isConstant = true → f.range = Set.Ico f.offset (f.offset + f.unit) ∧
        ∀ k < f.unit, l.bytes[f.byteAddress config.byteOrder 0 k]? =
          some (Scalar.byte f.datum.toInt k)) ∧
      (∀ a < l.size, (∀ f ∈ l.fields, f.isConstant = true → a ∉ f.range) →
        l.bytes[a]? = some 0) ∧
      ∀ operations : List Operation,
        List.Forall₂ (WritesInFields l.fields) operations (l.transcript operations) →
        ∀ a < l.size, (∀ f ∈ l.fields, a ∉ f.range) → (l.run operations).bytes[a]? = some 0 := by
  have hl := sound_of_build h
  obtain ⟨d, hparse, rfl⟩ := exists_of_build h
  have hp := Definition.placed_of_parse hparse
  have hsize : (initial config d).size = d.totalSize := size_initial hp
  have hzero : ∀ a < (initial config d).size,
      (∀ f ∈ d.fields, f.isConstant = true → a ∉ f.range) →
        (initial config d).bytes[a]? = some 0 :=
    fun a ha hgap => getElem?_initial hp (hsize ▸ ha) hgap
  refine ⟨⟨d, hparse, rfl, hsize⟩, fun f hf hc => ⟨?_, fun k hk => ?_⟩, hzero,
    fun operations hwrites a ha hgap => ?_⟩
  · rw [Field.range, stop_of_isConstant hc]
  · exact getElem?_initial_byteAddress hp hf hc hk
  · rw [getElem?_run_of_forall₂ hl hwrites hgap]
    exact hzero a ha fun f hf _ => hgap f hf

/-- A byte and a long that is aligned behind it: a text is stored over the byte and what does not
fit is cut, an element beyond the buffer is refused, and the three bytes between are zero. -/
theorem gap_byte_long :
    let b : Field := ⟨"b", .constant, 1, 0, 1⟩
    let n : Field := ⟨"n", .constant, 4, 4, -2⟩
    let l : Layout := ⟨⟨.bits32, .big, .int⟩, [b, n], ⟨[1, 0, 0, 0, 255, 255, 255, 254]⟩⟩
    let operations : List Operation := [.setString "b" "XYZ", .setAt "n" 9 1, .set "n" 7]
    build (· ≤ 1024) "b dc.b 1 n dc.l -2" ⟨.bits32, .big, .int⟩ = .ok l ∧
      List.Forall₂ (WritesInFields [b, n]) operations (l.transcript operations) ∧
      l.bytes[n.byteAddress .big 0 0]? = some (Scalar.byte (-2) 0) ∧
      (l.run operations).bytes[3]? = some 0 := by
  intro b n l operations
  have h : build (· ≤ 1024) "b dc.b 1 n dc.l -2" ⟨.bits32, .big, .int⟩ = .ok l := by
    decide +kernel
  have hwrites : List.Forall₂ (WritesInFields [b, n]) operations (l.transcript operations) :=
    .cons trivial <| .cons (Or.inr ⟨.layout (.outOfBounds "n" 1), by decide +kernel⟩) <|
      .cons trivial .nil
  obtain ⟨-, hconstants, -, hgaps⟩ := initial_image_and_gaps h
  have hn : n ∈ l.fields := by simp [l]
  refine ⟨h, hwrites, (hconstants n hn rfl).2 0 (by decide), hgaps operations hwrites 3
    (by decide) ?_⟩
  simp [l, b, n, Field.range, Field.stop, Field.totalSize, Field.count]

end BinaryLayout.Layout
