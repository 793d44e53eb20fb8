import BinaryLayout.Proofs.Layout.Access
import BinaryLayout.Proofs.Layout.Strings

/-!
# The text and the elements of a field

A field can be read as a text and element by element. Both are views of the same bytes: each element
is the value of the characters at its place in the text, and the values of all elements have the
bytes of the whole text. So with the byte order and the size of an element known, either view
determines the other.

## Main definitions

* `Layout.textOf`, `Layout.elementValues`: the two views of a sequence of bytes.
* `Layout.elementAnswers`: the answers to the requests for the elements of a field.

## Main results

* `Layout.textOf_injective`, `Layout.elementValues_inj`: no view loses anything of the bytes.
* `Layout.Sound.perform_getString_eq_textOf`, `Layout.Sound.elementAnswers_eq`: what is read of a
  field are the views of its bytes.
* `Layout.text_and_elements_agree`: the two views of the fields of reachable layouts.
-/

namespace BinaryLayout

/-- The bytes of an element are those at its place in the field. -/
theorem Field.slice_content (f : Field) (bytes : List UInt8) {i : Nat} (hi : i < f.count) :
    Buffer.slice (f.content bytes) (i * f.unit) f.unit = f.element bytes i := by
  have hstop := Field.address_add_unit_le hi
  rw [Field.address, Field.stop] at hstop
  exact Buffer.slice_slice bytes f.offset (by omega)

namespace Layout

variable {l l' : Layout} {f g : Field} {order : ByteOrder} {unit : Nat} {bytes bytes' : List UInt8}

/-! ### Two views of bytes -/

/-- The text of bytes, if there are any. -/
def textOf (bytes : List UInt8) : Option String :=
  if bytes.length = 0 then none else some (String.ofList (Text.Latin.decode bytes))

/-- The values of bytes that are taken as elements of a size. -/
def elementValues (order : ByteOrder) (unit : Nat) (bytes : List UInt8) : List Int64 :=
  (List.range (bytes.length / unit)).map fun i =>
    Scalar.decode order (Buffer.slice bytes (i * unit) unit)

theorem textOf_injective : Function.Injective textOf := by
  have hback : Function.LeftInverse
      (fun text : Option String => text.elim [] fun s => Text.Latin.encode s.toList) textOf := by
    intro bytes
    rw [textOf]
    split_ifs with h
    · exact (List.length_eq_zero_iff.mp h).symm
    · simp only [Option.elim_some, String.toList_ofList, Text.Latin.encode_decode]
  exact hback.injective

/-- The values of whole elements have the bytes that they were taken from. -/
theorem flatMap_encode_elementValues (hle : unit ≤ 8) (hdvd : unit ∣ bytes.length) :
    (elementValues order unit bytes).flatMap (Scalar.encode order unit) = bytes := by
  have hlength : bytes.length / unit * unit = bytes.length := Nat.div_mul_cancel hdvd
  have helement : ∀ i ∈ List.range (bytes.length / unit),
      Scalar.encode order unit (Scalar.decode order (Buffer.slice bytes (i * unit) unit)) =
        Buffer.slice bytes (i * unit) unit := by
    intro i hi
    have hend : i * unit + unit ≤ bytes.length := by
      rw [← hlength, ← Nat.succ_mul]
      exact Nat.mul_le_mul_right unit (List.mem_range.mp hi)
    have hslice := Buffer.length_slice hend
    have hcodec := Scalar.encode_decode order (hslice.trans_le hle)
    rwa [hslice] at hcodec
  rw [elementValues, List.flatMap_map, List.flatMap_congr helement, Buffer.flatMap_slice, hlength,
    Buffer.slice, List.drop_zero, List.take_length]

/-- Bytes that are whole elements are determined by the values. -/
theorem elementValues_inj (hle : unit ≤ 8) (hdvd : unit ∣ bytes.length)
    (hdvd' : unit ∣ bytes'.length) :
    elementValues order unit bytes = elementValues order unit bytes' ↔ bytes = bytes' := by
  refine ⟨fun h => ?_, fun h => h ▸ rfl⟩
  have hbytes := congrArg (List.flatMap (Scalar.encode order unit)) h
  rwa [flatMap_encode_elementValues hle hdvd, flatMap_encode_elementValues hle hdvd'] at hbytes

/-! ### The views of a field -/

/-- The answers to the requests for the elements of a field, in their order. -/
def elementAnswers (l : Layout) (f : Field) : List (Except OperationError Answer) :=
  (List.range f.count).map fun i => (l.perform (.getAt f.label i)).1

namespace Sound

variable (hl : l.Sound) (hf : f ∈ l.fields)

include hl hf

theorem unit_dvd_length_content : f.unit ∣ (f.content l.bytes).length := by
  rw [hl.length_content hf, Field.totalSize]
  exact Nat.dvd_mul_right _ _

theorem unit_le : f.unit ≤ 8 := by
  rcases hl.unit_cases hf with h | h | h | h <;> omega

/-- An element is answered with the value of the bytes at its place in the field. -/
theorem perform_getAt_eq {i : Nat} (hi : i < f.count) :
    (l.perform (.getAt f.label i)).1 = .ok (.value
      (Scalar.decode l.config.byteOrder
        (Buffer.slice (f.content l.bytes) (i * f.unit) f.unit))) := by
  rw [hl.perform_getAt hf (hl.address_le_size hf hi), f.slice_content l.bytes hi]

theorem perform_getString_eq_textOf :
    (l.perform (.getString f.label)).1 = .ok (.optionalText (textOf (f.content l.bytes))) := by
  simp only [Layout.perform, hl.getString_eq hf, reading, textOf, hl.length_content hf]

theorem elementAnswers_eq : l.elementAnswers f =
    (elementValues l.config.byteOrder f.unit (f.content l.bytes)).map fun v => .ok (.value v) := by
  have hpos : 0 < f.unit := by
    rcases hl.unit_cases hf with h | h | h | h <;> omega
  rw [elementAnswers, elementValues, hl.length_content hf, Field.totalSize,
    Nat.mul_div_cancel_left _ hpos, List.map_map]
  exact List.map_congr_left fun i hi => hl.perform_getAt_eq hf (List.mem_range.mp hi)

/-- Fields with elements of one size and one byte order have the same text exactly if their elements
are answered alike. -/
theorem elementAnswers_eq_iff (hl' : l'.Sound) (hg : g ∈ l'.fields) (hunit : g.unit = f.unit)
    (horder : l'.config.byteOrder = l.config.byteOrder) :
    l'.elementAnswers g = l.elementAnswers f ↔
      (l'.perform (.getString g.label)).1 = (l.perform (.getString f.label)).1 := by
  have hanswer : Function.Injective fun v : Int64 =>
      (Except.ok (Answer.value v) : Except OperationError Answer) :=
    fun v v' h => Answer.value.inj (Except.ok.inj h)
  rw [hl.elementAnswers_eq hf, hl'.elementAnswers_eq hg, horder, hunit,
    (List.map_injective_iff.mpr hanswer).eq_iff,
    elementValues_inj (hl.unit_le hf) (hunit ▸ hl'.unit_dvd_length_content hg)
      (hl.unit_dvd_length_content hf),
    hl.perform_getString_eq_textOf hf, hl'.perform_getString_eq_textOf hg, Except.ok.injEq,
    Answer.optionalText.injEq, textOf_injective.eq_iff]

end Sound

/-- **The text and the elements agree.** In a reachable layout a field that has bytes has a text. At
the place of each element the text is made of the bytes of the buffer there, and the element is
answered with their value in the configured order. Two fields with elements of one size and with the
same byte order have the same text exactly if they have the same elements, whatever layouts they
belong to. -/
theorem text_and_elements_agree (hl : l.Reachable) (hf : f ∈ l.fields) (hsize : f.totalSize ≠ 0) :
    (∃ text offset data,
      (l.perform (.getString f.label)).1 = .ok (.optionalText (some text)) ∧
      (l.perform (.offsetOf f.label)).1 = .ok (.number offset) ∧
      (l.perform .bytes).1 = .ok (.bytes data) ∧
      ∀ i < f.count,
        let element := Buffer.slice (Text.Latin.encode text.toList) (i * f.unit) f.unit
        element.length = f.unit ∧
          element = Buffer.slice data (offset + i * f.unit) f.unit ∧
          (l.perform (.getAt f.label i)).1 =
            .ok (.value (Scalar.decode l.config.byteOrder element))) ∧
      ∀ (l' : Layout) (g : Field), l'.Reachable → g ∈ l'.fields → g.unit = f.unit →
        l'.config.byteOrder = l.config.byteOrder →
          (l'.elementAnswers g = l.elementAnswers f ↔
            (l'.perform (.getString g.label)).1 = (l.perform (.getString f.label)).1) := by
  have hl := hl.sound
  refine ⟨⟨_, f.offset, l.bytes, congrArg Prod.fst (hl.perform_getString hf hsize), ?_, rfl,
    fun i hi => ?_⟩, fun l' g hl' hg hunit horder =>
    hl.elementAnswers_eq_iff hf hl'.sound hg hunit horder⟩
  · simp only [perform, offsetOf, hl.field_eq hf, Except.map, reading]
  · rw [String.toList_ofList, Text.Latin.encode_decode]
    refine ⟨?_, f.slice_content l.bytes hi, hl.perform_getAt_eq hf hi⟩
    rw [f.slice_content l.bytes hi]
    exact hl.length_element hf hi

/-- Two words whose bytes no ASCII character has, laid over the field as bytes in one layout and
written as elements in another one. -/
theorem text_and_elements_agree_two_words :
    let w : Field := ⟨"w", .space, 2, 1, 2⟩
    let v : Field := ⟨"v", .space, 2, 0, 2⟩
    let built : Layout := ⟨⟨.bits32, .big, .none⟩, [⟨"b", .constant, 1, 0, 7⟩, w],
      ⟨[7, 0, 0, 0, 0]⟩⟩
    let built' : Layout := ⟨⟨.bits64, .big, .long⟩, [v], ⟨[0, 0, 0, 0]⟩⟩
    let l := built.run [.setBytes [7, 0xE9, 1, 0xFF, 0xFE]]
    let l' := built'.run [.setAt "v" 0xE901 0, .setAt "v" (-2) 1]
    l.Reachable ∧ w ∈ l.fields ∧ w.totalSize ≠ 0 ∧ l'.Reachable ∧
      (l.perform (.getAt "w" 1)).1 = .ok (.value (Scalar.decode .big [0xFF, 0xFE])) ∧
      l'.elementAnswers v = l.elementAnswers w ∧
      (l'.perform (.getString "v")).1 = (l.perform (.getString "w")).1 := by
  intro w v built built' l l'
  have hbuilt : build (· ≤ 1024) "b dc.b 7 w ds.w 2" ⟨.bits32, .big, .none⟩ =
      .ok built := by decide +kernel
  have hbuilt' : build (· ≤ 1024) "v ds.w 2" ⟨.bits64, .big, .long⟩ =
      .ok built' := by decide +kernel
  have hl : l.Reachable := ⟨_, _, _, built, _, hbuilt, rfl⟩
  have hl' : l'.Reachable := ⟨_, _, _, built', _, hbuilt', rfl⟩
  have hf : w ∈ l.fields := List.mem_cons_of_mem _ List.mem_cons_self
  have hsize : w.totalSize ≠ 0 := by decide
  have hsame : l'.elementAnswers v = l.elementAnswers w := by decide +kernel
  obtain ⟨⟨text, offset, data, htext, hoffset, hdata, helements⟩, hviews⟩ :=
    text_and_elements_agree hl hf hsize
  obtain ⟨-, helement, hvalue⟩ := helements 1 (by decide)
  obtain rfl : 1 = offset := by
    have : (l.perform (.offsetOf "w")).1 = .ok (.number 1) := by decide +kernel
    simpa using this.symm.trans hoffset
  obtain rfl : l.bytes = data := by simpa [perform] using hdata
  rw [helement] at hvalue
  exact ⟨hl, hf, hsize, hl', hvalue, hsame,
    (hviews l' v hl' List.mem_cons_self rfl rfl).mp hsame⟩

end Layout

end BinaryLayout
