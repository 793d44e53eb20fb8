import BinaryLayout.Proofs.Definition.Outline
import BinaryLayout.Proofs.Layout.Run

/-!
# Images carry the whole state

The initial value of a constant goes into the buffer when a layout is built, and nothing asks the
field for it again. Forgetting the initial values therefore commutes with every request, and every
answer but the field itself can be given without them. Layouts of definitions that differ only in
the values of constants become indistinguishable once the bytes of one are laid over those of the
other, for instance by an image.

## Main definitions

* `Layout.outline`: a layout without the initial values of its constants.
* `Layout.Operation.showsField`: whether a request is answered with a field as it was declared.
* `Layout.SamePlaces`: two layouts with the same outlines and size, whatever their bytes.

## Main results

* `Layout.perform_outline`: requests are answered from the outline alone.
* `Layout.fst_perform_run_eq`: layouts with the same outline answer alike after the same run.
* `Layout.image_carries_state`: an image carries all that can be told of a layout.
-/

namespace BinaryLayout

/-- Data of the buffer's size replaces all of its bytes. -/
theorem Buffer.overlay_of_length_eq {b : Buffer} {data : List UInt8} (h : data.length = b.size) :
    b.overlay data = ⟨data⟩ := by
  have hfitting : b.fitting data = data.length := by rw [fitting, h, Nat.min_self]
  have hdrop : b.bytes.drop data.length = [] := List.drop_of_length_le h.ge
  simp only [overlay, hfitting, List.take_length, patched, List.take_zero, List.nil_append,
    Nat.zero_add, hdrop, List.append_nil]

namespace Layout

variable {l l' : Layout} {operation : Operation}

/-- A layout without the initial values of its constants. -/
def outline (l : Layout) : Layout := { l with fields := l.fields.map Field.outline }

/-! ### Accessors -/

@[simp] theorem labels_outline (l : Layout) : l.outline.labels = l.labels :=
  List.map_map.trans rfl

theorem field_outline (l : Layout) (label : String) :
    l.outline.field label = (l.field label).map Field.outline := by
  have hfind : l.outline.fields.find? (fun f => f.label == label) =
      (l.fields.find? fun f => f.label == label).map Field.outline := List.find?_map
  rw [field, field, hfind]
  cases l.fields.find? fun f => f.label == label <;> rfl

/-- An element is read without a look at the initial value. -/
theorem getAt_outline (l : Layout) (label : String) (index : Nat) :
    l.outline.getAt label index = l.getAt label index := by
  rw [getAt, getAt, field_outline]
  cases l.field label <;> rfl

theorem get_outline (l : Layout) (label : String) : l.outline.get label = l.get label := by
  rw [get, get, field_outline]
  cases l.field label <;> rfl

theorem getString_outline (l : Layout) (label : String) :
    l.outline.getString label = l.getString label := by
  rw [getString, getString, field_outline]
  cases l.field label with
  | error fault => rfl
  | ok f =>
    simp only [Except.map, Field.totalSize_outline]
    rfl

theorem getCString_outline (l : Layout) (label : String) :
    l.outline.getCString label = l.getCString label := by
  rw [getCString, getCString, getString_outline]

theorem table_outline (l : Layout) (fields : List Field) :
    l.outline.table (fields.map Field.outline) = l.table fields := by
  induction fields with
  | nil => rfl
  | cons f fields ih =>
    rw [List.map_cons, table, table, ih, Field.isConstant_outline, Field.label_outline,
      getAt_outline]
    simp only [Field.describe_outline]

theorem display_outline (l : Layout) : l.outline.display = l.display := by
  rw [display, display]
  exact congrArg (Except.map String.ofList) (l.table_outline l.fields)

theorem writeRange_outline (l : Layout) (f : Field) (index start : Nat) (new : List UInt8) :
    l.outline.writeRange f.outline index start new =
      (l.writeRange f index start new).map outline := by
  have hbuffer : l.outline.buffer = l.buffer := rfl
  rw [writeRange, writeRange, hbuffer]
  cases l.buffer.write start new <;> rfl

theorem storeAt_outline (l : Layout) (f : Field) (value : Int64) (index : Nat) :
    l.outline.storeAt f.outline value index = (l.storeAt f value index).map outline := by
  have helement : l.outline.element f.outline index = l.element f index := rfl
  rw [storeAt, storeAt, helement]
  cases l.element f index with
  | error fault => rfl
  | ok start => exact l.writeRange_outline f index start _

theorem setAt_outline (l : Layout) (label : String) (value : Int64) (index : Nat) :
    l.outline.setAt label value index = (l.setAt label value index).map outline := by
  rw [setAt, setAt, field_outline]
  cases l.field label with
  | error fault => rfl
  | ok f => exact l.storeAt_outline f value index

theorem set_outline (l : Layout) (label : String) (value : Int64) :
    l.outline.set label value = (l.set label value).map outline := by
  rw [set, set, field_outline]
  cases l.field label with
  | error fault => rfl
  | ok f =>
    have hconstant : f.outline.isConstant = f.isConstant := rfl
    cases hc : f.isConstant with
    | false => simp only [Except.map, hconstant, hc, Bool.false_eq_true, if_false]
    | true =>
      simp only [Except.map, hconstant, hc, if_true]
      exact l.storeAt_outline f value 0

theorem setString_outline (l : Layout) (label text : String) :
    l.outline.setString label text =
      (l.setString label text).map fun r => (r.1, r.2.outline) := by
  rw [setString, setString, field_outline]
  cases l.field label with
  | error fault => rfl
  | ok f =>
    simp only [Except.map, Field.totalSize_outline, Field.offset_outline, writeRange_outline]
    split_ifs
    · rfl
    · cases l.writeRange f 0 f.offset (paddedText text f.totalSize) <;> rfl

/-! ### Requests -/

/-- Whether a request is answered with a field as it was declared, its initial value included. -/
def Operation.showsField : Operation → Bool
  | .fields | .field _ => true
  | _ => false

theorem reading_map {α β : Type} (l : Layout) (answer : β → Answer) (g : α → β)
    (result : Except LayoutError α) :
    l.reading answer (result.map g) = l.reading (fun a => answer (g a)) result := by
  cases result <;> rfl

/-- A result that both read alike is answered alike, and neither layout changes. -/
theorem reading_outline {α : Type} (l : Layout) (answer : α → Answer)
    (result : Except LayoutError α) : l.outline.reading answer result =
      ((l.reading answer result).1, (l.reading answer result).2.outline) := by
  cases result <;> rfl

/-- **Requests and outlines.** A request that is not answered with a field has the same answer on
the outline, and leaves the outline of what it leaves of the layout. -/
theorem perform_outline (l : Layout) (h : operation.showsField = false) :
    l.outline.perform operation = ((l.perform operation).1, (l.perform operation).2.outline) := by
  cases operation with
  | fields | field => cases h
  | size | config | bytes | setBytes | hexDump | saveImage => rfl
  | labels => rw [perform, perform, labels_outline]
  | describe label value =>
    simp only [perform, field_outline, reading_map, Field.describe_outline, reading_outline]
  | range label =>
    simp only [perform, field_outline, reading_map, Field.offset_outline, Field.stop_outline,
      reading_outline]
  | offsetOf label =>
    simp only [perform, offsetOf, field_outline, reading_map, Field.offset_outline,
      reading_outline]
  | sizeOf label =>
    simp only [perform, sizeOf, field_outline, reading_map, Field.totalSize_outline,
      reading_outline]
  | get label => rw [perform, perform, get_outline, reading_outline]
  | getAt label index => rw [perform, perform, getAt_outline, reading_outline]
  | getString label => rw [perform, perform, getString_outline, reading_outline]
  | getCString label => rw [perform, perform, getCString_outline, reading_outline]
  | display => rw [perform, perform, display_outline, reading_outline]
  | set label value =>
    rw [perform, perform, set_outline]
    cases l.set label value <;> rfl
  | setAt label value index =>
    rw [perform, perform, setAt_outline]
    cases l.setAt label value index <;> rfl
  | setString label text =>
    rw [perform, perform, setString_outline]
    cases l.setString label text <;> rfl
  | loadImage image =>
    rw [perform, perform, loadImage, loadImage]
    cases image.bytes <;> rfl

/-- Every request leaves the outline of what it leaves of the layout. -/
theorem outline_snd_perform (l : Layout) (operation : Operation) :
    (l.perform operation).2.outline = (l.outline.perform operation).2 := by
  cases h : operation.showsField with
  | false => rw [l.perform_outline h]
  | true =>
    -- The two requests that show fields differ in their answers alone.
    cases operation <;> cases h
    · rfl
    · simp only [perform, reading_snd]

/-- A run leaves the outline of what it leaves of the layout. -/
theorem outline_run (l : Layout) (operations : List Operation) :
    (l.run operations).outline = l.outline.run operations := by
  induction operations generalizing l with
  | nil => rfl
  | cons operation operations ih => rw [run_cons, run_cons, ih, outline_snd_perform]

/-- **Indistinguishable layouts.** After the same run, layouts with the same outline answer each
request alike that is not answered with a field. -/
theorem fst_perform_run_eq (h : l.outline = l'.outline) (operations : List Operation)
    (hshow : operation.showsField = false) :
    ((l.run operations).perform operation).1 = ((l'.run operations).perform operation).1 := by
  have hl := congrArg Prod.fst ((l.run operations).perform_outline hshow)
  have hl' := congrArg Prod.fst ((l'.run operations).perform_outline hshow)
  rw [outline_run, h] at hl
  rw [outline_run] at hl'
  exact hl.symm.trans hl'

/-! ### Images -/

/-- Two layouts have the same configuration, the same size, and fields with the same outlines. -/
structure SamePlaces (l l' : Layout) : Prop where
  config_eq : l'.config = l.config
  size_eq : l'.size = l.size
  fields_eq : l'.fields.map Field.outline = l.fields.map Field.outline

namespace SamePlaces

/-- Requests move no field. -/
theorem run (h : SamePlaces l l') (operations operations' : List Operation) :
    SamePlaces (l.run operations) (l'.run operations') where
  config_eq := by rw [config_run, config_run, h.config_eq]
  size_eq := by rw [size_run, size_run, h.size_eq]
  fields_eq := by rw [fields_run, fields_run, h.fields_eq]

/-- Fields with the same outline have the same label, kind, element size and offset. -/
theorem map_place_eq (h : SamePlaces l l') :
    (l'.fields.map fun f => (f.label, f.kind, f.unit, f.offset)) =
      l.fields.map fun f => (f.label, f.kind, f.unit, f.offset) := by
  have hplaces := congrArg
    (List.map fun f : Field => (f.label, f.kind, f.unit, f.offset)) h.fields_eq
  simpa only [List.map_map, Function.comp_def, Field.label_outline, Field.kind_outline,
    Field.unit_outline, Field.offset_outline] using hplaces

/-- The bytes of one layout fill the buffer of the other. -/
theorem fitting_eq (h : SamePlaces l l') : l'.buffer.fitting l.bytes = l'.size := by
  have hlength : l.bytes.length = l'.buffer.size := h.size_eq.symm
  rw [Buffer.fitting, hlength, Nat.min_self, size]

/-- Laying the bytes of one layout over the other leaves the outline of the first. -/
theorem outline_setBytes (h : SamePlaces l l') :
    (l'.setBytes l.bytes).2.outline = l.outline := by
  have hoverlay : l'.buffer.overlay l.bytes = l.buffer :=
    Buffer.overlay_of_length_eq h.size_eq.symm
  simp only [outline, setBytes, h.config_eq, h.fields_eq, hoverlay]

end SamePlaces

variable {granted granted' : Nat → Bool} {text text' : String} {config : Config}

/-- Texts that declare the same but for the values of constants put the fields in the same
places. -/
theorem samePlaces_of_build (h : build granted text config = .ok l)
    (h' : build granted' text' config = .ok l') (hresemble : Definition.Resemble text text') :
    SamePlaces l l' := by
  obtain ⟨d, hparse, rfl⟩ := exists_of_build h
  obtain ⟨d', hparse', rfl⟩ := exists_of_build h'
  obtain ⟨hfields, htotal⟩ := Definition.outline_of_parse hresemble hparse hparse'
  refine ⟨rfl, ?_, hfields.symm⟩
  rw [size_initial (Definition.placed_of_parse hparse'),
    size_initial (Definition.placed_of_parse hparse), htotal]

/-- **An image carries the whole state.** Take two texts that declare the same but for the values of
constants, build both with the same configuration, and let both layouts serve any requests. The
fields stand in the same places, and laying the bytes of one over the other, directly or by an
image, copies exactly the whole buffer. From then on the two answer every request alike that is not
answered with a field as it was declared, whatever further requests both have served. -/
theorem image_carries_state (h : build granted text config = .ok l)
    (h' : build granted' text' config = .ok l') (hresemble : Definition.Resemble text text')
    (operations operations' : List Operation) :
    let source := l.run operations
    let target := l'.run operations'
    let restored := target.perform (.setBytes source.bytes)
    target.size = source.size ∧
      (target.fields.map fun f => (f.label, f.kind, f.unit, f.offset)) =
        source.fields.map (fun f => (f.label, f.kind, f.unit, f.offset)) ∧
      restored.1 = .ok (.number target.size) ∧
      target.perform (.loadImage (some source.saveImage)) = restored ∧
      ∀ (more : List Operation) (operation : Operation), operation.showsField = false →
        ((restored.2.run more).perform operation).1 = ((source.run more).perform operation).1 := by
  intro source target restored
  have hplaces : SamePlaces source target :=
    (samePlaces_of_build h h' hresemble).run operations operations'
  refine ⟨hplaces.size_eq, hplaces.map_place_eq, ?_, rfl, fun more operation hshow => ?_⟩
  · exact congrArg (fun n => Except.ok (Answer.number n)) hplaces.fitting_eq
  · exact fst_perform_run_eq hplaces.outline_setBytes more hshow

/-- A version and a name: the image of a layout with one version is loaded into a layout that was
declared with another, and whose name was written before. -/
theorem image_carries_version_and_name :
    let source : Layout := ⟨⟨.bits32, .big, .int⟩,
      [⟨"v", .constant, 2, 0, 3⟩, ⟨"n", .space, 1, 2, 2⟩], ⟨[0, 3, 72, 73]⟩⟩
    let target : Layout := ⟨⟨.bits32, .big, .int⟩,
      [⟨"v", .constant, 2, 0, 0⟩, ⟨"n", .space, 1, 2, 2⟩], ⟨[0, 0, 0, 7]⟩⟩
    Definition.Resemble "v dc.w 3 n ds.b 2" "v dc.w 0 n ds.b 0x2" ∧
      (target.perform (.loadImage (some source.saveImage))).1 = .ok (.number 4) ∧
      ∀ (more : List Operation) (operation : Operation), operation.showsField = false →
        (((target.perform (.setBytes source.bytes)).2.run more).perform operation).1 =
          ((source.run more).perform operation).1 := by
  intro source target
  have h : build (· ≤ 1024) "v dc.w 3 n ds.b 2" ⟨.bits32, .big, .int⟩ =
      .ok ⟨⟨.bits32, .big, .int⟩, source.fields, ⟨[0, 3, 0, 0]⟩⟩ := by decide +kernel
  have h' : build (· ≤ 1024) "v dc.w 0 n ds.b 0x2" ⟨.bits32, .big, .int⟩ =
      .ok ⟨⟨.bits32, .big, .int⟩, target.fields, ⟨[0, 0, 0, 0]⟩⟩ := by decide +kernel
  have hresemble : Definition.Resemble "v dc.w 3 n ds.b 2" "v dc.w 0 n ds.b 0x2" := by
    have hwords : Triple.ofWords (Text.words "v dc.w 3 n ds.b 2".toList) =
        [⟨['v'], "dc.w".toList, ['3']⟩, ⟨['n'], "ds.b".toList, ['2']⟩] := by decide +kernel
    have hwords' : Triple.ofWords (Text.words "v dc.w 0 n ds.b 0x2".toList) =
        [⟨['v'], "dc.w".toList, ['0']⟩, ⟨['n'], "ds.b".toList, "0x2".toList⟩] := by
      decide +kernel
    rw [Definition.Resemble, hwords, hwords']
    exact .cons ⟨rfl, rfl, by decide +kernel⟩ (.cons ⟨rfl, rfl, by decide +kernel⟩ .nil)
  obtain ⟨-, -, hcopied, himage, hanswers⟩ := image_carries_state h h' hresemble
    [.setString "n" "HI"] [.setAt "n" 7 1]
  exact ⟨hresemble, himage ▸ hcopied, hanswers⟩

end Layout

end BinaryLayout
