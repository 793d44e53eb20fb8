import BinaryLayout.Layout.Operation
import BinaryLayout.Proofs.Layout.Accessors

/-!
# The faults of requests

When a request to a sound layout fails, and with which fault: a label must be declared, an element
must lie in the buffer, and an image must exist. There are no other faults, so what is not about a
label cannot fail but for the want of an image, and what is about a field as a whole fails only for
the want of the field.

## Main definitions

* `Layout.Operation.label?`, `Layout.Operation.element?`: what a request is about.
* `Layout.Refuses`: the faults of a request.

## Main results

* `Layout.perform_of_notMem`: a label that is not declared is refused.
* `Layout.Sound.perform_of_size_lt`: an element beyond the buffer is refused.
* `Layout.Sound.perform_eq_error_iff`: there are no other faults.
* `Layout.Sound.snd_perform_of_error`: a request that fails leaves the layout as it was.
-/

namespace BinaryLayout.Layout

namespace Operation

/-- The label of the field that a request is about, if it is about one. -/
def label? : Operation → Option String
  | field label | describe label _ | range label | offsetOf label | sizeOf label | get label
  | getAt label _ | set label _ | setAt label _ _ | getString label | getCString label
  | setString label _ => some label
  | size | config | fields | labels | bytes | setBytes _ | hexDump | display | saveImage
  | loadImage _ => none

/-- The label and the index of the element that a request is about, if it is about one. -/
def element? : Operation → Option (String × Nat)
  | getAt label index | setAt label _ index => some (label, index)
  | _ => none

end Operation

/-- A request is refused with a fault: its label is not declared, its element reaches beyond the
buffer, or its image cannot be read. -/
inductive Refuses (l : Layout) : Operation → OperationError → Prop
  | undefinedLabel {operation : Operation} {label : String} (hlabel : operation.label? = some label)
      (hnew : label ∉ l.labels) : Refuses l operation (.layout (.undefinedLabel label))
  | outOfBounds {operation : Operation} {f : Field} {index : Nat}
      (helement : operation.element? = some (f.label, index)) (hf : f ∈ l.fields)
      (hsize : l.size < f.address index + f.unit) :
      Refuses l operation (.layout (.outOfBounds f.label index))
  | file {image : File} {fault : FileError} (himage : image.bytes = .error fault) :
      Refuses l (.loadImage image) (.file fault)

variable {l : Layout} {operation : Operation} {f : Field} {label : String} {index : Nat}

/-- A label that is not declared is refused, whatever is asked about it. -/
theorem perform_of_notMem (hlabel : operation.label? = some label) (hnew : label ∉ l.labels) :
    l.perform operation = (.error (.layout (.undefinedLabel label)), l) := by
  have hfield := field_eq_error hnew
  cases operation <;> cases hlabel <;>
    simp only [perform, offsetOf, sizeOf, get, getAt, set, setAt, getString, getCString, setString,
      hfield, Except.map, reading, writing]

namespace Sound

variable (hl : l.Sound)

include hl

/-- An element beyond the buffer is refused. -/
theorem perform_of_size_lt (hf : f ∈ l.fields)
    (helement : operation.element? = some (f.label, index))
    (hsize : l.size < f.address index + f.unit) :
    l.perform operation = (.error (.layout (.outOfBounds f.label index)), l) := by
  cases operation <;> cases helement
  · simp only [Layout.perform, hl.getAt_eq hf, if_neg hsize.not_ge, reading]
  · simp only [Layout.perform, hl.setAt_eq hf, if_neg hsize.not_ge, Except.map, writing]

/-- A request that is refused fails with the fault and leaves the layout as it was. -/
theorem perform_of_refuses {fault : OperationError} (h : l.Refuses operation fault) :
    l.perform operation = (.error fault, l) := by
  cases h with
  | undefinedLabel hlabel hnew => exact perform_of_notMem hlabel hnew
  | outOfBounds helement hf hsize => exact hl.perform_of_size_lt hf helement hsize
  | file himage => simp only [Layout.perform, loadImage, himage]

/-- A request about a field is answered, unless it is about an element beyond the buffer. -/
theorem exists_answer_of_mem (hf : f ∈ l.fields) (hlabel : operation.label? = some f.label)
    (hfits : ∀ index, operation.element? = some (f.label, index) →
      f.address index + f.unit ≤ l.size) : ∃ answer, (l.perform operation).1 = .ok answer := by
  cases operation with
  | getAt label index =>
    cases hlabel
    simp only [Layout.perform, hl.getAt_eq hf, if_pos (hfits index rfl), reading]
    exact ⟨_, rfl⟩
  | setAt label value index =>
    cases hlabel
    simp only [Layout.perform, hl.setAt_eq hf, if_pos (hfits index rfl), Except.map, writing]
    exact ⟨_, rfl⟩
  | field | describe | range | offsetOf | sizeOf | get | set | getString | getCString
  | setString =>
    cases hlabel
    simp only [Layout.perform, offsetOf, sizeOf, hl.field_eq hf, hl.get_eq hf, hl.set_eq hf,
      hl.getString_eq hf, hl.getCString_eq hf, hl.setString_eq hf, Except.map, reading, writing]
    exact ⟨_, rfl⟩
  | size | config | fields | labels | bytes | setBytes | hexDump | display | saveImage
  | loadImage => cases hlabel

/-- A request that is about no label fails only if it is for an image that cannot be read. -/
theorem refuses_of_label?_eq_none {fault : OperationError} (hlabel : operation.label? = none)
    (h : (l.perform operation).1 = .error fault) : l.Refuses operation fault := by
  cases operation with
  | display =>
    simp only [Layout.perform, hl.display_eq, reading, reduceCtorEq] at h
  | loadImage image =>
    simp only [Layout.perform, loadImage] at h
    cases himage : image.bytes with
    | ok data => simp only [himage, reduceCtorEq] at h
    | error cause =>
      simp only [himage, Except.error.injEq] at h
      exact h ▸ .file himage
  | size | config | fields | labels | bytes | setBytes | hexDump | saveImage =>
    simp only [Layout.perform, reduceCtorEq] at h
  | field | describe | range | offsetOf | sizeOf | get | getAt | set | setAt | getString
  | getCString | setString => cases hlabel

/-- **The faults of a request.** A request to a sound layout fails exactly if its label is not
declared, its element reaches beyond the buffer, or its image cannot be read. -/
theorem perform_eq_error_iff {fault : OperationError} :
    (l.perform operation).1 = .error fault ↔ l.Refuses operation fault := by
  constructor
  · intro h
    cases hlabel : operation.label? with
    | none => exact hl.refuses_of_label?_eq_none hlabel h
    | some label =>
      rcases hl.field_cases label with ⟨f, hf, rfl, -⟩ | ⟨hnew, -⟩
      · by_contra hnot
        -- No fault is left but that of an element, which is answered if it fits.
        obtain ⟨answer, hanswer⟩ := hl.exists_answer_of_mem hf hlabel fun index helement => by
          by_contra hsize
          rw [hl.perform_of_size_lt hf helement (Nat.lt_of_not_le hsize)] at h
          exact hnot (Except.error.inj h ▸ .outOfBounds helement hf (Nat.lt_of_not_le hsize))
        rw [hanswer] at h
        cases h
      · rw [perform_of_notMem hlabel hnew] at h
        exact Except.error.inj h ▸ .undefinedLabel hlabel hnew
  · intro h
    rw [hl.perform_of_refuses h]

/-- A request that fails leaves the layout as it was. -/
theorem snd_perform_of_error {fault : OperationError} (h : (l.perform operation).1 = .error fault) :
    (l.perform operation).2 = l := by
  rw [hl.perform_of_refuses (hl.perform_eq_error_iff.mp h)]

end Sound

end BinaryLayout.Layout
