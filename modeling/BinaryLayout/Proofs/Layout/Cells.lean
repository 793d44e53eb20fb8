import BinaryLayout.Proofs.Layout.InitialImage
import BinaryLayout.Proofs.Layout.Run
import BinaryLayout.Proofs.Scalar.Codec
import Mathlib.Data.List.Forall2
import Mathlib.Logic.Function.Basic

/-!
# A layout as a store of independent cells

Seen through its scalar accessors, a layout is a store that has a cell for each element of each
field. A cell holds a number modulo the power of two that belongs to its bytes, no call reaches more
than one cell, and neither the byte order nor the padding can be told. The abstract store knows no
buffer at all; the layout refines it along every sequence of calls on elements of its fields.

## Main definitions

* `Cell`, `Store`: the cells of a list of fields, and a value for each of them.
* `CellCall`: a call of a scalar accessor that stays within its field.
* `Store.perform`, `Store.transcript`: how the store answers.
* `Store.HeldBy`: the bytes of a buffer hold the values of a store.

## Main results

* `CellCall.exists_operation_eq_iff`: which requests to the layout the calls are.
* `Layout.perform_heldBy`: one call keeps a layout and a store in step.
* `Layout.transcript_refines_store`: so does every sequence of calls, from the construction on.
-/

namespace BinaryLayout

/-! ### The store -/

/-- A cell of the store: an element of a field. -/
structure Cell (fields : List Field) where
  field : Field
  index : Nat
  mem : field ∈ fields
  index_lt : index < field.count
  deriving DecidableEq

namespace Cell

variable {fields : List Field}

/-- The cell of a constant. -/
def ofConstant {f : Field} (hf : f ∈ fields) (hc : f.isConstant = true) : Cell fields :=
  ⟨f, 0, hf, Layout.zero_lt_count hc⟩

/-- The number of values that the cell can hold. -/
def modulus (c : Cell fields) : Nat := 2 ^ (8 * c.field.unit)

theorem modulus_pos (c : Cell fields) : 0 < c.modulus := Nat.two_pow_pos _

/-- A value modulo the number of values that the cell can hold. -/
def reduce (c : Cell fields) (value : Int64) : Fin c.modulus :=
  ⟨(value.toInt % c.modulus).toNat, by
    have hpos : (0 : Int) < c.modulus := by exact_mod_cast c.modulus_pos
    have := Int.emod_nonneg value.toInt hpos.ne'
    have := Int.emod_lt_of_pos value.toInt hpos
    omega⟩

theorem val_reduce (c : Cell fields) (value : Int64) :
    (c.reduce value).val = (value.toInt % 2 ^ (8 * c.field.unit)).toNat := by
  change (value.toInt % ((2 ^ (8 * c.field.unit) : Nat) : Int)).toNat = _
  push_cast
  rfl

end Cell

/-- A value for each cell. -/
def Store (fields : List Field) : Type := (c : Cell fields) → Fin c.modulus

/-- A call of a scalar accessor on a field, at an index of the field where it has one. -/
inductive CellCall (fields : List Field)
  | get (f : Field) (hf : f ∈ fields)
  | set (f : Field) (hf : f ∈ fields) (value : Int64)
  | getAt (c : Cell fields)
  | setAt (c : Cell fields) (value : Int64)

/-- The request to the layout. -/
def CellCall.operation {fields : List Field} : CellCall fields → Layout.Operation
  | get f _ => .get f.label
  | set f _ value => .set f.label value
  | getAt c => .getAt c.field.label c.index
  | setAt c value => .setAt c.field.label value c.index

/-- A request of a scalar accessor for an element inside a field. -/
def Layout.Operation.InField (fields : List Field) : Operation → Prop
  | .get label | .set label _ => ∃ f ∈ fields, f.label = label
  | .getAt label index | .setAt label _ index => ∃ f ∈ fields, f.label = label ∧ index < f.count
  | _ => False

/-- The calls are the requests for elements inside the fields. -/
theorem CellCall.exists_operation_eq_iff {fields : List Field} {operation : Layout.Operation} :
    (∃ call : CellCall fields, call.operation = operation) ↔ operation.InField fields := by
  constructor
  · rintro ⟨⟨f, hf⟩ | ⟨f, hf, value⟩ | c | ⟨c, value⟩, rfl⟩
    · exact ⟨f, hf, rfl⟩
    · exact ⟨f, hf, rfl⟩
    · exact ⟨c.field, c.mem, rfl, c.index_lt⟩
    · exact ⟨c.field, c.mem, rfl, c.index_lt⟩
  · intro h
    cases operation with
    | get label =>
      obtain ⟨f, hf, rfl⟩ := h
      exact ⟨.get f hf, rfl⟩
    | set label value =>
      obtain ⟨f, hf, rfl⟩ := h
      exact ⟨.set f hf value, rfl⟩
    | getAt label index =>
      obtain ⟨f, hf, rfl, hindex⟩ := h
      exact ⟨.getAt ⟨f, index, hf, hindex⟩, rfl⟩
    | setAt label value index =>
      obtain ⟨f, hf, rfl, hindex⟩ := h
      exact ⟨.setAt ⟨f, index, hf, hindex⟩ value, rfl⟩
    | _ => exact h.elim

namespace Store

variable {fields : List Field}

/-- A constant's cell begins with its declared value, and every other cell with zero. -/
def initial (fields : List Field) : Store fields := fun c =>
  if c.field.isConstant then c.reduce c.field.datum else ⟨0, c.modulus_pos⟩

/-- The integer that a cell shows. -/
def read (s : Store fields) (c : Cell fields) : Int := Scalar.shown c.field.unit (s c)

/-- The store with a value in one cell. -/
def write (s : Store fields) (c : Cell fields) (value : Int64) : Store fields :=
  Function.update s c (c.reduce value)

@[simp] theorem write_self (s : Store fields) (c : Cell fields) (value : Int64) :
    s.write c value c = c.reduce value :=
  Function.update_self ..

theorem write_of_ne (s : Store fields) {c c' : Cell fields} (h : c' ≠ c) (value : Int64) :
    s.write c value c' = s c' :=
  Function.update_of_ne h ..

/-- The integer that a call returns, if it returns one, and the store that it leaves. -/
def perform (s : Store fields) : CellCall fields → Option Int × Store fields
  | .get f hf => (some (if hc : f.isConstant then s.read (.ofConstant hf hc) else 0), s)
  | .set f hf value => (none, if hc : f.isConstant then s.write (.ofConstant hf hc) value else s)
  | .getAt c => (some (s.read c), s)
  | .setAt c value => (none, s.write c value)

/-- The outcomes of a sequence of calls. -/
def transcript (s : Store fields) : List (CellCall fields) → List (Option Int × Store fields)
  | [] => []
  | call :: calls => s.perform call :: transcript (s.perform call).2 calls

/-- The bytes of a buffer hold the values of the store, each in its element's range. -/
def HeldBy (s : Store fields) (order : ByteOrder) (bytes : List UInt8) : Prop :=
  ∀ c, Scalar.natural (Scalar.arrange order (c.field.element bytes c.index)) = (s c).val

end Store

/-- The layout's answer is the integer that the store returns, or none where it returns none. -/
def Layout.Answer.Shows : Layout.Answer → Option Int → Prop
  | .value v, some i => v.toInt = i
  | .done, none => True
  | _, _ => False

namespace Layout

variable {l : Layout} {f : Field}

/-! ### One call -/

/-- A cell's value is shown by decoding its bytes. -/
theorem toInt_decode_element (hl : l.Sound) {s : Store l.fields}
    (hs : s.HeldBy l.config.byteOrder l.bytes) (c : Cell l.fields) :
    (Scalar.decode l.config.byteOrder (c.field.element l.bytes c.index)).toInt = s.read c := by
  rw [Scalar.toInt_decode, hl.length_element c.mem c.index_lt, hs c, Store.read]

/-- Storing a value in an element changes the element's cell and no other. -/
theorem heldBy_patch (hl : l.Sound) {s : Store l.fields}
    (hs : s.HeldBy l.config.byteOrder l.bytes) (c : Cell l.fields) (value : Int64) :
    (s.write c value).HeldBy l.config.byteOrder
      (l.patch (c.field.address c.index)
        (Scalar.encode l.config.byteOrder c.field.unit value)).bytes := by
  have hnew := Scalar.length_encode l.config.byteOrder c.field.unit value
  intro c'
  rw [bytes_patch]
  by_cases h : c' = c
  · subst h
    rw [hl.element_patched_self c'.mem c'.index_lt hnew, Scalar.natural_arrange_encode,
      Store.write_self, Cell.val_reduce]
  · rw [hl.element_patched_of_ne c.mem c'.mem c.index_lt c'.index_lt hnew,
      Store.write_of_ne s h]
    · exact hs c'
    · rintro ⟨hfield, hindex⟩
      obtain ⟨g, j, hg, hj⟩ := c'
      obtain ⟨f, i, hf, hi⟩ := c
      cases hfield
      cases hindex
      exact h rfl

/-- **One call.** A layout that holds a store answers as the store does, and holds the store that is
left. -/
theorem perform_heldBy (hl : l.Sound) {s : Store l.fields}
    (hs : s.HeldBy l.config.byteOrder l.bytes) (call : CellCall l.fields) :
    (∃ answer, (l.perform call.operation).1 = .ok answer ∧ answer.Shows (s.perform call).1) ∧
      (s.perform call).2.HeldBy l.config.byteOrder (l.perform call.operation).2.bytes := by
  cases call with
  | get f hf =>
    simp only [CellCall.operation, perform, get, hl.field_eq hf]
    split_ifs with hc
    · rw [hl.valueAt_eq hf (zero_lt_count hc)]
      refine ⟨⟨_, rfl, ?_⟩, hs⟩
      simp only [Store.perform, dif_pos hc]
      exact toInt_decode_element hl hs (.ofConstant hf hc)
    · refine ⟨⟨_, rfl, ?_⟩, hs⟩
      simp only [Store.perform, dif_neg hc]
      rfl
  | set f hf value =>
    simp only [CellCall.operation, perform, set, hl.field_eq hf]
    split_ifs with hc
    · rw [hl.storeAt_eq hf (zero_lt_count hc)]
      refine ⟨⟨_, rfl, trivial⟩, ?_⟩
      simp only [Store.perform, dif_pos hc]
      exact heldBy_patch hl hs (.ofConstant hf hc) value
    · refine ⟨⟨_, rfl, trivial⟩, ?_⟩
      simp only [Store.perform, dif_neg hc]
      exact hs
  | getAt c =>
    simp only [CellCall.operation, perform, getAt, hl.field_eq c.mem,
      hl.valueAt_eq c.mem c.index_lt]
    exact ⟨⟨_, rfl, toInt_decode_element hl hs c⟩, hs⟩
  | setAt c value =>
    simp only [CellCall.operation, perform, setAt, hl.field_eq c.mem,
      hl.storeAt_eq c.mem c.index_lt]
    exact ⟨⟨_, rfl, trivial⟩, heldBy_patch hl hs c value⟩

/-! ### Sequences of calls -/

/-- A call that a layout serves agrees with the store: it has the same result, and it leaves bytes
that hold the values of the store that is left. -/
def Agrees {fields : List Field} (order : ByteOrder)
    (outcome : Except OperationError Answer × Layout) (result : Option Int × Store fields) : Prop :=
  (∃ answer, outcome.1 = .ok answer ∧ answer.Shows result.1) ∧
    result.2.HeldBy order outcome.2.bytes

theorem forall₂_agrees_transcript {fields : List Field} {order : ByteOrder}
    (calls : List (CellCall fields)) (hl : l.Sound) (hfields : l.fields = fields)
    (horder : l.config.byteOrder = order) {s : Store fields} (hs : s.HeldBy order l.bytes) :
    List.Forall₂ (Agrees order) (l.transcript (calls.map CellCall.operation))
      (s.transcript calls) := by
  induction calls generalizing l s with
  | nil => exact .nil
  | cons call calls ih =>
    subst hfields horder
    have hstep := perform_heldBy hl hs call
    refine .cons hstep (ih (hl.perform _) (fields_perform l _) ?_ hstep.2)
    rw [config_perform]

variable {granted : Nat → Bool} {text : String} {config : Config} {d : Definition}

/-- The initial image holds the initial values. -/
theorem heldBy_initial (hp : Definition.Placed config.padding 0 d.fields d.totalSize)
    (hlabels : (d.fields.map Field.label).Nodup) :
    (Store.initial d.fields).HeldBy config.byteOrder (initial config d).bytes := by
  rintro ⟨f, i, hf, hi⟩
  by_cases hc : f.isConstant = true
  · obtain rfl := eq_zero_of_isConstant hc hi
    rw [element_initial hp hf hc, Scalar.natural_arrange_encode, Store.initial, if_pos hc,
      Cell.val_reduce]
  · rw [element_initial_space hp hlabels hf (Bool.eq_false_iff.mpr hc) hi,
      Scalar.natural_arrange_replicate, Store.initial, if_neg hc]

/-- **Refinement.** Every layout that is built holds the initial store, and along every sequence of
calls on elements of its fields it agrees with the store: no call fails, each returns what the store
returns, and the buffer holds the store's values all along. -/
theorem transcript_refines_store (h : build granted text config = .ok l)
    (calls : List (CellCall l.fields)) :
    (Store.initial l.fields).HeldBy config.byteOrder l.bytes ∧
      List.Forall₂ (Agrees config.byteOrder) (l.transcript (calls.map CellCall.operation))
        ((Store.initial l.fields).transcript calls) := by
  have hl := sound_of_build h
  obtain ⟨d, hparse, rfl⟩ := exists_of_build h
  have hinit : (Store.initial d.fields).HeldBy config.byteOrder (initial config d).bytes :=
    heldBy_initial (Definition.placed_of_parse hparse) (Definition.nodup_labels_of_parse hparse)
  exact ⟨hinit, forall₂_agrees_transcript calls hl rfl rfl hinit⟩

/-- A byte that is declared too large and two words behind it: a store into the second word, then a
look at both fields. -/
theorem refines_byte_words :
    let a : Field := ⟨"a", .constant, 1, 0, 300⟩
    let s : Field := ⟨"s", .space, 2, 1, 2⟩
    let l : Layout := ⟨⟨.bits16, .big, .none⟩, [a, s], ⟨[44, 0, 0, 0, 0]⟩⟩
    build (· ≤ 1024) "a dc.b 300 s ds.w 2" ⟨.bits16, .big, .none⟩ = .ok l ∧
      List.Forall₂ (Agrees .big)
        (l.transcript [.setAt "s" (-2) 1, .get "a", .getAt "s" 1])
        ((Store.initial [a, s]).transcript [.setAt ⟨s, 1, by simp, by decide⟩ (-2),
          .get a (by simp), .getAt ⟨s, 1, by simp, by decide⟩]) := by
  intro a s l
  have h : build (· ≤ 1024) "a dc.b 300 s ds.w 2" ⟨.bits16, .big, .none⟩ =
      .ok l := by
    decide +kernel
  exact ⟨h, (transcript_refines_store h [.setAt ⟨s, 1, by simp [l], by decide⟩ (-2),
    .get a (by simp [l]), .getAt ⟨s, 1, by simp [l], by decide⟩]).2⟩

end Layout

end BinaryLayout
