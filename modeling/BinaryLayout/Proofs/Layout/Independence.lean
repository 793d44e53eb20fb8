import BinaryLayout.Proofs.Layout.Gaps
import Mathlib.Data.List.Perm.Basic

/-!
# Independent writes

What a request writes is settled by the request, the fields and the byte order: the bytes that it
replaces and those that it puts in their place do not depend on what the buffer holds, and neither
does its answer. Requests with different targets replace ranges that do not meet. Such requests
commute, and a list of them leaves the same layout in every order.

## Main definitions

* `Layout.effect?`: the bytes that a write puts into the buffer, if it writes at all.
* `Layout.Operation.CanWrite`, `Layout.Operation.Independent`: the requests that write, and the
  pairs of them whose targets differ.

## Main results

* `Layout.Sound.snd_perform_eq_overwrite`: a write does what its effect says.
* `Layout.Sound.perform_comm`: two independent writes commute.
* `Layout.permuted_writes`: independent writes can be made in any order.
-/

namespace BinaryLayout.Layout

/-! ### Targets -/

namespace Operation

/-- Whether a request writes a value or a text under a label. -/
def isWrite : Operation → Bool
  | set _ _ | setAt _ _ _ | setString _ _ => true
  | _ => false

/-- A request can write: it is for the value of a constant, for an element inside its field, or for
a text of some characters in a field of some bytes. -/
def CanWrite (fields : List Field) : Operation → Prop
  | set label _ => ∃ f ∈ fields, f.label = label ∧ f.isConstant = true
  | setAt label _ index => ∃ f ∈ fields, f.label = label ∧ index < f.count
  | setString label text => ∃ f ∈ fields, f.label = label ∧ min text.length f.totalSize ≠ 0
  | _ => False

/-- Two requests have different targets: different labels, or different elements under one label.
The label is then that of a space, as a constant has no second element. -/
inductive Apart : Operation → Operation → Prop
  | label {a b : Operation} (h : a.label? ≠ b.label?) : Apart a b
  | index {label : String} {value value' : Int64} {i j : Nat} (h : i ≠ j) :
      Apart (setAt label value i) (setAt label value' j)

/-- If both requests can write, they have different targets. -/
def Independent (fields : List Field) (a b : Operation) : Prop :=
  a.CanWrite fields → b.CanWrite fields → a.Apart b

/-- A write is about a label. -/
theorem exists_label?_eq {operation : Operation} (h : operation.isWrite = true) :
    ∃ label, operation.label? = some label := by
  cases operation with
  | set label | setAt label | setString label => exact ⟨label, rfl⟩
  | _ => cases h

theorem Apart.symm {a b : Operation} (h : a.Apart b) : b.Apart a := by
  rcases h with h | h
  · exact .label h.symm
  · exact .index h.symm

theorem Independent.symm {fields : List Field} {a b : Operation} (h : Independent fields a b) :
    Independent fields b a :=
  fun hb ha => (h ha hb).symm

end Operation

/-! ### Effects -/

/-- Where a write replaces bytes of the buffer, and the new bytes; nothing if it writes nothing. -/
def effect? (l : Layout) : Operation → Option (Nat × List UInt8)
  | .set label value =>
    match l.field label with
    | .ok f =>
      if f.isConstant then
        some (f.address 0, Scalar.encode l.config.byteOrder f.unit value)
      else none
    | .error _ => none
  | .setAt label value index =>
    match l.field label with
    | .ok f =>
      if f.address index + f.unit ≤ l.size then
        some (f.address index, Scalar.encode l.config.byteOrder f.unit value)
      else none
    | .error _ => none
  | .setString label text =>
    match l.field label with
    | .ok f =>
      if min text.length f.totalSize = 0 then none
      else some (f.offset, paddedText text f.totalSize)
    | .error _ => none
  | _ => none

/-- The layout with the bytes of an effect in its buffer. -/
def overwrite (l : Layout) : Option (Nat × List UInt8) → Layout
  | some (start, new) => l.patch start new
  | none => l

variable {l l' : Layout} {operation a b : Operation}

theorem patch_comm {start start' : Nat} {new new' : List UInt8} (h : start + new.length ≤ l.size)
    (h' : start' + new'.length ≤ l.size)
    (hd : start + new.length ≤ start' ∨ start' + new'.length ≤ start) :
    (l.patch start new).patch start' new' = (l.patch start' new').patch start new :=
  congrArg (fun bytes => { l with buffer := ⟨bytes⟩ }) (Buffer.patched_comm h h' hd)

/-- Two layouts have the same configuration, fields and size, whatever their bytes. -/
structure SameShape (l l' : Layout) : Prop where
  config_eq : l'.config = l.config
  fields_eq : l'.fields = l.fields
  size_eq : l'.size = l.size

theorem sameShape_perform (l : Layout) (operation : Operation) :
    SameShape l (l.perform operation).2 :=
  ⟨config_perform l operation, fields_perform l operation, size_perform l operation⟩

theorem SameShape.field_eq (h : SameShape l l') (label : String) :
    l'.field label = l.field label := by
  rw [field, field, h.fields_eq]

/-- An effect does not depend on the bytes of the buffer. -/
theorem SameShape.effect?_eq (h : SameShape l l') (operation : Operation) :
    l'.effect? operation = l.effect? operation := by
  cases operation <;> simp only [effect?, h.field_eq, h.config_eq, h.size_eq]

theorem effect?_of_notMem {label : String} (hlabel : operation.label? = some label)
    (hnew : label ∉ l.labels) : l.effect? operation = none := by
  have hfield := field_eq_error hnew
  cases operation <;> cases hlabel <;> simp only [effect?, hfield]

/-- A request is a write that does not leave its field, unless it fails. -/
structure Confined (l : Layout) (operation : Operation) : Prop where
  isWrite : operation.isWrite = true
  writesInFields : WritesInFields l.fields operation (l.perform operation)

namespace Sound

variable (hl : l.Sound)

include hl

/-- **The effect of a write** is all that it does to the layout. -/
theorem snd_perform_eq_overwrite (hwrite : operation.isWrite = true) :
    (l.perform operation).2 = l.overwrite (l.effect? operation) := by
  obtain ⟨label, hlabel⟩ := Operation.exists_label?_eq hwrite
  rcases hl.field_cases label with ⟨f, hf, rfl, hfield⟩ | ⟨hnew, -⟩
  · cases operation <;> cases hwrite <;> cases hlabel
    · simp only [Layout.perform, hl.set_eq hf, Except.map, writing, effect?, hfield]
      split_ifs <;> rfl
    · simp only [Layout.perform, hl.setAt_eq hf, effect?, hfield]
      split_ifs <;> rfl
    · simp only [Layout.perform, hl.setString_eq hf, Except.map, writing, effect?, hfield]
      split_ifs <;> rfl
  · rw [perform_of_notMem hlabel hnew, effect?_of_notMem hlabel hnew, overwrite]

/-- The answer to a write does not depend on the bytes of the buffer. -/
theorem fst_perform_eq_of_sameShape (hl' : l'.Sound) (h : SameShape l l')
    (hwrite : operation.isWrite = true) : (l'.perform operation).1 = (l.perform operation).1 := by
  obtain ⟨label, hlabel⟩ := Operation.exists_label?_eq hwrite
  rcases hl.field_cases label with ⟨f, hf, rfl, -⟩ | ⟨hnew, -⟩
  · have hf' : f ∈ l'.fields := h.fields_eq.symm ▸ hf
    cases operation <;> cases hwrite <;> cases hlabel
    · simp only [Layout.perform, hl.set_eq hf, hl'.set_eq hf', Except.map, writing]
    · simp only [Layout.perform, hl.setAt_eq hf, hl'.setAt_eq hf', h.size_eq]
      split_ifs <;> rfl
    · simp only [Layout.perform, hl.setString_eq hf, hl'.setString_eq hf', Except.map, writing]
  · have hnew' : label ∉ l'.labels := by rwa [labels, h.fields_eq]
    rw [perform_of_notMem hlabel hnew, perform_of_notMem hlabel hnew']

theorem fst_perform_perform (hwrite : operation.isWrite = true) (a : Operation) :
    ((l.perform a).2.perform operation).1 = (l.perform operation).1 :=
  hl.fst_perform_eq_of_sameShape (hl.perform a) (sameShape_perform l a) hwrite

/-- A write that is confined stays so, whatever is requested before it. -/
theorem confined_perform (h : l.Confined operation) (a : Operation) :
    (l.perform a).2.Confined operation := by
  refine ⟨h.isWrite, ?_⟩
  have hanswer := hl.fst_perform_perform h.isWrite a
  have hwrites := h.writesInFields
  rw [fields_perform]
  cases operation with
  | setAt => exact hwrites.imp_right fun hfault => hanswer.symm ▸ hfault
  | _ => exact hwrites

/-! ### Ranges -/

/-- The effect of a confined write lies in the field of its label. -/
theorem exists_field_of_effect? (h : l.Confined operation) {start : Nat} {new : List UInt8}
    (heffect : l.effect? operation = some (start, new)) :
    ∃ f ∈ l.fields, operation.label? = some f.label ∧ operation.CanWrite l.fields ∧
      f.offset ≤ start ∧ start + new.length ≤ f.stop := by
  obtain ⟨hwrite, hwrites⟩ := h
  obtain ⟨label, hlabel⟩ := Operation.exists_label?_eq hwrite
  rcases hl.field_cases label with ⟨f, hf, rfl, hfield⟩ | ⟨hnew, -⟩
  · refine ⟨f, hf, hlabel, ?_⟩
    cases operation <;> cases hwrite <;> cases hlabel
    · simp only [effect?, hfield] at heffect
      split_ifs at heffect with hc
      cases heffect
      rw [Scalar.length_encode]
      exact ⟨⟨f, hf, rfl, hc⟩, f.offset_le_address 0, Field.address_add_unit_le (zero_lt_count hc)⟩
    · simp only [effect?, hfield] at heffect
      split_ifs at heffect with hfits
      cases heffect
      rcases hwrites with ⟨g, hg, hlabel, hindex⟩ | ⟨fault, hfault⟩
      · rw [hl.eq_of_label_eq hf hg hlabel] at hindex
        rw [Scalar.length_encode]
        exact ⟨⟨f, hf, rfl, hindex⟩, f.offset_le_address _, Field.address_add_unit_le hindex⟩
      · rw [hl.perform_setAt hf _ hfits] at hfault
        cases hfault
    · simp only [effect?, hfield] at heffect
      split_ifs at heffect with hcopied
      cases heffect
      rw [length_paddedText]
      exact ⟨⟨f, hf, rfl, hcopied⟩, le_rfl, le_rfl⟩
  · rw [effect?_of_notMem hlabel hnew] at heffect
    cases heffect

/-- The effect of a request for an element replaces the bytes of the element. -/
theorem effect?_setAt_eq_some {f : Field} (hf : f ∈ l.fields) {value : Int64} {index start : Nat}
    {new : List UInt8} (h : l.effect? (.setAt f.label value index) = some (start, new)) :
    start = f.address index ∧ new.length = f.unit := by
  simp only [effect?, hl.field_eq hf] at h
  split_ifs at h
  cases h
  exact ⟨rfl, Scalar.length_encode ..⟩

/-- **Exact footprints.** The effects of independent writes replace ranges that do not meet. -/
theorem effect?_disjoint (ha : l.Confined a) (hb : l.Confined b)
    (h : Operation.Independent l.fields a b) {start start' : Nat} {new new' : List UInt8}
    (hea : l.effect? a = some (start, new)) (heb : l.effect? b = some (start', new')) :
    start + new.length ≤ start' ∨ start' + new'.length ≤ start := by
  obtain ⟨f, hf, hlabel, hcan, hle, hstop⟩ := hl.exists_field_of_effect? ha hea
  obtain ⟨g, hg, hlabel', hcan', hle', hstop'⟩ := hl.exists_field_of_effect? hb heb
  rcases hl.eq_or_disjoint hf hg with rfl | hfg | hgf
  · -- In one field the two can only be different elements.
    rcases h hcan hcan' with hne | hij
    · exact absurd (hlabel.trans hlabel'.symm) hne
    · cases hlabel
      obtain ⟨rfl, hlength⟩ := hl.effect?_setAt_eq_some hf hea
      obtain ⟨rfl, hlength'⟩ := hl.effect?_setAt_eq_some hf heb
      rw [hlength, hlength']
      exact (Nat.lt_or_gt_of_ne hij).imp Field.address_add_unit_le_address
        Field.address_add_unit_le_address
  · exact Or.inl (by omega)
  · exact Or.inr (by omega)

/-! ### Orders -/

/-- **Two independent writes** leave the same layout in either order. -/
theorem perform_comm (ha : l.Confined a) (hb : l.Confined b)
    (h : Operation.Independent l.fields a b) :
    ((l.perform a).2.perform b).2 = ((l.perform b).2.perform a).2 := by
  rw [(hl.perform a).snd_perform_eq_overwrite hb.isWrite, (sameShape_perform l a).effect?_eq,
    (hl.perform b).snd_perform_eq_overwrite ha.isWrite, (sameShape_perform l b).effect?_eq,
    hl.snd_perform_eq_overwrite ha.isWrite, hl.snd_perform_eq_overwrite hb.isWrite]
  cases hea : l.effect? a with
  | none => rfl
  | some p =>
    cases heb : l.effect? b with
    | none => rfl
    | some q =>
      obtain ⟨f, hf, -, -, -, hstop⟩ := hl.exists_field_of_effect? ha hea
      obtain ⟨g, hg, -, -, -, hstop'⟩ := hl.exists_field_of_effect? hb heb
      exact patch_comm (hstop.trans (hl.stop_le_size hf)) (hstop'.trans (hl.stop_le_size hg))
        (hl.effect?_disjoint ha hb h hea heb)

/-- Independent writes leave the same layout in every order. -/
theorem run_eq_of_perm {operations operations' : List Operation}
    (hperm : operations.Perm operations') (hconfined : ∀ a ∈ operations, l.Confined a)
    (hpair : operations.Pairwise (Operation.Independent l.fields)) :
    l.run operations' = l.run operations := by
  induction hperm generalizing l with
  | nil => rfl
  | @cons a operations operations' hperm ih =>
    obtain ⟨-, hconfined⟩ := List.forall_mem_cons.mp hconfined
    obtain ⟨-, hpair⟩ := List.pairwise_cons.mp hpair
    refine ih (hl.perform a) (fun b hb => hl.confined_perform (hconfined b hb) a) ?_
    rwa [fields_perform]
  | swap a b operations =>
    obtain ⟨hb, hconfined⟩ := List.forall_mem_cons.mp hconfined
    obtain ⟨ha, -⟩ := List.forall_mem_cons.mp hconfined
    have hba := (List.pairwise_cons.mp hpair).1 a List.mem_cons_self
    simp only [run_cons, hl.perform_comm hb ha hba]
  | trans hperm _ ih ih' =>
    rw [← ih hl hconfined hpair]
    refine ih' hl (fun a ha => hconfined a (hperm.mem_iff.mpr ha)) ?_
    exact (hperm.pairwise_iff Operation.Independent.symm).mp hpair

/-- In a list of writes each is answered as it would be alone. -/
theorem map_fst_transcript {operations : List Operation}
    (hwrite : ∀ a ∈ operations, a.isWrite = true) :
    (l.transcript operations).map Prod.fst = operations.map fun a => (l.perform a).1 := by
  induction operations generalizing l with
  | nil => rfl
  | cons a operations ih =>
    obtain ⟨-, hwrite⟩ := List.forall_mem_cons.mp hwrite
    rw [transcript, List.map_cons, List.map_cons, ih (hl.perform a) hwrite]
    congr 1
    exact List.map_congr_left fun b hb => hl.fst_perform_perform (hwrite b hb) a

end Sound

/-- **Independent writes.** Take a list of writes to a reachable layout, none of which leaves its
field unless it fails, and any two of which that can write have different targets. In every order
they leave the same layout, and each is answered as it would be alone, wherever it stands. -/
theorem permuted_writes (hl : l.Reachable) {operations operations' : List Operation}
    (hconfined : ∀ a ∈ operations, l.Confined a)
    (hpair : operations.Pairwise (Operation.Independent l.fields))
    (hperm : operations.Perm operations') :
    l.run operations' = l.run operations ∧
      (l.transcript operations').map Prod.fst = operations'.map fun a => (l.perform a).1 :=
  ⟨hl.sound.run_eq_of_perm hperm hconfined hpair,
    hl.sound.map_fst_transcript fun a ha => (hconfined a (hperm.mem_iff.mpr ha)).isWrite⟩

/-- A text for a space without bytes at the address of a word, two stores into different elements,
one of them beyond the buffer, and a store into the word: the reverse order leaves the same. -/
theorem permuted_writes_around_empty_space :
    let z : Field := ⟨"z", .space, 4, 0, 0⟩
    let w : Field := ⟨"w", .constant, 2, 0, 1⟩
    let s : Field := ⟨"s", .space, 2, 2, 2⟩
    let l : Layout := ⟨⟨.bits32, .big, .none⟩, [z, w, s], ⟨[0, 1, 0, 0, 0, 0]⟩⟩
    let operations : List Operation :=
      [.setString "z" "text", .setAt "s" (-2) 1, .set "w" 770, .setAt "s" 5 9, .setAt "s" 5 0]
    l.Reachable ∧ (∀ a ∈ operations, l.Confined a) ∧
      operations.Pairwise (Operation.Independent l.fields) ∧
      l.run operations.reverse = l.run operations ∧
      (l.transcript operations.reverse).map Prod.fst =
        operations.reverse.map fun a => (l.perform a).1 := by
  intro z w s l operations
  have hbuilt : build (· ≤ 1024) "z ds.l 0 w dc.w 1 s ds.w 2"
      ⟨.bits32, .big, .none⟩ = .ok l := by decide +kernel
  have hl : l.Reachable := ⟨_, _, _, l, [], hbuilt, rfl⟩
  have hconfined : ∀ a ∈ operations, l.Confined a := by
    have hs (i : Nat) (hi : i < 2) : ∃ f ∈ l.fields, f.label = "s" ∧ i < f.count :=
      ⟨s, by simp [l], rfl, hi⟩
    simp only [operations, List.forall_mem_cons, List.not_mem_nil, false_imp_iff, implies_true,
      and_true]
    exact ⟨⟨rfl, trivial⟩, ⟨rfl, Or.inl (hs 1 (by decide))⟩, ⟨rfl, trivial⟩,
      ⟨rfl, Or.inr ⟨.layout (.outOfBounds "s" 9), by decide +kernel⟩⟩,
      ⟨rfl, Or.inl (hs 0 (by decide))⟩⟩
  have hpair : operations.Pairwise (Operation.Independent l.fields) := by
    have hlabel {a b : Operation} (h : a.label? ≠ b.label?) :
        Operation.Independent l.fields a b := fun _ _ => .label h
    have hindex {i j : Nat} (v w : Int64) (h : i ≠ j) :
        Operation.Independent l.fields (.setAt "s" v i) (.setAt "s" w j) := fun _ _ => .index h
    simp only [operations, List.pairwise_cons, List.forall_mem_cons, List.not_mem_nil,
      false_imp_iff, implies_true, and_true, List.Pairwise.nil]
    exact ⟨⟨hlabel (by decide), hlabel (by decide), hlabel (by decide), hlabel (by decide)⟩,
      ⟨hlabel (by decide), hindex _ _ (by decide), hindex _ _ (by decide)⟩,
      ⟨hlabel (by decide), hlabel (by decide)⟩, hindex _ _ (by decide)⟩
  exact ⟨hl, hconfined, hpair,
    permuted_writes hl hconfined hpair (List.reverse_perm operations).symm⟩

end BinaryLayout.Layout
