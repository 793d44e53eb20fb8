import BinaryLayout.Layout.Basic
import BinaryLayout.Proofs.Buffer.Slice
import BinaryLayout.Proofs.Definition.Placement

/-!
# Elements of sound layouts

A layout is sound when its fields follow one another from the beginning of the buffer to its end
and no two labels are equal. Every layout that is built is sound, and whatever replaces bytes of
the buffer keeps it sound. In a sound layout the address computation of an element, which watches
for overflow at each step, decides by one exact comparison, and distinct elements do not overlap.

## Main definitions

* `Layout.Sound`: the invariant.
* `Field.address`, `Field.element`: where an element stands, and its bytes.

## Main results

* `Layout.element_eq`, `Layout.valueAt_eq`, `Layout.storeAt_eq`: access to an element succeeds
  exactly when the element lies in the buffer.
* `Layout.Sound.address_disjoint`: distinct elements do not overlap.
* `Layout.Sound.element_patched_self`, `Layout.Sound.element_patched_of_ne`: what replacing the
  bytes of an element does to the elements.
-/

namespace BinaryLayout

/-! ### The place of an element -/

namespace Field

/-- Where an element starts, with no bound on addresses. -/
def address (f : Field) (index : Nat) : Nat := f.offset + index * f.unit

/-- The bytes of an element. -/
def element (f : Field) (bytes : List UInt8) (index : Nat) : List UInt8 :=
  Buffer.slice bytes (f.address index) f.unit

theorem offset_le_address (f : Field) (index : Nat) : f.offset ≤ f.address index :=
  Nat.le_add_right _ _

/-- The elements of a field lie in the field. -/
theorem address_add_unit_le {f : Field} {i : Nat} (hi : i < f.count) :
    f.address i + f.unit ≤ f.stop := by
  have hle : f.unit * (i + 1) ≤ f.unit * f.count := Nat.mul_le_mul_left f.unit hi
  rw [Nat.mul_succ, Nat.mul_comm] at hle
  simp only [address, stop, totalSize]
  omega

/-- An element ends before any later one of the same field starts. -/
theorem address_add_unit_le_address {f : Field} {i j : Nat} (hij : i < j) :
    f.address i + f.unit ≤ f.address j := by
  have hle : (i + 1) * f.unit ≤ j * f.unit := Nat.mul_le_mul_right f.unit hij
  rw [Nat.succ_mul] at hle
  simp only [address]
  omega

end Field

namespace Layout

variable {l : Layout} {f g : Field} {i j index : Nat}

/-! ### Access to an element -/

/-- An address that cannot be computed is beyond every buffer. -/
theorem address?_eq_or (f : Field) (index : Nat) : address? f index = some (f.address index) ∨
    address? f index = none ∧ Word.count64 ≤ f.address index := by
  rw [address?, Field.address, Nat.add_comm]
  rcases Nat.lt_or_ge (index * f.unit) Word.count64 with hmul | hmul
  · rcases Nat.lt_or_ge (index * f.unit + f.offset) Word.count64 with hadd | hadd
    · exact Or.inl (by simp only [Word.mul?, Word.add?, if_pos hmul, if_pos hadd, Option.bind_some])
    · refine Or.inr ⟨?_, hadd⟩
      simp only [Word.mul?, Word.add?, if_pos hmul, if_neg hadd.not_gt, Option.bind_some]
  · refine Or.inr ⟨?_, hmul.trans (Nat.le_add_right _ _)⟩
    simp only [Word.mul?, if_neg hmul.not_gt, Option.bind_none]

/-- **Bounds of an element.** The steps that watch for overflow decide together whether the whole
element lies in the buffer. -/
theorem element_eq (hl : l.size < Word.count64) (f : Field) (index : Nat) :
    l.element f index =
      if f.address index + f.unit ≤ l.size then .ok (f.address index)
      else .error (.outOfBounds f.label index) := by
  rcases address?_eq_or f index with ha | ⟨ha, hlarge⟩
  · split_ifs with h
    · simp only [element, ha, Buffer.read_eq h hl]
    · obtain ⟨fault, hfault⟩ := Buffer.exists_stop_eq_error (b := l.buffer) h
      simp only [element, ha, Buffer.read, hfault]
  · rw [if_neg (by omega)]
    simp only [element, ha]

theorem valueAt_eq (hl : l.size < Word.count64) (f : Field) (index : Nat) :
    l.valueAt f index =
      if f.address index + f.unit ≤ l.size then
        .ok (Scalar.decode l.config.byteOrder (f.element l.bytes index))
      else .error (.outOfBounds f.label index) := by
  rw [valueAt, element_eq hl]
  split_ifs with h
  · simp only [readRange, Buffer.read_eq h hl]
    rfl
  · rfl

/-- The layout with bytes of its buffer replaced. -/
def patch (l : Layout) (start : Nat) (new : List UInt8) : Layout :=
  { l with buffer := ⟨Buffer.patched l.bytes start new⟩ }

@[simp] theorem bytes_patch (l : Layout) (start : Nat) (new : List UInt8) :
    (l.patch start new).bytes = Buffer.patched l.bytes start new := rfl

theorem size_patch {start : Nat} {new : List UInt8} (h : start + new.length ≤ l.size) :
    (l.patch start new).size = l.size :=
  Buffer.length_patched h

theorem storeAt_eq (hl : l.size < Word.count64) (f : Field) (value : Int64) (index : Nat) :
    l.storeAt f value index =
      if f.address index + f.unit ≤ l.size then
        .ok (l.patch (f.address index) (Scalar.encode l.config.byteOrder f.unit value))
      else .error (.outOfBounds f.label index) := by
  rw [storeAt, element_eq hl]
  split_ifs with h
  · have hwrite : f.address index + (Scalar.encode l.config.byteOrder f.unit value).length ≤
        l.buffer.size := by rwa [Scalar.length_encode]
    simp only [writeRange, Buffer.write_eq hwrite hl]
    rfl
  · rfl

/-! ### Sound layouts -/

/-- What is found under a label is a field with that label. -/
theorem mem_of_field_eq_ok {label : String} (h : l.field label = .ok f) :
    f ∈ l.fields ∧ f.label = label := by
  rw [field] at h
  cases hfind : l.fields.find? fun g => g.label == label with
  | none => simp only [hfind, reduceCtorEq] at h
  | some g =>
    simp only [hfind, Except.ok.injEq] at h
    subst h
    have hlabel := List.find?_some (p := fun g : Field => g.label == label) hfind
    exact ⟨List.mem_of_find?_eq_some hfind, beq_iff_eq.mp hlabel⟩

/-- Among fields with different labels each is found by its label. -/
theorem find?_label_eq {fields : List Field} (h : (fields.map Field.label).Nodup)
    (hf : f ∈ fields) : fields.find? (fun g => g.label == f.label) = some f := by
  induction fields with
  | nil => exact absurd hf List.not_mem_nil
  | cons g fields ih =>
    obtain ⟨hnew, htail⟩ := List.nodup_cons.mp h
    rcases List.mem_cons.mp hf with rfl | hf
    · exact List.find?_cons_of_pos (beq_self_eq_true _)
    · have hne : (g.label == f.label) = false := beq_eq_false_iff_ne.mpr fun heq =>
        hnew (heq ▸ List.mem_map_of_mem hf)
      simp only [List.find?_cons, hne]
      exact ih htail hf

/-- The fields of a sound layout follow one another and fill the buffer to its end, and no two have
the same label. -/
structure Sound (l : Layout) : Prop where
  placed : Definition.Placed l.config.padding 0 l.fields l.size
  nodup_labels : l.labels.Nodup

namespace Sound

/-- Only the buffer's size matters. -/
theorem of_eq {l' : Layout} (hl : l.Sound) (hconfig : l'.config = l.config)
    (hfields : l'.fields = l.fields) (hsize : l'.size = l.size) : l'.Sound where
  placed := by rw [hconfig, hfields, hsize]; exact hl.placed
  nodup_labels := by rw [labels, hfields]; exact hl.nodup_labels

theorem patch (hl : l.Sound) {start : Nat} {new : List UInt8} (h : start + new.length ≤ l.size) :
    (l.patch start new).Sound :=
  hl.of_eq rfl rfl (size_patch h)

theorem size_lt (hl : l.Sound) : l.size < Word.count64 :=
  (hl.placed.stop_le_maxSize (Nat.zero_le _)).trans_lt (by decide)

theorem unit_cases (hl : l.Sound) (hf : f ∈ l.fields) :
    f.unit = 1 ∨ f.unit = 2 ∨ f.unit = 4 ∨ f.unit = 8 :=
  (hl.placed.follows_of_mem f hf).choose_spec.unit_cases

theorem address_le_size (hl : l.Sound) (hf : f ∈ l.fields) (hi : i < f.count) :
    f.address i + f.unit ≤ l.size :=
  (Field.address_add_unit_le hi).trans (hl.placed.stop_le_of_mem f hf)

theorem field_eq (hl : l.Sound) (hf : f ∈ l.fields) : l.field f.label = .ok f := by
  rw [field, find?_label_eq hl.nodup_labels hf]

/-- No two fields have the same label. -/
theorem eq_of_label_eq (hl : l.Sound) (hf : f ∈ l.fields) (hg : g ∈ l.fields)
    (hlabel : g.label = f.label) : g = f := by
  have hfound := hl.field_eq hg
  rw [hlabel, hl.field_eq hf] at hfound
  exact (Except.ok.inj hfound).symm

theorem eq_or_disjoint (hl : l.Sound) (hf : f ∈ l.fields) (hg : g ∈ l.fields) :
    f = g ∨ f.stop ≤ g.offset ∨ g.stop ≤ f.offset := by
  have hpair := hl.placed.pairwise_stop_le
  refine List.Pairwise.forall_of_forall_of_flip
    (R := fun f g : Field => f = g ∨ f.stop ≤ g.offset ∨ g.stop ≤ f.offset)
    (fun _ _ => Or.inl rfl) (hpair.imp fun h => Or.inr (Or.inl h))
    (hpair.imp fun h => Or.inr (Or.inr h)) hf hg

/-- Distinct elements do not overlap. -/
theorem address_disjoint (hl : l.Sound) (hf : f ∈ l.fields) (hg : g ∈ l.fields) (hi : i < f.count)
    (hj : j < g.count) (hne : ¬ (f = g ∧ i = j)) :
    f.address i + f.unit ≤ g.address j ∨ g.address j + g.unit ≤ f.address i := by
  rcases hl.eq_or_disjoint hf hg with rfl | hfg | hgf
  · rcases Nat.lt_or_gt_of_ne fun h => hne ⟨rfl, h⟩ with hij | hji
    · exact Or.inl (Field.address_add_unit_le_address hij)
    · exact Or.inr (Field.address_add_unit_le_address hji)
  · exact Or.inl ((Field.address_add_unit_le hi).trans (hfg.trans (g.offset_le_address j)))
  · exact Or.inr ((Field.address_add_unit_le hj).trans (hgf.trans (f.offset_le_address i)))

/-- Reading an element of a field decodes its bytes. -/
theorem valueAt_eq (hl : l.Sound) (hf : f ∈ l.fields) (hi : i < f.count) :
    l.valueAt f i = .ok (Scalar.decode l.config.byteOrder (f.element l.bytes i)) := by
  rw [Layout.valueAt_eq hl.size_lt, if_pos (hl.address_le_size hf hi)]

/-- Writing an element of a field replaces its bytes. -/
theorem storeAt_eq (hl : l.Sound) (hf : f ∈ l.fields) (hi : i < f.count) (value : Int64) :
    l.storeAt f value i =
      .ok (l.patch (f.address i) (Scalar.encode l.config.byteOrder f.unit value)) := by
  rw [Layout.storeAt_eq hl.size_lt, if_pos (hl.address_le_size hf hi)]

/-! ### Replacing the bytes of an element -/

variable {new : List UInt8}

theorem fits_element (hl : l.Sound) (hf : f ∈ l.fields) (hi : i < f.count)
    (hnew : new.length = f.unit) : f.address i + new.length ≤ l.bytes.length :=
  hnew ▸ hl.address_le_size hf hi

theorem length_element (hl : l.Sound) (hf : f ∈ l.fields) (hi : i < f.count) :
    (f.element l.bytes i).length = f.unit :=
  Buffer.length_slice (hl.address_le_size hf hi)

/-- The element itself has the new bytes. -/
theorem element_patched_self (hl : l.Sound) (hf : f ∈ l.fields) (hi : i < f.count)
    (hnew : new.length = f.unit) :
    f.element (Buffer.patched l.bytes (f.address i) new) i = new := by
  rw [Field.element, ← hnew]
  exact Buffer.slice_patched_self (hl.fits_element hf hi hnew)

/-- Every other element has its old bytes. -/
theorem element_patched_of_ne (hl : l.Sound) (hf : f ∈ l.fields) (hg : g ∈ l.fields)
    (hi : i < f.count) (hj : j < g.count) (hnew : new.length = f.unit) (hne : ¬ (f = g ∧ i = j)) :
    g.element (Buffer.patched l.bytes (f.address i) new) j = g.element l.bytes j := by
  refine Buffer.slice_patched_of_disjoint (hl.fits_element hf hi hnew) ?_
  rw [hnew]
  exact (hl.address_disjoint hf hg hi hj hne).symm

/-- Bytes outside the field are left as they were. -/
theorem getElem?_patched_of_notMem_range (hl : l.Sound) (hf : f ∈ l.fields) (hi : i < f.count)
    (hnew : new.length = f.unit) {a : Nat} (ha : a ∉ f.range) :
    (Buffer.patched l.bytes (f.address i) new)[a]? = l.bytes[a]? := by
  have hoffset := f.offset_le_address i
  have hstop := Field.address_add_unit_le hi
  rw [Buffer.getElem?_patched (hl.fits_element hf hi hnew), if_neg]
  rintro ⟨hle, hlt⟩
  exact ha ⟨by omega, by omega⟩

end Sound

end Layout

end BinaryLayout
