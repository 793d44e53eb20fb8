import BinaryLayout.Proofs.Layout.Element

/-!
# The initial image of a layout

Building a layout stores the constants one after another in a buffer of zeros. No field reaches
into another, so the stores do not interfere: at the end each constant holds the bytes of its
declared value, and every other byte is still zero. Building fails only with the fault of the
definition or for want of memory.

## Main definitions

* `Layout.stored`: the bytes of a buffer after constants have been stored in it.
* `Layout.initial`: the layout that a definition becomes.

## Main results

* `Layout.build_eq`: the outcome of building.
* `Layout.sound_of_build`: a layout that is built is sound.
* `Layout.element_stored`, `Layout.getElem?_stored_of_forall`: the initial image.
-/

namespace BinaryLayout.Layout

variable {order : ByteOrder} {fields : List Field} {bytes : List UInt8} {f : Field}

/-! ### Storing constants -/

/-- The bytes after the constants among the fields have been stored. -/
def stored (order : ByteOrder) : List Field → List UInt8 → List UInt8
  | [], bytes => bytes
  | f :: fields, bytes =>
    stored order fields <| if f.isConstant then
      Buffer.patched bytes f.offset (Scalar.encode order f.unit f.datum) else bytes

theorem count_of_isConstant (hf : f.isConstant = true) : f.count = 1 := by
  rw [Field.isConstant, beq_iff_eq] at hf
  simp only [Field.count, hf]

theorem zero_lt_count (hf : f.isConstant = true) : 0 < f.count := by
  rw [count_of_isConstant hf]
  exact Nat.one_pos

theorem eq_zero_of_isConstant (hf : f.isConstant = true) {i : Nat} (hi : i < f.count) : i = 0 := by
  rw [count_of_isConstant hf] at hi
  exact Nat.lt_one_iff.mp hi

theorem stop_of_isConstant (hf : f.isConstant = true) : f.stop = f.offset + f.unit := by
  rw [Field.stop, Field.totalSize, count_of_isConstant hf, Nat.mul_one]

/-- A constant that fits is stored without changing the buffer's size. -/
theorem fits_of_isConstant (order : ByteOrder) (hf : f.isConstant = true)
    (h : f.stop ≤ bytes.length) :
    f.offset + (Scalar.encode order f.unit f.datum).length ≤ bytes.length := by
  rwa [Scalar.length_encode, ← stop_of_isConstant hf]

theorem length_stored (h : ∀ f ∈ fields, f.stop ≤ bytes.length) :
    (stored order fields bytes).length = bytes.length := by
  induction fields generalizing bytes with
  | nil => rfl
  | cons f fields ih =>
    obtain ⟨hf, htail⟩ := List.forall_mem_cons.mp h
    rw [stored]
    split_ifs with hc
    · have hlength := Buffer.length_patched (fits_of_isConstant order hc hf)
      rw [ih (hlength ▸ htail), hlength]
    · exact ih htail

/-- Storing constants that fit does not fail. -/
theorem storeConstants_eq (order : ByteOrder) (fields : List Field) {b : Buffer}
    (hb : b.size < Word.count64) (h : ∀ f ∈ fields, f.stop ≤ b.size) :
    storeConstants order fields b = .ok ⟨stored order fields b.bytes⟩ := by
  induction fields generalizing b with
  | nil => rfl
  | cons f fields ih =>
    obtain ⟨hf, htail⟩ := List.forall_mem_cons.mp h
    rw [storeConstants, stored]
    split_ifs with hc
    · have hfits := fits_of_isConstant order hc hf
      have hsize : Buffer.size ⟨Buffer.patched b.bytes f.offset
          (Scalar.encode order f.unit f.datum)⟩ = b.size := Buffer.length_patched hfits
      rw [Buffer.write_eq hfits hb]
      exact ih (hsize ▸ hb) (hsize ▸ htail)
    · exact ih hb htail

/-- Bytes outside the constants are left as they were. -/
theorem getElem?_stored_of_forall (hfits : ∀ f ∈ fields, f.stop ≤ bytes.length) {a : Nat}
    (h : ∀ f ∈ fields, f.isConstant = true → a ∉ f.range) :
    (stored order fields bytes)[a]? = bytes[a]? := by
  induction fields generalizing bytes with
  | nil => rfl
  | cons f fields ih =>
    obtain ⟨hf, hfits⟩ := List.forall_mem_cons.mp hfits
    obtain ⟨ha, h⟩ := List.forall_mem_cons.mp h
    rw [stored]
    split_ifs with hc
    · have hfit := fits_of_isConstant order hc hf
      rw [ih ((Buffer.length_patched hfit).symm ▸ hfits) h, Buffer.getElem?_patched hfit, if_neg]
      rw [Scalar.length_encode, ← stop_of_isConstant hc]
      exact ha hc
    · exact ih hfits h

/-- Each constant holds the bytes of its declared value: no later store reaches it. -/
theorem element_stored (hfits : ∀ f ∈ fields, f.stop ≤ bytes.length)
    (hpair : fields.Pairwise fun f g => f.stop ≤ g.offset) (hf : f ∈ fields)
    (hc : f.isConstant = true) :
    f.element (stored order fields bytes) 0 = Scalar.encode order f.unit f.datum := by
  induction fields generalizing bytes with
  | nil => exact absurd hf List.not_mem_nil
  | cons g fields ih =>
    obtain ⟨hg, htail⟩ := List.forall_mem_cons.mp hfits
    obtain ⟨hlater, hpair⟩ := List.pairwise_cons.mp hpair
    rw [stored]
    rcases List.mem_cons.mp hf with rfl | hf
    · have hfit := fits_of_isConstant order hc hg
      have haddress : f.address 0 = f.offset := by rw [Field.address, Nat.zero_mul, Nat.add_zero]
      rw [if_pos hc, Field.element, haddress]
      refine (Buffer.slice_congr fun a ha ha' => ?_).trans ((Scalar.length_encode ..) ▸
        Buffer.slice_patched_self hfit)
      refine getElem?_stored_of_forall ((Buffer.length_patched hfit).symm ▸ htail) ?_
      rintro h hh - ⟨hle, -⟩
      have := hlater h hh
      have := stop_of_isConstant hc
      omega
    · split_ifs with hgc
      · have hfit := fits_of_isConstant order hgc hg
        exact ih ((Buffer.length_patched hfit).symm ▸ htail) hpair hf
      · exact ih htail hpair hf

/-! ### Building -/

/-- The layout that a definition becomes: the constants stored in a buffer of zeros. -/
def initial (config : Config) (d : Definition) : Layout :=
  ⟨config, d.fields, ⟨stored config.byteOrder d.fields (List.replicate d.totalSize 0)⟩⟩

variable {config : Config} {d : Definition} {text : String} {granted : Nat → Bool}

/-- **Building** fails with the fault of the definition or for want of memory, and in no other
way. -/
theorem build_eq (granted : Nat → Bool) (text : String) (config : Config) :
    build granted text config =
      match Definition.parse text config.width config.padding with
      | .error reason => .error (.definition reason)
      | .ok d =>
        if granted d.totalSize then .ok (initial config d)
        else .error (.allocationFailed d.totalSize) := by
  rw [build]
  cases hparse : Definition.parse text config.width config.padding with
  | error reason => rfl
  | ok d =>
    have hp := Definition.placed_of_parse hparse
    have hmax : d.totalSize < Word.half64 :=
      (hp.stop_le_maxSize (Nat.zero_le _)).trans_lt (by decide)
    by_cases hgranted : granted d.totalSize = true
    · have hb : Buffer.size ⟨List.replicate d.totalSize 0⟩ = d.totalSize :=
        List.length_replicate
      have hstore := storeConstants_eq config.byteOrder d.fields
        (hb.trans_lt (hmax.trans (by decide))) (hb.symm ▸ hp.stop_le_of_mem)
      simp only [Buffer.allocate, hmax, hgranted, and_self, if_true, hstore]
      rfl
    · simp only [Buffer.allocate, hgranted, and_false, if_false, Bool.false_eq_true]

/-- A definition that is read becomes its layout if the memory is granted. -/
theorem build_of_parse (h : Definition.parse text config.width config.padding = .ok d)
    (hgranted : granted d.totalSize = true) :
    build granted text config = .ok (initial config d) := by
  rw [build_eq, h]
  exact if_pos hgranted

/-- What a built layout is. -/
theorem exists_of_build {l : Layout} (h : build granted text config = .ok l) :
    ∃ d, Definition.parse text config.width config.padding = .ok d ∧ l = initial config d := by
  rw [build_eq] at h
  cases hparse : Definition.parse text config.width config.padding with
  | error reason => simp only [hparse, reduceCtorEq] at h
  | ok d =>
    simp only [hparse] at h
    split_ifs at h
    cases h
    exact ⟨d, rfl, rfl⟩

section Initial

variable (hp : Definition.Placed config.padding 0 d.fields d.totalSize)
  (hlabels : (d.fields.map Field.label).Nodup)

include hp

theorem stop_le_length_zeros : ∀ f ∈ d.fields,
    f.stop ≤ (List.replicate d.totalSize (0 : UInt8)).length := by
  rw [List.length_replicate]
  exact hp.stop_le_of_mem

theorem size_initial : (initial config d).size = d.totalSize :=
  (length_stored (stop_le_length_zeros hp)).trans List.length_replicate

include hlabels in
theorem sound_initial : (initial config d).Sound where
  placed := (size_initial hp).symm ▸ hp
  nodup_labels := hlabels

/-- In the initial image a constant holds the bytes of its declared value. -/
theorem element_initial (hf : f ∈ d.fields) (hc : f.isConstant = true) :
    f.element (initial config d).bytes 0 = Scalar.encode config.byteOrder f.unit f.datum :=
  element_stored (stop_le_length_zeros hp) hp.pairwise_stop_le hf hc

/-- In the initial image every byte outside the constants is zero. -/
theorem getElem?_initial {a : Nat} (ha : a < d.totalSize)
    (h : ∀ f ∈ d.fields, f.isConstant = true → a ∉ f.range) :
    (initial config d).bytes[a]? = some 0 := by
  refine (getElem?_stored_of_forall (stop_le_length_zeros hp) h).trans ?_
  rw [List.getElem?_replicate, if_pos ha]

include hlabels in
/-- In the initial image the elements of a space are zero. -/
theorem element_initial_space (hf : f ∈ d.fields) (hs : f.isConstant = false) {i : Nat}
    (hi : i < f.count) : f.element (initial config d).bytes i = List.replicate f.unit 0 := by
  have hsound : (initial config d).Sound := sound_initial hp hlabels
  have hinside := Field.address_add_unit_le hi
  have hoffset := f.offset_le_address i
  have hstop := hp.stop_le_of_mem f hf
  refine List.ext_getElem? fun k => ?_
  rw [Field.element, Buffer.getElem?_slice, List.getElem?_replicate]
  split_ifs with hk
  · refine getElem?_initial hp (by omega) ?_
    rintro g hg hc ⟨hle, hlt⟩
    rcases hsound.eq_or_disjoint hf hg with rfl | hfg | hgf
    · rw [hs] at hc
      cases hc
    · omega
    · omega
  · rfl

end Initial

theorem sound_of_build {l : Layout} (h : build granted text config = .ok l) : l.Sound := by
  obtain ⟨d, hparse, rfl⟩ := exists_of_build h
  exact sound_initial (Definition.placed_of_parse hparse)
    (Definition.nodup_labels_of_parse hparse)

/-- A layout is only built if the memory for it is granted. -/
theorem granted_of_build {l : Layout} (h : build granted text config = .ok l) :
    granted l.size = true := by
  obtain ⟨d, hparse, rfl⟩ := exists_of_build h
  rw [size_initial (Definition.placed_of_parse hparse)]
  rw [build_eq, hparse] at h
  by_contra hdenied
  simp only [if_neg hdenied, reduceCtorEq] at h

end BinaryLayout.Layout
