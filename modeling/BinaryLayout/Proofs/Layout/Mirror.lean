import BinaryLayout.Proofs.Layout.Cells

/-!
# Layouts in mirrored byte orders

The same definition under the two byte orders gives two layouts that no scalar accessor can tell
apart. Their buffers are mirror images element by element: each element of the one is the reverse of
the same element of the other, and the padding is the same. Every call that stays inside its field,
and every call that fails, keeps the buffers so and has the same result on both.

## Main definitions

* `Mirrored`: two byte sequences are mirror images with respect to some fields.
* `Layout.MirrorOf`: the relation between the two layouts.
* `Layout.StaysInside`: a scalar request that does not leave its field unless it fails.
* `Layout.Twins`: two outcomes that are the same but for the byte order.

## Main results

* `Layout.MirrorOf.perform`: one request keeps the relation and has the same result.
* `Layout.mirrored_of_byteOrder`: both layouts fail to build with the same fault, or both are built
  and stay mirror images along every sequence of such requests.
-/

namespace BinaryLayout

/-- In the second byte sequence each element of the fields is the reverse of what it is in the
first, and the bytes outside the fields are the same. -/
structure Mirrored (fields : List Field) (little big : List UInt8) : Prop where
  length_eq : big.length = little.length
  element_eq : ∀ f ∈ fields, ∀ i < f.count, f.element big i = (f.element little i).reverse
  padding_eq : ∀ a, (∀ f ∈ fields, a ∉ f.range) → big[a]? = little[a]?

namespace Layout

variable {l little big : Layout} {f : Field} {i : Nat} {operation : Operation}

/-- The two layouts are sound, have the same fields and different byte orders, and their buffers are
mirror images. -/
structure MirrorOf (big little : Layout) : Prop where
  sound_little : little.Sound
  sound_big : big.Sound
  fields_eq : big.fields = little.fields
  order_little : little.config.byteOrder = .little
  order_big : big.config.byteOrder = .big
  mirrored : Mirrored little.fields little.bytes big.bytes

/-! ### Requests -/

/-- Whether a request is one of the scalar accessors. -/
def Operation.isScalar : Operation → Bool
  | .get _ | .getAt _ _ | .set _ _ | .setAt _ _ _ => true
  | _ => false

/-- A scalar request is for an element inside a field, or it fails. -/
def StaysInside (fields : List Field) (operation : Operation)
    (outcome : Except OperationError Answer × Layout) : Prop :=
  operation.isScalar = true ∧
    (operation.InField fields ∨ ∃ fault, outcome.1 = .error fault)

/-- Two requests have the same result and leave mirror images. -/
def Twins (fields : List Field) (outcome outcome' : Except OperationError Answer × Layout) : Prop :=
  outcome'.1 = outcome.1 ∧ Mirrored fields outcome.2.bytes outcome'.2.bytes

/-- A request that is for an element inside the field, or that fails although it would not fail
inside the buffer, reaches no other field. -/
theorem Sound.lt_count_or (hl : l.Sound) (hf : f ∈ l.fields)
    {result : Except OperationError Answer}
    (hstay : (∃ g ∈ l.fields, g.label = f.label ∧ i < g.count) ∨ ∃ fault, result = .error fault)
    (hinside : f.address i + f.unit ≤ l.size → ∃ answer, result = .ok answer) :
    i < f.count ∨ ¬ f.address i + f.unit ≤ l.size := by
  rcases hstay with ⟨g, hg, hlabel, hi⟩ | ⟨fault, hfault⟩
  · rw [hl.eq_of_label_eq hf hg hlabel] at hi
    exact Or.inl hi
  · refine Or.inr fun hsize => ?_
    obtain ⟨answer, hanswer⟩ := hinside hsize
    rw [hfault] at hanswer
    cases hanswer

namespace MirrorOf

/-! ### One element -/

theorem size_eq (h : big.MirrorOf little) : big.size = little.size := h.mirrored.length_eq

theorem field_eq (h : big.MirrorOf little) (label : String) :
    big.field label = little.field label := by
  rw [field, field, h.fields_eq]

/-- Replacing an element by mirrored bytes keeps the layouts mirror images. -/
theorem patch (h : big.MirrorOf little) (hf : f ∈ little.fields) (hi : i < f.count)
    {new : List UInt8} (hnew : new.length = f.unit) :
    (big.patch (f.address i) new.reverse).MirrorOf (little.patch (f.address i) new) := by
  have hf' : f ∈ big.fields := h.fields_eq ▸ hf
  have hnew' : new.reverse.length = f.unit := List.length_reverse.trans hnew
  have hfits := h.sound_little.fits_element hf hi hnew
  have hfits' := h.sound_big.fits_element hf' hi hnew'
  refine ⟨h.sound_little.patch hfits, h.sound_big.patch hfits', h.fields_eq, h.order_little,
    h.order_big, ?_, ?_, ?_⟩
  · rw [bytes_patch, bytes_patch, Buffer.length_patched hfits', Buffer.length_patched hfits]
    exact h.mirrored.length_eq
  · intro g hg j hj
    have hg' : g ∈ big.fields := h.fields_eq ▸ hg
    rw [bytes_patch, bytes_patch]
    by_cases heq : f = g ∧ i = j
    · obtain ⟨rfl, rfl⟩ := heq
      rw [h.sound_big.element_patched_self hf' hi hnew',
        h.sound_little.element_patched_self hf hi hnew]
    · rw [h.sound_big.element_patched_of_ne hf' hg' hi hj hnew' heq,
        h.sound_little.element_patched_of_ne hf hg hi hj hnew heq]
      exact h.mirrored.element_eq g hg j hj
  · intro a ha
    rw [bytes_patch, bytes_patch,
      h.sound_big.getElem?_patched_of_notMem_range hf' hi hnew' (ha f hf),
      h.sound_little.getElem?_patched_of_notMem_range hf hi hnew (ha f hf)]
    exact h.mirrored.padding_eq a ha

/-- An element of a field is read alike, and one beyond the buffer is refused alike. -/
theorem valueAt_eq (h : big.MirrorOf little) (hf : f ∈ little.fields)
    (hi : i < f.count ∨ ¬ f.address i + f.unit ≤ little.size) :
    big.valueAt f i = little.valueAt f i := by
  rw [Layout.valueAt_eq h.sound_big.size_lt, Layout.valueAt_eq h.sound_little.size_lt, h.size_eq]
  split_ifs with hsize
  · have hcount := hi.resolve_right (not_not.mpr hsize)
    rw [h.order_big, h.order_little, h.mirrored.element_eq f hf i hcount,
      Scalar.decode_big_reverse]
  · rfl

theorem reading_valueAt (h : big.MirrorOf little) (hf : f ∈ little.fields)
    (hi : i < f.count ∨ ¬ f.address i + f.unit ≤ little.size) :
    (big.reading .value (big.valueAt f i)).1 = (little.reading .value (little.valueAt f i)).1 ∧
      (big.reading .value (big.valueAt f i)).2.MirrorOf
        (little.reading .value (little.valueAt f i)).2 := by
  rw [h.valueAt_eq hf hi, reading_snd, reading_snd]
  exact ⟨reading_fst .., h⟩

/-- An element of a field is written alike, and one beyond the buffer is refused alike. -/
theorem writing_storeAt (h : big.MirrorOf little) (hf : f ∈ little.fields) (value : Int64)
    (hi : i < f.count ∨ ¬ f.address i + f.unit ≤ little.size) :
    (big.writing ((big.storeAt f value i).map fun l => (.done, l))).1 =
        (little.writing ((little.storeAt f value i).map fun l => (.done, l))).1 ∧
      (big.writing ((big.storeAt f value i).map fun l => (.done, l))).2.MirrorOf
        (little.writing ((little.storeAt f value i).map fun l => (.done, l))).2 := by
  rw [Layout.storeAt_eq h.sound_big.size_lt, Layout.storeAt_eq h.sound_little.size_lt, h.size_eq]
  split_ifs with hsize
  · have hcount := hi.resolve_right (not_not.mpr hsize)
    refine ⟨rfl, ?_⟩
    rw [h.order_big, h.order_little, Scalar.encode_big]
    exact h.patch hf hcount (Scalar.length_encode ..)
  · exact ⟨rfl, h⟩

/-! ### One request -/

/-- **One request** that stays inside its field, or fails, has the same result on both layouts and
leaves mirror images. -/
theorem perform (h : big.MirrorOf little)
    (hstay : StaysInside little.fields operation (little.perform operation)) :
    (big.perform operation).1 = (little.perform operation).1 ∧
      (big.perform operation).2.MirrorOf (little.perform operation).2 := by
  cases operation with
  | get label =>
    simp only [Layout.perform, get, h.field_eq]
    cases hfield : little.field label with
    | error fault => exact ⟨rfl, h⟩
    | ok f =>
      by_cases hc : f.isConstant = true
      · simp only [if_pos hc]
        exact h.reading_valueAt (mem_of_field_eq_ok hfield).1 (Or.inl (zero_lt_count hc))
      · simp only [if_neg hc]
        exact ⟨rfl, h⟩
  | set label value =>
    simp only [Layout.perform, set, h.field_eq]
    cases hfield : little.field label with
    | error fault => exact ⟨rfl, h⟩
    | ok f =>
      by_cases hc : f.isConstant = true
      · simp only [if_pos hc]
        exact h.writing_storeAt (mem_of_field_eq_ok hfield).1 value (Or.inl (zero_lt_count hc))
      · simp only [if_neg hc]
        exact ⟨rfl, h⟩
  | getAt label index =>
    cases hfield : little.field label with
    | error fault =>
      simp only [Layout.perform, getAt, h.field_eq, hfield]
      exact ⟨rfl, h⟩
    | ok f =>
      obtain ⟨hf, rfl⟩ := mem_of_field_eq_ok hfield
      have hindex := h.sound_little.lt_count_or hf hstay.2 fun hsize => by
        simp only [Layout.perform, getAt, hfield, Layout.valueAt_eq h.sound_little.size_lt,
          if_pos hsize]
        exact ⟨_, rfl⟩
      simp only [Layout.perform, getAt, h.field_eq, hfield]
      exact h.reading_valueAt hf hindex
  | setAt label value index =>
    cases hfield : little.field label with
    | error fault =>
      simp only [Layout.perform, setAt, h.field_eq, hfield]
      exact ⟨rfl, h⟩
    | ok f =>
      obtain ⟨hf, rfl⟩ := mem_of_field_eq_ok hfield
      have hindex := h.sound_little.lt_count_or hf hstay.2 fun hsize => by
        simp only [Layout.perform, setAt, hfield, Layout.storeAt_eq h.sound_little.size_lt,
          if_pos hsize]
        exact ⟨_, rfl⟩
      simp only [Layout.perform, setAt, h.field_eq, hfield]
      exact h.writing_storeAt hf value hindex
  | _ => exact absurd hstay.1 Bool.false_ne_true

/-! ### Sequences of requests -/

theorem transcript {operations : List Operation} (h : big.MirrorOf little)
    (hstay : List.Forall₂ (StaysInside little.fields) operations (little.transcript operations)) :
    List.Forall₂ (Twins little.fields) (little.transcript operations)
      (big.transcript operations) := by
  induction operations generalizing little big with
  | nil => exact .nil
  | cons operation operations ih =>
    obtain ⟨hfirst, hrest⟩ := List.forall₂_cons.mp hstay
    obtain ⟨hresult, hnext⟩ := h.perform hfirst
    have hfields := fields_perform little operation
    refine .cons ⟨hresult, hfields ▸ hnext.mirrored⟩ ?_
    rw [← hfields] at hrest ⊢
    exact ih hnext hrest

/-- The initial images of a definition in the two orders are mirror images. -/
theorem initial (width : Width) {padding : Padding} {d : Definition}
    (hp : Definition.Placed padding 0 d.fields d.totalSize)
    (hlabels : (d.fields.map Field.label).Nodup) :
    (initial ⟨width, .big, padding⟩ d).MirrorOf (initial ⟨width, .little, padding⟩ d) := by
  have hsize (order : ByteOrder) : (Layout.initial ⟨width, order, padding⟩ d).bytes.length =
      d.totalSize := size_initial hp
  have hsound (order : ByteOrder) : (Layout.initial ⟨width, order, padding⟩ d).Sound :=
    sound_initial hp hlabels
  refine ⟨hsound _, hsound _, rfl, rfl, rfl, (hsize _).trans (hsize _).symm, ?_, ?_⟩
  · intro f hf i hi
    by_cases hc : f.isConstant = true
    · obtain rfl := eq_zero_of_isConstant hc hi
      rw [element_initial hp hf hc, element_initial hp hf hc, Scalar.encode_big]
    · rw [element_initial_space hp hlabels hf (Bool.eq_false_iff.mpr hc) hi,
        element_initial_space hp hlabels hf (Bool.eq_false_iff.mpr hc) hi, List.reverse_replicate]
  · intro a ha
    rcases Nat.lt_or_ge a d.totalSize with hlt | hge
    · rw [getElem?_initial hp hlt fun f hf _ => ha f hf,
        getElem?_initial hp hlt fun f hf _ => ha f hf]
    · rw [List.getElem?_eq_none (hsize _ ▸ hge), List.getElem?_eq_none (hsize _ ▸ hge)]

end MirrorOf

/-- **Mirrored byte orders.** Under the two byte orders a definition fails to build with the same
fault, or becomes two layouts whose buffers are mirror images. Every sequence of scalar requests,
each of which stays inside its field or fails, has the same results on both and keeps the buffers
mirror images. -/
theorem mirrored_of_byteOrder (granted : Nat → Bool) (text : String) (width : Width)
    (padding : Padding) :
    (∃ fault, build granted text ⟨width, .little, padding⟩ = .error fault ∧
        build granted text ⟨width, .big, padding⟩ = .error fault) ∨
      ∃ little big, build granted text ⟨width, .little, padding⟩ = .ok little ∧
        build granted text ⟨width, .big, padding⟩ = .ok big ∧ big.fields = little.fields ∧
        Mirrored little.fields little.bytes big.bytes ∧
        ∀ operations : List Operation,
          List.Forall₂ (StaysInside little.fields) operations (little.transcript operations) →
          List.Forall₂ (Twins little.fields) (little.transcript operations)
            (big.transcript operations) := by
  rw [build_eq, build_eq]
  cases hparse : Definition.parse text width padding with
  | error reason => exact Or.inl ⟨_, rfl, rfl⟩
  | ok d =>
    have h := MirrorOf.initial width (Definition.placed_of_parse hparse)
      (Definition.nodup_labels_of_parse hparse)
    by_cases hgranted : granted d.totalSize = true
    · simp only [if_pos hgranted]
      exact Or.inr ⟨_, _, rfl, rfl, rfl, h.mirrored, fun _ => h.transcript⟩
    · simp only [if_neg hgranted]
      exact Or.inl ⟨_, rfl, rfl⟩

/-- A byte, a word aligned behind it, and two words: a store, a read beyond the buffer, a read and a
store under a label that is not declared. -/
theorem mirrored_byte_word_words :
    let b : Field := ⟨"b", .constant, 1, 0, 2⟩
    let w : Field := ⟨"w", .constant, 2, 2, 258⟩
    let s : Field := ⟨"s", .space, 2, 4, 2⟩
    let little : Layout := ⟨⟨.bits16, .little, .short⟩, [b, w, s], ⟨[2, 0, 2, 1, 0, 0, 0, 0]⟩⟩
    let big : Layout := ⟨⟨.bits16, .big, .short⟩, [b, w, s], ⟨[2, 0, 1, 2, 0, 0, 0, 0]⟩⟩
    let operations : List Operation := [.setAt "s" (-2) 1, .getAt "s" 2, .get "w", .set "x" 1]
    List.Forall₂ (StaysInside [b, w, s]) operations (little.transcript operations) ∧
      List.Forall₂ (Twins [b, w, s]) (little.transcript operations)
        (big.transcript operations) := by
  intro b w s little big operations
  have hlittle : build (· ≤ 1024) "b dc.b 2 w dc.w 258 s ds.w 2"
      ⟨.bits16, .little, .short⟩ = .ok little := by decide +kernel
  have hbig : build (· ≤ 1024) "b dc.b 2 w dc.w 258 s ds.w 2"
      ⟨.bits16, .big, .short⟩ = .ok big := by decide +kernel
  have hstay : List.Forall₂ (StaysInside [b, w, s]) operations (little.transcript operations) :=
    .cons ⟨rfl, Or.inl ⟨s, by simp, rfl, by decide⟩⟩ <|
      .cons ⟨rfl, Or.inr ⟨.layout (.outOfBounds "s" 2), by decide +kernel⟩⟩ <|
      .cons ⟨rfl, Or.inl ⟨w, by simp, rfl⟩⟩ <|
      .cons ⟨rfl, Or.inr ⟨.layout (.undefinedLabel "x"), by decide +kernel⟩⟩ .nil
  refine ⟨hstay, ?_⟩
  rcases mirrored_of_byteOrder (· ≤ 1024) "b dc.b 2 w dc.w 258 s ds.w 2" .bits16
    .short with ⟨fault, h, -⟩ | ⟨l, l', h, h', -, -, hrun⟩
  · rw [hlittle] at h
    cases h
  · obtain rfl := Except.ok.inj (hlittle.symm.trans h)
    obtain rfl := Except.ok.inj (hbig.symm.trans h')
    exact hrun operations hstay

end Layout

end BinaryLayout
