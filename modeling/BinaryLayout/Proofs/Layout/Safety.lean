import BinaryLayout.Proofs.Layout.Faults
import BinaryLayout.Proofs.Layout.Run

/-!
# Safety of reachable layouts

No sequence of requests leads a layout out of its bounds. The configuration, the fields and the
size stay what they were when the layout was built. Sums, products and ranges that are computed
without a check of their own stay in bounds because the definition was placed in bounds. And no
request fails but for the three reasons that its sender can see: the label is not declared, the
element reaches beyond the buffer, or the image cannot be read.

## Main definitions

* `Layout.position?`: the position of a label in a table that is filled label by label.
* `Layout.InBounds`: what is computed without a check stays in bounds.
* `Layout.Safe`: what is kept of a definition and a configuration, and which faults are left.

## Main results

* `Layout.Sound.position?_eq_some_iff`: the table leads each label to its own field.
* `Layout.Sound.inBounds`: a sound layout computes in bounds.
* `Layout.safe_run`: building fails only with the definition's fault or for want of memory, and
  every run of what is built is safe.
-/

namespace BinaryLayout

/-- A range can be cut out of so many bytes: its end is an address and not beyond them. -/
def Buffer.Holds (size start length : Nat) : Prop :=
  start + length < Word.count64 ∧ start + length ≤ size

namespace Layout

variable {l : Layout} {f : Field} {label : String} {i : Nat}

/-! ### The table of labels -/

/-- Fills in the positions of the labels from a position on, one after another. What is kept is the
last one under the given label. -/
def lastPosition? (label : String) (names : List String) (start : Nat) (found : Option Nat) :
    Option Nat :=
  (names.zipIdx start).foldl (fun found entry => if entry.1 = label then some entry.2 else found)
    found

/-- The position of a label in the table of a layout's labels. -/
def position? (l : Layout) (label : String) : Option Nat := lastPosition? label l.labels 0 none

theorem lastPosition?_cons (name : String) (names : List String) (start : Nat)
    (found : Option Nat) : lastPosition? label (name :: names) start found =
      lastPosition? label names (start + 1) (if name = label then some start else found) := rfl

theorem lastPosition?_of_notMem {names : List String} (h : label ∉ names) (start : Nat)
    (found : Option Nat) : lastPosition? label names start found = found := by
  induction names generalizing start with
  | nil => rfl
  | cons name names ih =>
    obtain ⟨hne, hrest⟩ := not_or.mp (List.mem_cons.not.mp h)
    rw [lastPosition?_cons, if_neg (Ne.symm hne), ih hrest]

/-- A label that does not come again keeps its position. -/
theorem lastPosition?_of_getElem? {names : List String} (hnames : names.Nodup)
    (hi : names[i]? = some label) (start : Nat) (found : Option Nat) :
    lastPosition? label names start found = some (start + i) := by
  induction names generalizing i start found with
  | nil => cases hi
  | cons name names ih =>
    obtain ⟨hnew, hnames⟩ := List.nodup_cons.mp hnames
    rw [lastPosition?_cons]
    cases i with
    | zero =>
      obtain rfl : name = label := Option.some.inj hi
      rw [if_pos rfl, lastPosition?_of_notMem hnew, Nat.add_zero]
    | succ i => rw [ih hnames hi, Nat.add_right_comm, Nat.add_assoc]

/-- **The table of labels** leads each label to its own position and no other label to any. -/
theorem Sound.position?_eq_some_iff (hl : l.Sound) :
    l.position? label = some i ↔ l.labels[i]? = some label := by
  refine ⟨fun h => ?_, fun h => ?_⟩
  · by_cases hlabel : label ∈ l.labels
    · -- A later entry replaces an earlier one, but no label comes twice.
      obtain ⟨j, hj⟩ := List.getElem?_of_mem hlabel
      have hfound := lastPosition?_of_getElem? hl.nodup_labels hj 0 none
      rw [Nat.zero_add] at hfound
      rwa [← Option.some.inj (hfound.symm.trans h)]
    · rw [position?, lastPosition?_of_notMem hlabel] at h
      cases h
  · rw [position?, lastPosition?_of_getElem? hl.nodup_labels h, Nat.zero_add]

/-- Looking up a label in the table is looking up the field. -/
theorem Sound.field_of_position? (hl : l.Sound) (h : l.position? label = some i) :
    ∃ hi : i < l.fields.length, l.field label = .ok l.fields[i] := by
  have hlabel := hl.position?_eq_some_iff.mp h
  rw [labels, List.getElem?_map, Option.map_eq_some_iff] at hlabel
  obtain ⟨f, hf, rfl⟩ := hlabel
  obtain ⟨hi, rfl⟩ := List.getElem?_eq_some_iff.mp hf
  exact ⟨hi, hl.field_eq (List.getElem_mem hi)⟩

/-! ### Bounds -/

/-- What a layout computes without a check of its own stays in bounds: the sizes of a field and of
an element, the ranges of fields, elements and prefixes, the position of a label, and the addresses
that a dump shows. -/
structure InBounds (l : Layout) : Prop where
  totalSize_lt : ∀ f ∈ l.fields, f.totalSize < Word.count64
  bits_lt : ∀ f ∈ l.fields, f.unit * Field.byteBits < Word.count64
  holds_field : ∀ f ∈ l.fields, Buffer.Holds l.size f.offset f.totalSize
  holds_element : ∀ f ∈ l.fields, ∀ index start, l.element f index = .ok start →
    Buffer.Holds l.size start f.unit
  holds_range : ∀ start length stop, l.buffer.stop start length = .ok stop →
    stop = start + length ∧ Buffer.Holds l.size start length
  holds_prefix : ∀ data, Buffer.Holds l.size 0 (l.buffer.fitting data) ∧
    Buffer.Holds data.length 0 (l.buffer.fitting data)
  holds_text : ∀ f ∈ l.fields, ∀ text : String,
    Buffer.Holds f.totalSize 0 (min text.length f.totalSize) ∧
      Buffer.Holds (Text.Latin.encode text.toList).length 0 (min text.length f.totalSize)
  position_lt : ∀ label i, l.position? label = some i →
    ∃ hi : i < l.fields.length, l.field label = .ok l.fields[i]
  line_lt : ∀ i < (HexDump.rows l.bytes).length, HexDump.lineSize * i < Word.count64

theorem Sound.holds_field (hl : l.Sound) (hf : f ∈ l.fields) :
    Buffer.Holds l.size f.offset f.totalSize :=
  ⟨(hl.stop_le_size hf).trans_lt hl.size_lt, hl.stop_le_size hf⟩

theorem Sound.totalSize_lt (hl : l.Sound) (hf : f ∈ l.fields) : f.totalSize < Word.count64 :=
  (Nat.le_add_left _ _).trans_lt (hl.holds_field hf).1

/-- **In bounds.** Whatever a sound layout computes without a check of its own stays in bounds. -/
theorem Sound.inBounds (hl : l.Sound) : l.InBounds where
  totalSize_lt f hf := hl.totalSize_lt hf
  bits_lt f hf := by
    have hunit := hl.unit_cases hf
    simp only [Field.byteBits, Word.count64]
    omega
  holds_field f hf := hl.holds_field hf
  holds_element f hf index start h := by
    rw [element_eq hl.size_lt] at h
    split_ifs at h with hfits
    cases h
    exact ⟨hfits.trans_lt hl.size_lt, hfits⟩
  holds_range start length stop h := by
    obtain ⟨haddress, hinside, hstop⟩ := Buffer.stop_eq_ok_iff.mp h
    exact ⟨hstop, haddress, hinside⟩
  holds_prefix data := by
    have hsize : l.buffer.fitting data ≤ l.size := Nat.min_le_right _ _
    have hdata : l.buffer.fitting data ≤ data.length := Nat.min_le_left _ _
    have hlt := hsize.trans_lt hl.size_lt
    simp only [Buffer.Holds, Nat.zero_add]
    exact ⟨⟨hlt, hsize⟩, hlt, hdata⟩
  holds_text f hf text := by
    have hlt := (Nat.min_le_right text.length f.totalSize).trans_lt (hl.totalSize_lt hf)
    simp only [Buffer.Holds, Nat.zero_add, Text.Latin.length_encode, String.length_toList]
    exact ⟨⟨hlt, Nat.min_le_right _ _⟩, hlt, Nat.min_le_left _ _⟩
  position_lt _ _ h := hl.field_of_position? h
  line_lt _ hi := (HexDump.lineSize_mul_lt hi).trans hl.size_lt

/-! ### Whole runs -/

/-- What is left of a layout for a definition and a configuration, however it was used: it still has
their fields and settings and a buffer of the definition's size, every field lies in the buffer, the
faults of requests are those that can be told from the request, and nothing is computed out of
bounds. -/
structure Safe (config : Config) (d : Definition) (l : Layout) : Prop where
  config_eq : l.config = config
  fields_eq : l.fields = d.fields
  labels_eq : l.labels = d.fields.map Field.label
  size_eq : l.size = d.totalSize
  range_subset : ∀ f ∈ l.fields, f.range ⊆ Set.Ico 0 l.size
  perform_eq_error_iff : ∀ operation fault,
    (l.perform operation).1 = .error fault ↔ l.Refuses operation fault
  inBounds : l.InBounds

/-- **Safety.** A text and a configuration become a layout unless the text is no definition or there
is no memory for the buffer, and these are the faults that are reported. Whatever sequence of
requests the layout has served, succeeding or failing, it is safe. -/
theorem safe_run (granted : Nat → Bool) (text : String) (config : Config) :
    match Definition.parse text config.width config.padding with
    | .error reason => build granted text config = .error (.definition reason)
    | .ok d =>
      if granted d.totalSize then
        ∃ l, build granted text config = .ok l ∧
          ∀ operations : List Operation, Safe config d (l.run operations)
      else build granted text config = .error (.allocationFailed d.totalSize) := by
  rw [build_eq]
  cases hparse : Definition.parse text config.width config.padding with
  | error reason => rfl
  | ok d =>
    have hp := Definition.placed_of_parse hparse
    have hinitial : (initial config d).Sound :=
      sound_initial hp (Definition.nodup_labels_of_parse hparse)
    by_cases hgranted : granted d.totalSize = true
    · simp only [if_pos hgranted]
      refine ⟨_, rfl, fun operations => ?_⟩
      have hl := hinitial.run operations
      exact
        { config_eq := config_run _ operations
          fields_eq := fields_run _ operations
          labels_eq := congrArg (List.map Field.label) (fields_run _ operations)
          size_eq := (size_run _ operations).trans (size_initial hp)
          range_subset := fun f hf a ha => ⟨Nat.zero_le a, ha.2.trans_le (hl.stop_le_size hf)⟩
          perform_eq_error_iff := fun _ _ => hl.perform_eq_error_iff
          inBounds := hl.inBounds }
    · simp only [if_neg hgranted]

end Layout

end BinaryLayout
