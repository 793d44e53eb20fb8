import BinaryLayout.Proofs.Layout.Accessors
import BinaryLayout.Proofs.Layout.Run
import BinaryLayout.Proofs.Text.Latin

/-!
# Texts in fields

A text that is stored in a field takes one byte for each character. As many characters are stored as
the field has bytes, the rest of the field is filled with zeros, and nothing outside the field is
touched. A text of which nothing is stored leaves the layout as it was; so a field cannot be cleared
with the text that has no characters. What is read afterwards are the characters of these bytes, the
zeros included, or the characters before the first zero.

## Main definitions

* `Layout.textCodes`: the codes that a text leaves in a field.
* `Layout.HoldsCodes`: a layout after codes have been stored in a field.

## Main results

* `Layout.map_toNat_paddedText`: the bytes that are stored for a text.
* `Layout.Sound.holdsCodes_patch`: what replacing the bytes of a field does to a layout.
* `Layout.text_stored_and_read`: what storing a text does, and what is read afterwards.
-/

namespace BinaryLayout.Layout

variable {l : Layout} {f : Field} {text : String} {size : Nat}

/-! ### The bytes of a text -/

/-- The codes that a text leaves in a field of a size: those of its characters, as many as fit, and
zeros behind them. -/
def textCodes (text : String) (size : Nat) : List Nat :=
  (text.toList.map Text.Latin.storedCode).take (min text.length size) ++
    List.replicate (size - min text.length size) 0

theorem map_toNat_paddedText (text : String) (size : Nat) :
    (paddedText text size).map UInt8.toNat = textCodes text size := by
  have hlength : (Text.Latin.encode text.toList).length = text.length := by
    rw [Text.Latin.length_encode, String.length_toList]
  -- The text itself is cut at its length or at that of the field, whichever comes first.
  have htake : (Text.Latin.encode text.toList).take size =
      (Text.Latin.encode text.toList).take (min text.length size) := by
    rw [← hlength, Nat.min_comm, List.take_eq_take_min]
  rw [paddedText, textCodes, List.map_append, List.map_replicate, htake, List.map_take,
    Text.Latin.map_toNat_encode, List.length_take, hlength,
    Nat.min_eq_left (Nat.min_le_left _ size)]
  rfl

/-- A text without NULs that fits is read back up to the zeros behind it. -/
theorem beforeNul_decode_paddedText
    (hchars : ∀ c ∈ text.toList, c ≠ '\x00' ∧ c.toNat ≤ 0xFF) (hsize : text.length ≤ size) :
    Text.Latin.beforeNul (Text.Latin.decode (paddedText text size)) = text.toList := by
  have hnul : '\x00' ∉ text.toList := fun h => (hchars _ h).1 rfl
  have htake : (Text.Latin.encode text.toList).take size = Text.Latin.encode text.toList := by
    refine List.take_of_length_le ?_
    rwa [Text.Latin.length_encode, String.length_toList]
  rw [paddedText, htake, Text.Latin.decode_append, Text.Latin.decode_replicate_zero,
    Text.Latin.decode_encode fun c hc => (hchars c hc).2,
    Text.Latin.beforeNul_append_replicate hnul]

/-! ### Storing bytes in a field -/

/-- A layout after codes have been stored in a field of another one: they are the bytes of the
field, and everything else is as it was. -/
structure HoldsCodes (f : Field) (codes : List Nat) (l l' : Layout) : Prop where
  config_eq : l'.config = l.config
  fields_eq : l'.fields = l.fields
  size_eq : l'.size = l.size
  content_eq : (f.content l'.bytes).map UInt8.toNat = codes
  kept : ∀ a, a ∉ f.range → l'.bytes[a]? = l.bytes[a]?

namespace Sound

variable (hl : l.Sound) (hf : f ∈ l.fields) {new : List UInt8}

include hl hf

theorem content_patch (hnew : new.length = f.totalSize) :
    f.content (l.patch f.offset new).bytes = new := by
  rw [Field.content, bytes_patch, ← hnew]
  exact Buffer.slice_patched_self (hnew ▸ hl.stop_le_size hf)

theorem holdsCodes_patch (hnew : new.length = f.totalSize) :
    HoldsCodes f (new.map UInt8.toNat) l (l.patch f.offset new) where
  config_eq := rfl
  fields_eq := rfl
  size_eq := size_patch (hnew ▸ hl.stop_le_size hf)
  content_eq := by rw [hl.content_patch hf hnew]
  kept a ha := by
    have hfits : f.offset + new.length ≤ l.bytes.length := hnew ▸ hl.stop_le_size hf
    rw [bytes_patch, Buffer.getElem?_patched hfits, hnew, if_neg]
    rintro ⟨hle, hlt⟩
    exact ha ⟨hle, hlt⟩

/-! ### Requests for texts -/

theorem perform_sizeOf : l.perform (.sizeOf f.label) = (.ok (.number f.totalSize), l) := by
  simp only [Layout.perform, sizeOf, hl.field_eq hf, Except.map, reading]

theorem perform_setString (text : String) : l.perform (.setString f.label text) =
    (.ok (.number (min text.length f.totalSize)), if min text.length f.totalSize = 0 then l
      else l.patch f.offset (paddedText text f.totalSize)) := by
  simp only [Layout.perform, hl.setString_eq hf, Except.map, writing]

theorem perform_getString (h : f.totalSize ≠ 0) : l.perform (.getString f.label) =
    (.ok (.optionalText (some (String.ofList (Text.Latin.decode (f.content l.bytes))))), l) := by
  simp only [Layout.perform, hl.getString_eq hf, if_neg h, reading]

theorem perform_getCString (h : f.totalSize ≠ 0) : l.perform (.getCString f.label) =
    (.ok (.optionalText (some (String.ofList
      (Text.Latin.beforeNul (Text.Latin.decode (f.content l.bytes)))))), l) := by
  simp only [Layout.perform, hl.getCString_eq hf, if_neg h, reading]

end Sound

/-- **Texts.** Storing a text in a field of a reachable layout answers with the number of characters
that are stored, all of them or as many as the field has bytes. If there are none the layout stays
as it was; otherwise the codes of these characters and zeros behind them become the bytes of the
field, and no other byte changes. What is read then are the characters with these codes, or the
longest beginning of them without a NUL, which is the text itself if it has characters, no NUL among
them and none that a byte cannot hold, and if it fits. -/
theorem text_stored_and_read (hl : l.Reachable) (hf : f ∈ l.fields) (text : String) :
    let stored := min text.length f.totalSize
    let l' := (l.perform (.setString f.label text)).2
    (l.perform (.sizeOf f.label)).1 = .ok (.number f.totalSize) ∧
      (l.perform (.setString f.label text)).1 = .ok (.number stored) ∧
      (if stored = 0 then l' = l
        else HoldsCodes f (textCodes text f.totalSize) l l' ∧
          ∃ whole cut : String,
            (l'.perform (.getString f.label)).1 = .ok (.optionalText (some whole)) ∧
            whole.toList.map Char.toNat = textCodes text f.totalSize ∧
            (l'.perform (.getCString f.label)).1 = .ok (.optionalText (some cut)) ∧
            Text.Latin.IsCut cut.toList whole.toList) ∧
      (text ≠ "" → (∀ c ∈ text.toList, c ≠ '\x00' ∧ c.toNat ≤ 0xFF) →
        text.length ≤ f.totalSize →
        (l'.perform (.getCString f.label)).1 = .ok (.optionalText (some text))) := by
  intro stored l'
  have hl := hl.sound
  have hpadded := length_paddedText text f.totalSize
  have hwrite := hl.perform_setString hf text
  have hfits : f.offset + (paddedText text f.totalSize).length ≤ l.size :=
    hpadded.symm ▸ hl.stop_le_size hf
  have hl' : stored ≠ 0 → l' = l.patch f.offset (paddedText text f.totalSize) := fun h => by
    rw [show l' = _ from congrArg Prod.snd hwrite, if_neg h]
  have hcontent := hl.content_patch hf hpadded
  refine ⟨congrArg Prod.fst (hl.perform_sizeOf hf), congrArg Prod.fst hwrite, ?_, ?_⟩
  · split_ifs with h
    · rw [show l' = _ from congrArg Prod.snd hwrite, if_pos h]
    · have hsize : f.totalSize ≠ 0 := fun h0 => h (by omega)
      rw [hl' h, ← map_toNat_paddedText]
      refine ⟨hl.holdsCodes_patch hf hpadded, _, _,
        congrArg Prod.fst ((hl.patch hfits).perform_getString hf hsize), ?_,
        congrArg Prod.fst ((hl.patch hfits).perform_getCString hf hsize), ?_⟩
      · rw [String.toList_ofList, Text.Latin.map_toNat_decode, hcontent]
      · rw [String.toList_ofList, String.toList_ofList]
        exact Text.Latin.isCut_beforeNul _
  · intro htext hchars hle
    have hpos : text.length ≠ 0 := fun h0 => htext (String.length_eq_zero_iff.mp h0)
    rw [hl' (show min text.length f.totalSize ≠ 0 by omega),
      (hl.patch hfits).perform_getCString hf (by omega), hcontent,
      beforeNul_decode_paddedText hchars hle, String.ofList_toList]

/-- A text of one character beyond ASCII in a field of two bytes that held something else: one byte
is stored and one is cleared. -/
theorem text_stored_and_read_acute :
    let n : Field := ⟨"n", .space, 2, 1, 1⟩
    let built : Layout := ⟨⟨.bits32, .big, .none⟩,
      [⟨"v", .constant, 1, 0, 1⟩, n, ⟨"z", .constant, 1, 3, 9⟩], ⟨[1, 0, 0, 9]⟩⟩
    let l := built.run [.setBytes [5, 6, 7]]
    let l' := (l.perform (.setString "n" "\u00e9")).2
    l.Reachable ∧ n ∈ l.fields ∧
      (l.perform (.setString "n" "\u00e9")).1 = .ok (.number 1) ∧
      HoldsCodes n [0xE9, 0] l l' ∧
      (l'.perform (.getCString "n")).1 = .ok (.optionalText (some "\u00e9")) := by
  intro n built l l'
  have hbuilt : build (· ≤ 1024) "v dc.b 1 n ds.w 1 z dc.b 9"
      ⟨.bits32, .big, .none⟩ = .ok built := by decide +kernel
  have hl : l.Reachable := ⟨_, _, _, built, _, hbuilt, rfl⟩
  have hf : n ∈ l.fields := List.mem_cons_of_mem _ List.mem_cons_self
  obtain ⟨-, hstored, hheld, hread⟩ := text_stored_and_read hl hf "\u00e9"
  rw [if_neg (by decide)] at hheld
  exact ⟨hl, hf, hstored, hheld.1, hread (by decide) (by simp) (by decide)⟩

end BinaryLayout.Layout
