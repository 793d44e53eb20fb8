import BinaryLayout.Proofs.Layout.Strings

/-!
# Texts written back

Every byte is a character and that character is written as the byte, so the text that is read from a
field is stored as the bytes of the field, and nothing changes. The text up to the first NUL is
shorter: storing it clears what stands behind it, after which it is still what is read, and storing
it again changes nothing. If the field begins with a NUL that text is empty; then nothing is stored,
and the bytes behind the NUL stay.

## Main results

* `Layout.Sound.patch_content`: a field whose bytes are put back.
* `Layout.Sound.perform_setString_again`: a text that is stored a second time.
* `Layout.texts_written_back`: what reading a text and storing it does.
-/

namespace BinaryLayout.Layout

variable {l : Layout} {f : Field} {text : String} {size : Nat}

/-! ### Texts that were read from bytes -/

/-- The text of bytes is stored as these bytes. -/
theorem paddedText_decode (bytes : List UInt8) :
    paddedText (String.ofList (Text.Latin.decode bytes)) bytes.length = bytes := by
  rw [paddedText, String.toList_ofList, Text.Latin.encode_decode, List.take_length, Nat.sub_self,
    List.replicate_zero, List.append_nil]

/-- A text that bytes can hold and that fits leaves its own codes and zeros behind them. -/
theorem textCodes_eq (hchars : ∀ c ∈ text.toList, c.toNat ≤ 0xFF) (hsize : text.length ≤ size) :
    textCodes text size =
      text.toList.map Char.toNat ++ List.replicate (size - text.length) 0 := by
  have hcodes : text.toList.map Text.Latin.storedCode = text.toList.map Char.toNat :=
    List.map_congr_left fun c hc => if_pos (hchars c hc)
  have hlength : (text.toList.map Char.toNat).length = text.length := by
    rw [List.length_map, String.length_toList]
  rw [textCodes, hcodes, Nat.min_eq_left hsize, List.take_of_length_le hlength.le]

/-! ### Storing what is there -/

namespace Sound

variable (hl : l.Sound) (hf : f ∈ l.fields)

include hl hf

/-- A field whose bytes are put back leaves the layout as it was. -/
theorem patch_content : l.patch f.offset (f.content l.bytes) = l := by
  have hbytes : Buffer.patched l.bytes f.offset (f.content l.bytes) = l.bytes :=
    Buffer.patched_slice (hl.stop_le_size hf)
  rw [Layout.patch, hbytes]
  rfl

/-- A text that is stored a second time is answered as the first time and changes nothing. -/
theorem perform_setString_again (text : String) :
    let l' := (l.perform (.setString f.label text)).2
    l'.perform (.setString f.label text) = ((l.perform (.setString f.label text)).1, l') := by
  intro l'
  have hl' : l'.Sound := hl.perform _
  have hf' : f ∈ l'.fields := (fields_perform l _).symm ▸ hf
  have hfirst := hl.perform_setString hf text
  rw [hl'.perform_setString hf' text, hfirst]
  refine Prod.ext rfl ?_
  split_ifs with h
  · rfl
  · have hcontent : f.content l'.bytes = paddedText text f.totalSize := by
      rw [show l' = _ from congrArg Prod.snd hfirst, if_neg h]
      exact hl.content_patch hf (length_paddedText text f.totalSize)
    rw [← hcontent]
    exact hl'.patch_content hf'

/-- The text of a field is stored as a whole and changes nothing. -/
theorem perform_setString_decode_content :
    l.perform (.setString f.label (String.ofList (Text.Latin.decode (f.content l.bytes)))) =
      (.ok (.number f.totalSize), l) := by
  have hlength := hl.length_content hf
  have hpadded := paddedText_decode (f.content l.bytes)
  rw [hlength] at hpadded
  rw [hl.perform_setString hf, String.length_ofList, Text.Latin.length_decode, hlength,
    Nat.min_self, hpadded, hl.patch_content hf, ite_self]

/-- The text of a field up to its first NUL is one that bytes can hold, without NULs and no longer
than the field. -/
theorem beforeNul_decode_content :
    let cut := Text.Latin.beforeNul (Text.Latin.decode (f.content l.bytes))
    (∀ c ∈ cut, c ≠ '\x00' ∧ c.toNat ≤ 0xFF) ∧ cut.length ≤ f.totalSize := by
  intro cut
  have hcut := Text.Latin.isCut_beforeNul (Text.Latin.decode (f.content l.bytes))
  refine ⟨fun c hc => ⟨?_, ?_⟩, ?_⟩
  · rintro rfl
    exact hcut.nul_notMem hc
  · exact Text.Latin.toNat_le_of_mem_decode (hcut.begins.subset hc)
  · have hle := hcut.begins.length_le
    rwa [Text.Latin.length_decode, hl.length_content hf] at hle

/-- What storing the text up to the first NUL leaves: the layout as it was if the text is empty, and
otherwise the text and zeros behind it in the field; in either case the text is read again. -/
theorem perform_setString_beforeNul (hsize : f.totalSize ≠ 0)
    (hcut : text = String.ofList (Text.Latin.beforeNul (Text.Latin.decode (f.content l.bytes)))) :
    let l' := (l.perform (.setString f.label text)).2
    (l.perform (.setString f.label text)).1 = .ok (.number text.length) ∧
      (l'.perform (.getCString f.label)).1 = .ok (.optionalText (some text)) ∧
      (if text = "" then l' = l
        else HoldsCodes f
          (text.toList.map Char.toNat ++ List.replicate (f.totalSize - text.length) 0) l l') := by
  intro l'
  obtain ⟨hchars, hle⟩ := hl.beforeNul_decode_content hf
  have htext : text.toList = Text.Latin.beforeNul (Text.Latin.decode (f.content l.bytes)) := by
    rw [hcut, String.toList_ofList]
  rw [← htext] at hchars hle
  rw [String.length_toList] at hle
  have hwrite := hl.perform_setString hf text
  rw [Nat.min_eq_left hle] at hwrite
  refine ⟨congrArg Prod.fst hwrite, ?_⟩
  by_cases hempty : text = ""
  · -- Nothing is stored, and the text is what is read as before.
    have hsame : l' = l := by
      rw [show l' = _ from congrArg Prod.snd hwrite, if_pos (String.length_eq_zero_iff.mpr hempty)]
    rw [if_pos hempty, hsame, hl.perform_getCString hf hsize, ← hcut]
    exact ⟨rfl, rfl⟩
  · have hstored : l' = l.patch f.offset (paddedText text f.totalSize) := by
      rw [show l' = _ from congrArg Prod.snd hwrite,
        if_neg fun h => hempty (String.length_eq_zero_iff.mp h)]
    have hpadded := length_paddedText text f.totalSize
    have hl' : (l.patch f.offset (paddedText text f.totalSize)).Sound :=
      hl.patch (hpadded.symm ▸ hl.stop_le_size hf)
    rw [if_neg hempty, hstored, hl'.perform_getCString hf hsize, hl.content_patch hf hpadded,
      beforeNul_decode_paddedText hchars hle, String.ofList_toList,
      ← textCodes_eq (fun c hc => (hchars c hc).2) hle, ← map_toNat_paddedText]
    exact ⟨rfl, hl.holdsCodes_patch hf hpadded⟩

end Sound

/-- **Texts written back.** In a reachable layout a field has a text unless it has no bytes. Storing
the text in the field answers with the size of the field and changes nothing. Storing the text up to
the first NUL leaves it to be read again: the field then holds that text and zeros behind it and the
bytes outside the field are as they were, or nothing has changed if the text is empty. Storing it
once more changes nothing. -/
theorem texts_written_back (hl : l.Reachable) (hf : f ∈ l.fields) :
    (∃ whole, (l.perform (.getString f.label)).1 = .ok (.optionalText whole) ∧
        (whole = none ↔ f.totalSize = 0) ∧
        ∀ text, whole = some text →
          l.perform (.setString f.label text) = (.ok (.number f.totalSize), l)) ∧
      ∃ cut, (l.perform (.getCString f.label)).1 = .ok (.optionalText cut) ∧
        (cut = none ↔ f.totalSize = 0) ∧
        ∀ text, cut = some text →
          let l' := (l.perform (.setString f.label text)).2
          (l.perform (.setString f.label text)).1 = .ok (.number text.length) ∧
            (l'.perform (.getCString f.label)).1 = .ok (.optionalText (some text)) ∧
            (if text = "" then l' = l
              else HoldsCodes f
                (text.toList.map Char.toNat ++ List.replicate (f.totalSize - text.length) 0) l l') ∧
            l'.perform (.setString f.label text) = (.ok (.number text.length), l') := by
  have hl := hl.sound
  have hwhole := hl.getString_eq hf
  have hcut := hl.getCString_eq hf
  by_cases hsize : f.totalSize = 0
  · rw [if_pos hsize] at hwhole hcut
    refine ⟨⟨none, ?_, by simp [hsize], fun _ h => nomatch h⟩, none, ?_, by simp [hsize],
      fun _ h => nomatch h⟩
    · simp only [perform, hwhole, reading]
    · simp only [perform, hcut, reading]
  · refine ⟨⟨_, congrArg Prod.fst (hl.perform_getString hf hsize), by simp [hsize], ?_⟩,
      _, congrArg Prod.fst (hl.perform_getCString hf hsize), by simp [hsize], ?_⟩
    · rintro text ⟨⟩
      exact hl.perform_setString_decode_content hf
    · rintro text ⟨⟩ l'
      obtain ⟨hanswer, hread, hheld⟩ := hl.perform_setString_beforeNul hf hsize rfl
      refine ⟨hanswer, hread, hheld, ?_⟩
      rw [← hanswer]
      exact hl.perform_setString_again hf _

/-- A character beyond ASCII, a NUL and a letter behind it: the three are stored as they were read,
and what is read up to the NUL clears the letter. -/
theorem texts_written_back_letter_behind_nul :
    let n : Field := ⟨"n", .space, 1, 1, 3⟩
    let built : Layout := ⟨⟨.bits32, .big, .none⟩,
      [⟨"v", .constant, 1, 0, 1⟩, n, ⟨"z", .constant, 1, 4, 9⟩], ⟨[1, 0, 0, 0, 9]⟩⟩
    let l := built.run [.setBytes [1, 0xE9, 0, 65]]
    let l' := (l.perform (.setString "n" "\u00e9")).2
    l.Reachable ∧ n ∈ l.fields ∧
      (l.perform (.getString "n")).1 = .ok (.optionalText (some "\u00e9\x00A")) ∧
      l.perform (.setString "n" "\u00e9\x00A") = (.ok (.number 3), l) ∧
      (l'.perform (.getCString "n")).1 = .ok (.optionalText (some "\u00e9")) ∧
      HoldsCodes n [0xE9, 0, 0] l l' ∧
      l'.perform (.setString "n" "\u00e9") = (.ok (.number 1), l') := by
  intro n built l l'
  have hbuilt : build (· ≤ 1024) "v dc.b 1 n ds.b 3 z dc.b 9"
      ⟨.bits32, .big, .none⟩ = .ok built := by decide +kernel
  have hl : l.Reachable := ⟨_, _, _, built, _, hbuilt, rfl⟩
  have hf : n ∈ l.fields := List.mem_cons_of_mem _ List.mem_cons_self
  have hwhole : (l.perform (.getString "n")).1 =
      .ok (.optionalText (some "\u00e9\x00A")) := by decide +kernel
  have hcut : (l.perform (.getCString "n")).1 = .ok (.optionalText (some "\u00e9")) := by
    decide +kernel
  obtain ⟨⟨whole, hwhole', -, hback⟩, cut, hcut', -, hagain⟩ := texts_written_back hl hf
  obtain rfl : some "\u00e9\x00A" = whole := by simpa using hwhole.symm.trans hwhole'
  obtain rfl : some "\u00e9" = cut := by simpa using hcut.symm.trans hcut'
  obtain ⟨-, hread, hheld, htwice⟩ := hagain _ rfl
  rw [if_neg (by decide)] at hheld
  exact ⟨hl, hf, hwhole, hback _ rfl, hread, hheld, htwice⟩

end BinaryLayout.Layout
