import BinaryLayout.Json.Text
import BinaryLayout.Proofs.Json.Grammar
import BinaryLayout.Proofs.Text.Numerals

/-!
# Strings that are read, passed over and written

A string that the grammar allows is read as its content: every escape is undone, the two halves of a
surrogate pair become one character, and a string in which half a pair stands alone is refused. To
pass over a string its escapes need not mean anything. What is written for a text is one of its
spellings.

## Main results

* `Spells.readText_eq`: reading finds the content of a string.
* `Spells.skipText_eq`: passing over a string ends behind its closing quote.
* `spells_flatMap_writtenChar`: what is written for a text spells it.
-/

namespace BinaryLayout.Json

open Text (Numeral)

variable {c d : Char} {content : Content} {s t rest : List Char} {n m : Nat}

/-! ### Code units -/

theorem length_le_utf8ByteSize_ofList (s : List Char) :
    s.length ≤ (String.ofList s).utf8ByteSize := by
  induction s with
  | nil => exact Nat.zero_le _
  | cons c s ih =>
    have hc := c.utf8Size_pos
    rw [List.length_cons, String.ofList_cons, String.utf8ByteSize_append,
      String.utf8ByteSize_singleton]
    omega

theorem readHex_append (hlength : s.length = 4) (h : Numeral 16 s n) (rest : List Char) :
    readHex (s ++ rest) = .ok (n, rest) := by
  have hsize := length_le_utf8ByteSize_ofList s
  rw [readHex, escapeDigits, ← hlength, List.take_left, List.drop_left]
  simp only [if_neg (Nat.not_lt.mpr hsize), Text.numeral?_eq_some_iff.mpr h]

theorem isLeading_iff : isLeading n = true ↔ Leading n := by
  simp [isLeading, Leading]

theorem isTrailing_iff : isTrailing n = true ↔ Trailing n := by
  simp [isTrailing, Trailing]

/-- A character is no half of a surrogate pair. -/
theorem not_half_toNat (c : Char) : ¬ Leading c.toNat ∧ ¬ Trailing c.toNat := by
  have hvalid : c.toNat < 0xD800 ∨ 0xDFFF < c.toNat ∧ c.toNat < 0x110000 := c.valid
  simp only [Leading, Trailing]
  omega

theorem CodeUnit.readTrailing_eq (h : CodeUnit m s) (n : Nat) (rest : List Char) :
    readTrailing n (s ++ rest) =
      if Trailing m then .ok (pairedChar n m, rest) else .error .malformed := by
  obtain ⟨hlength, hdigits⟩ := h
  simp only [readTrailing, List.cons_append, takeWord, if_true, readHex_append hlength hdigits,
    isTrailing_iff]

/-- The escape of a code unit is read as a character, together with the next escape if it is a first
half. -/
theorem CodeUnit.readEscape_eq (h : CodeUnit n s) : ∃ t, s = '\\' :: t ∧ ∀ rest,
    readEscape (t ++ rest) =
      if Trailing n then .error .malformed
      else if Leading n then readTrailing n rest else .ok (Char.ofNat n, rest) := by
  obtain ⟨hlength, hdigits⟩ := h
  refine ⟨_, rfl, fun rest => ?_⟩
  simp only [List.cons_append, readEscape, if_true, readCodeUnit, readHex_append hlength hdigits,
    isTrailing_iff, isLeading_iff]

/-! ### Reading -/

theorem readText_quote (rest : List Char) : readText ('"' :: rest) = .ok ([], rest) := by
  rw [readText, if_pos rfl]

theorem readText_plain (hquote : c ≠ '"') (hbackslash : c ≠ '\\') (hcontrol : 0x20 ≤ c.toNat)
    (rest : List Char) : readText (c :: rest) = (readText rest).push c := by
  have hplain : ¬ isControl c = true := by simpa [isControl] using hcontrol
  rw [readText, if_neg hquote, if_neg hbackslash, if_neg hplain]

theorem readText_backslash (s : List Char) : readText ('\\' :: s) =
    match readEscape s with
    | .error fault => .error fault
    | .ok (c, rest) => (readText rest).push c := by
  rw [readText, if_neg (by decide), if_pos rfl]
  split
  · next hread => rw [hread]
  · next hread => rw [hread]

theorem readText_escape (h : readEscape s = .ok (c, rest)) :
    readText ('\\' :: s) = (readText rest).push c := by
  rw [readText_backslash, h]

theorem readText_escape_error {fault : Fault} (h : readEscape s = .error fault) :
    readText ('\\' :: s) = .error fault := by
  rw [readText_backslash, h]

theorem escapeLetter?_of_mem (h : (d, c) ∈ escapes) : d ≠ 'u' ∧ escapeLetter? d = some c :=
  (by decide : ∀ entry ∈ escapes, entry.1 ≠ 'u' ∧ escapeLetter? entry.1 = some entry.2) _ h

theorem readEscape_letter (h : (d, c) ∈ escapes) (rest : List Char) :
    readEscape (d :: rest) = .ok (c, rest) := by
  obtain ⟨hu, hletter⟩ := escapeLetter?_of_mem h
  simp only [readEscape, if_neg hu, hletter]

/-- Every spelling of a character is read as the character. -/
theorem SpellsChar.readText_eq (h : SpellsChar c s) (rest : List Char) :
    readText (s ++ rest) = (readText rest).push c := by
  cases h with
  | plain hquote hbackslash hcontrol => exact readText_plain hquote hbackslash hcontrol rest
  | letter h => exact readText_escape (readEscape_letter h rest)
  | codeUnit h =>
    obtain ⟨hleading, htrailing⟩ := not_half_toNat c
    obtain ⟨t, rfl, hread⟩ := h.readEscape_eq
    rw [List.cons_append]
    refine readText_escape ?_
    rw [hread, if_neg htrailing, if_neg hleading, Char.ofNat_toNat]
  | @pair n m s t hs ht hn hm hc =>
    have hfirst : ¬ Trailing n := fun h => absurd h.1 (Nat.not_le.mpr hn.2)
    have hpaired : pairedChar n m = c := by rw [pairedChar, ← hc, Char.ofNat_toNat]
    obtain ⟨u, rfl, hread⟩ := hs.readEscape_eq
    rw [List.append_assoc, List.cons_append]
    refine readText_escape ?_
    rw [hread, if_neg hfirst, if_pos hn, ht.readTrailing_eq, if_pos hm, hpaired]

/-- A first half with no second half behind it is refused. -/
theorem Spells.exists_readTrailing_error (h : Spells content t)
    (halone : ∀ m u, CodeUnit m u → u <+: t → ¬ Trailing m) (n : Nat) (rest : List Char) :
    ∃ fault, readTrailing n (t ++ '"' :: rest) = .error fault := by
  have hunit {m : Nat} {u v : List Char} (hu : CodeUnit m u) (ht : t = u ++ v) :
      ∃ fault, readTrailing n (t ++ '"' :: rest) = .error fault := by
    have hm := halone m u hu ⟨v, ht.symm⟩
    rw [ht, List.append_assoc, hu.readTrailing_eq, if_neg hm]
    exact ⟨_, rfl⟩
  cases h with
  | nil => exact ⟨_, rfl⟩
  | char hc =>
    cases hc with
    | plain hquote hbackslash =>
      simp only [readTrailing, List.cons_append, takeWord, if_neg hbackslash]
      exact ⟨_, rfl⟩
    | letter h =>
      simp only [readTrailing, List.cons_append, takeWord, if_true,
        if_neg (escapeLetter?_of_mem h).1]
      exact ⟨_, rfl⟩
    | codeUnit hs => exact hunit hs rfl
    | pair hs => exact hunit hs (List.append_assoc ..)
  | half hs => exact hunit hs rfl

theorem toOption_push (c : Char) (r : Reading (List Char)) :
    (r.push c).toOption = r.toOption.map fun found => (c :: found.1, found.2) := by
  cases r <;> rfl

/-- **Strings.** A string is read as its content, and refused if it has none. -/
theorem Spells.readText_eq (h : Spells content s) (rest : List Char) :
    (readText (s ++ '"' :: rest)).toOption = content.map (·, rest) := by
  induction h with
  | nil =>
    rw [List.nil_append, readText_quote]
    rfl
  | char hc _ ih =>
    rw [List.append_assoc, hc.readText_eq, toOption_push, ih, Option.map_map, Option.map_map]
    rfl
  | @half n content s t hs hn h =>
    obtain ⟨u, rfl, hread⟩ := hs.readEscape_eq
    have herror := hread (t ++ '"' :: rest)
    rw [List.append_assoc, List.cons_append]
    rcases hn with htrailing | ⟨hleading, halone⟩
    · rw [if_pos htrailing] at herror
      rw [readText_escape_error herror]
      rfl
    · obtain ⟨fault, hfault⟩ := h.exists_readTrailing_error halone n rest
      have hfirst : ¬ Trailing n := fun h => absurd h.1 (Nat.not_le.mpr hleading.2)
      rw [if_neg hfirst, if_pos hleading, hfault] at herror
      rw [readText_escape_error herror]
      rfl

/-! ### Passing over -/

theorem CodeUnit.skipText_eq (h : CodeUnit n s) (rest : List Char) :
    skipText (s ++ rest) = skipText rest := by
  obtain ⟨hlength, hdigits⟩ := h
  rw [List.cons_append, List.cons_append, skipText.eq_def]
  simp only [if_neg (by decide : ¬ '\\' = '"'), if_true]
  split
  · next hread =>
    rw [readHex_append hlength hdigits] at hread
    cases hread
  · next hread =>
    rw [readHex_append hlength hdigits] at hread
    cases hread
    rfl

theorem SpellsChar.skipText_eq (h : SpellsChar c s) (rest : List Char) :
    skipText (s ++ rest) = skipText rest := by
  cases h with
  | plain hquote hbackslash hcontrol =>
    have hplain : ¬ isControl c = true := by simpa [isControl] using hcontrol
    rw [List.singleton_append, skipText.eq_def]
    simp only [if_neg hquote, if_neg hbackslash, if_neg hplain]
  | letter h =>
    obtain ⟨hu, hletter⟩ := escapeLetter?_of_mem h
    rw [List.cons_append, List.singleton_append, skipText.eq_def]
    simp only [if_neg (by decide : ¬ '\\' = '"'), if_true, if_neg hu, hletter, Option.isSome_some]
  | codeUnit h => exact h.skipText_eq rest
  | pair hs ht => rw [List.append_assoc, hs.skipText_eq, ht.skipText_eq]

/-- Passing over a string ends behind its closing quote, whatever the string stands for. -/
theorem Spells.skipText_eq (h : Spells content s) (rest : List Char) :
    skipText (s ++ '"' :: rest) = .ok rest := by
  induction h with
  | nil =>
    rw [List.nil_append, skipText.eq_def]
    exact if_pos rfl
  | char hc _ ih => rw [List.append_assoc, hc.skipText_eq, ih]
  | half hs _ _ ih => rw [List.append_assoc, hs.skipText_eq, ih]

/-! ### Writing -/

theorem spellsChar_writtenChar (c : Char) : SpellsChar c (writtenChar c) := by
  unfold writtenChar
  split
  · exact .letter (by decide)
  · exact .letter (by decide)
  · exact .letter (by decide)
  · exact .letter (by decide)
  · exact .letter (by decide)
  · exact .letter (by decide)
  · exact .letter (by decide)
  · next hquote hbackslash _ _ _ _ _ =>
    split
    · next hcontrol =>
      have hlt : c.toNat < 16 ^ escapeDigits := by
        have hsmall : c.toNat < 0x20 := by simpa [isControl] using hcontrol
        exact hsmall.trans (by decide)
      exact .codeUnit (.digits (Text.length_hexadecimal (by decide) hlt)
        (Text.numeral_hexadecimal escapeDigits c.toNat))
    · next hcontrol => exact .plain hquote hbackslash (by simpa [isControl] using hcontrol)

/-- What is written for a text spells it. -/
theorem spells_flatMap_writtenChar (s : List Char) : Spells (some s) (s.flatMap writtenChar) := by
  induction s with
  | nil => exact .nil
  | cons c s ih => exact @Spells.char c (some s) _ _ (spellsChar_writtenChar c) ih

/-- A text in which nothing is to be escaped spells itself. -/
theorem spells_self (h : s.flatMap writtenChar = s) : Spells (some s) s := by
  simpa only [h] using spells_flatMap_writtenChar s

end BinaryLayout.Json
