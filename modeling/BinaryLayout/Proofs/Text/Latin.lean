import BinaryLayout.Text.Basic
import Mathlib.Data.List.Infix
import Mathlib.Data.List.TakeWhile
import Mathlib.Tactic.Common

/-!
# Single-byte text by code points

A character is stored as its code point if a byte can hold it, and otherwise as a question mark.
What is read from bytes are the characters whose code points the bytes are, so a text of characters
that bytes can hold is read back as it was. The text before the first NUL is the longest beginning
without a NUL.

## Main definitions

* `storedCode`: the code point that a character is stored as.
* `IsCut`: the longest beginning of a text without a NUL.

## Main results

* `toNat_encodeChar`, `map_toNat_decode`: bytes and characters by their code points.
* `decode_encode`: a text that bytes can hold is read back.
* `isCut_beforeNul`: the text before the first NUL.
-/

namespace BinaryLayout.Text.Latin

variable {s : List Char}

/-- The code point that a character is stored as: its own if a byte can hold it, and otherwise that
of the question mark. -/
def storedCode (c : Char) : Nat := if c.toNat ≤ 0xFF then c.toNat else '?'.toNat

theorem toNat_encodeChar (c : Char) : (encodeChar c).toNat = storedCode c := by
  rw [encodeChar, storedCode]
  by_cases h : c.toNat < 256
  · rw [if_pos h, if_pos (Nat.le_of_lt_succ h), UInt8.toNat_ofNat', Nat.mod_eq_of_lt h]
  · rw [if_neg h, if_neg (by omega)]
    rfl

theorem map_toNat_encode (s : List Char) : (encode s).map UInt8.toNat = s.map storedCode := by
  rw [encode, List.map_map]
  exact List.map_congr_left fun c _ => toNat_encodeChar c

theorem map_toNat_decode (bytes : List UInt8) :
    (decode bytes).map Char.toNat = bytes.map UInt8.toNat := by
  rw [decode, List.map_map]
  exact List.map_congr_left fun b _ => toNat_ofNat_byte b

theorem decode_append (bytes bytes' : List UInt8) :
    decode (bytes ++ bytes') = decode bytes ++ decode bytes' :=
  List.map_append

theorem decode_replicate_zero (n : Nat) : decode (List.replicate n 0) = List.replicate n '\x00' :=
  List.map_replicate

/-- Every character that is read from bytes is one that a byte can hold. -/
theorem toNat_le_of_mem_decode {c : Char} {bytes : List UInt8} (h : c ∈ decode bytes) :
    c.toNat ≤ 0xFF := by
  obtain ⟨b, -, rfl⟩ := List.mem_map.mp h
  rw [toNat_ofNat_byte]
  exact Nat.le_of_lt_succ b.toNat_lt

/-- A text of characters that bytes can hold is read back. -/
theorem decode_encode (h : ∀ c ∈ s, c.toNat ≤ 0xFF) : decode (encode s) = s := by
  rw [decode, encode, List.map_map]
  refine (List.map_congr_left fun c hc => ?_).trans (List.map_id s)
  have hcode : (encodeChar c).toNat = c.toNat := by
    rw [toNat_encodeChar, storedCode, if_pos (h c hc)]
  rw [Function.comp_apply, hcode, Char.ofNat_toNat, id_eq]

/-! ### The text before the first NUL -/

/-- The text is the longest beginning of the other one without a NUL. -/
structure IsCut (t s : List Char) : Prop where
  begins : t <+: s
  nul_notMem : '\x00' ∉ t
  longest : ∀ u, u <+: s → '\x00' ∉ u → u <+: t

/-- A text without a NUL is kept as a whole. -/
theorem beforeNul_append (h : '\x00' ∉ s) (t : List Char) :
    beforeNul (s ++ t) = s ++ beforeNul t :=
  List.takeWhile_append_of_pos fun _ hc => decide_eq_true fun heq => h (heq ▸ hc)

theorem isCut_beforeNul (s : List Char) : IsCut (beforeNul s) s where
  begins := List.takeWhile_prefix _
  nul_notMem h := by simpa using List.mem_takeWhile_imp h
  longest := by
    rintro u ⟨t, rfl⟩ hu
    rw [beforeNul_append hu]
    exact List.prefix_append _ _

/-- NULs behind a text without one are cut off. -/
theorem beforeNul_append_replicate (h : '\x00' ∉ s) (n : Nat) :
    beforeNul (s ++ List.replicate n '\x00') = s := by
  have hnone : beforeNul (List.replicate n '\x00') = [] := by
    cases n <;> rfl
  rw [beforeNul_append h, hnone, List.append_nil]

end BinaryLayout.Text.Latin
