import BinaryLayout.Buffer
import Mathlib.Tactic.Common

/-!
# Ranges of a byte sequence

What a range of bytes holds after some of the bytes have been replaced: the new bytes where they
were put, and the old ones in every range that they do not touch.

## Main results

* `getElem?_patched`: the byte at an address after a replacement.
* `slice_patched_self`, `slice_patched_of_disjoint`: a range after a replacement.
* `patched_slice`: a range is replaced by its own bytes.
* `patched_append`, `patched_append_right`: a replacement in one of two parts.
* `patched_comm`: replacements of ranges that do not meet commute.
* `read_eq`, `write_eq`: inside the buffer, reading and writing are slicing and patching.
* `getElem?_overlay`: the byte at an address after an overlay.
-/

namespace BinaryLayout.Buffer

/-- The bytes of a range. -/
def slice (bytes : List UInt8) (start length : Nat) : List UInt8 := (bytes.drop start).take length

variable {bytes new : List UInt8} {start length a k : Nat}

theorem getElem?_slice (bytes : List UInt8) (start length k : Nat) :
    (slice bytes start length)[k]? = if k < length then bytes[start + k]? else none := by
  rw [slice, List.getElem?_take, List.getElem?_drop]

theorem length_slice (h : start + length ≤ bytes.length) :
    (slice bytes start length).length = length := by
  rw [slice, List.length_take, List.length_drop]
  omega

/-- A range of a range is a range. -/
theorem slice_slice (bytes : List UInt8) (start : Nat) (h : a + k ≤ length) :
    slice (slice bytes start length) a k = slice bytes (start + a) k := by
  rw [slice, slice, slice, List.drop_take, List.drop_drop, List.take_take,
    Nat.min_eq_left (by omega)]

/-- Ranges that follow one another are together a range. -/
theorem slice_append_slice (bytes : List UInt8) (start length k : Nat) :
    slice bytes start length ++ slice bytes (start + length) k =
      slice bytes start (length + k) := by
  rw [slice, slice, slice, List.take_add, List.drop_drop]

/-- Ranges of one length that follow one another are together a range. -/
theorem flatMap_slice (bytes : List UInt8) (length n : Nat) :
    (List.range n).flatMap (fun i => slice bytes (i * length) length) =
      slice bytes 0 (n * length) := by
  induction n with
  | zero => rw [Nat.zero_mul, slice, List.take_zero, List.range_zero, List.flatMap_nil]
  | succ n ih =>
    rw [List.range_succ, List.flatMap_append, ih, List.flatMap_singleton, Nat.succ_mul,
      ← slice_append_slice, Nat.zero_add]

theorem getElem?_patched (h : start + new.length ≤ bytes.length) (a : Nat) :
    (patched bytes start new)[a]? =
      if start ≤ a ∧ a < start + new.length then new[a - start]? else bytes[a]? := by
  have htake : (bytes.take start).length = start := List.length_take_of_le (by omega)
  rw [patched, List.append_assoc]
  split_ifs with ha
  · rw [List.getElem?_append_right (by omega), htake, List.getElem?_append_left (by omega)]
  · rcases Nat.lt_or_ge a start with hlt | hge
    · rw [List.getElem?_append_left (by omega), List.getElem?_take_of_lt hlt]
    · rw [List.getElem?_append_right (by omega), htake, List.getElem?_append_right (by omega),
        List.getElem?_drop]
      congr 1
      omega

/-- Bytes that agree wherever a range is make the range the same. -/
theorem slice_congr {bytes' : List UInt8}
    (h : ∀ a, start ≤ a → a < start + length → bytes[a]? = bytes'[a]?) :
    slice bytes start length = slice bytes' start length := by
  refine List.ext_getElem? fun k => ?_
  rw [getElem?_slice, getElem?_slice]
  split_ifs with hk
  · exact h _ (by omega) (by omega)
  · rfl

theorem slice_patched_self (h : start + new.length ≤ bytes.length) :
    slice (patched bytes start new) start new.length = new := by
  refine List.ext_getElem? fun k => ?_
  rw [getElem?_slice]
  split_ifs with hk
  · rw [getElem?_patched h, if_pos (by omega), Nat.add_sub_cancel_left]
  · rw [List.getElem?_eq_none (by omega)]

theorem slice_patched_of_disjoint (h : start + new.length ≤ bytes.length)
    (hd : a + length ≤ start ∨ start + new.length ≤ a) :
    slice (patched bytes start new) a length = slice bytes a length := by
  refine slice_congr fun b hb hb' => ?_
  rw [getElem?_patched h, if_neg (by omega)]

/-- A range whose bytes are put back where they were leaves all bytes as they were. -/
theorem patched_slice (h : start + length ≤ bytes.length) :
    patched bytes start (slice bytes start length) = bytes := by
  rw [patched, length_slice h, slice, List.append_assoc, ← List.drop_drop, List.take_append_drop,
    List.take_append_drop]

theorem patched_append (h : start + new.length ≤ bytes.length) (rest : List UInt8) :
    patched (bytes ++ rest) start new = patched bytes start new ++ rest := by
  rw [patched, patched, List.take_append_of_le_length (by omega),
    List.drop_append_of_le_length h, List.append_assoc, List.append_assoc, List.append_assoc]

theorem patched_append_right (front bytes : List UInt8) (start : Nat) (new : List UInt8) :
    patched (front ++ bytes) (front.length + start) new = front ++ patched bytes start new := by
  rw [patched, patched, List.take_length_add_append, Nat.add_assoc, List.drop_length_add_append,
    List.append_assoc, List.append_assoc, List.append_assoc]

/-- Replacements of ranges that do not meet can be made in either order. -/
theorem patched_comm {start' : Nat} {new' : List UInt8} (h : start + new.length ≤ bytes.length)
    (h' : start' + new'.length ≤ bytes.length)
    (hd : start + new.length ≤ start' ∨ start' + new'.length ≤ start) :
    patched (patched bytes start new) start' new' =
      patched (patched bytes start' new') start new := by
  have hafter : start' + new'.length ≤ (patched bytes start new).length := by
    rwa [length_patched h]
  have hafter' : start + new.length ≤ (patched bytes start' new').length := by
    rwa [length_patched h']
  refine List.ext_getElem? fun a => ?_
  rw [getElem?_patched hafter, getElem?_patched h, getElem?_patched hafter', getElem?_patched h']
  by_cases ha : start ≤ a ∧ a < start + new.length
  · rw [if_neg (by omega), if_pos ha, if_pos ha]
  · rw [if_neg ha, if_neg ha]

variable {b : Buffer}

theorem stop_of_le (h : start + length ≤ b.size) (hb : b.size < Word.count64) :
    b.stop start length = .ok (start + length) :=
  stop_eq_ok_iff.mpr ⟨Nat.lt_of_le_of_lt h hb, h, rfl⟩

/-- What is refused lies beyond the buffer. -/
theorem exists_stop_eq_error (h : ¬ start + length ≤ b.size) :
    ∃ fault, b.stop start length = .error fault := by
  cases hstop : b.stop start length with
  | error fault => exact ⟨fault, rfl⟩
  | ok e => exact absurd (stop_eq_ok_iff.mp hstop).2.1 h

theorem read_eq (h : start + length ≤ b.size) (hb : b.size < Word.count64) :
    b.read start length = .ok (slice b.bytes start length) := by
  rw [read, stop_of_le h hb]
  rfl

theorem write_eq (h : start + new.length ≤ b.size) (hb : b.size < Word.count64) :
    b.write start new = .ok ⟨patched b.bytes start new⟩ := by
  rw [write, stop_of_le h hb]

/-- An overlay replaces as many of the first bytes as there are in both. -/
theorem getElem?_overlay (b : Buffer) (data : List UInt8) (a : Nat) :
    (b.overlay data).bytes[a]? =
      if a < min data.length b.size then data[a]? else b.bytes[a]? := by
  have hlength : (data.take (b.fitting data)).length = min data.length b.size := by
    rw [List.length_take, fitting]
    exact Nat.min_eq_left (Nat.min_le_left _ _)
  have hfits : 0 + (data.take (b.fitting data)).length ≤ b.bytes.length := by
    rw [hlength, Nat.zero_add]
    exact Nat.min_le_right _ _
  rw [overlay, getElem?_patched hfits, hlength, Nat.zero_add, Nat.sub_zero]
  by_cases ha : a < min data.length b.size
  · have hfitting : a < b.fitting data := ha
    rw [if_pos ⟨Nat.zero_le a, ha⟩, if_pos ha, List.getElem?_take_of_lt hfitting]
  · rw [if_neg fun h => ha h.2, if_neg ha]

end BinaryLayout.Buffer
