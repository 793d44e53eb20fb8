import BinaryLayout.Proofs.Scalar.Codec

/-!
# Scalars by shifting

A value can be written over a slice byte by byte: its lowest byte goes to the place of its weight,
and the value is shifted down for the next one. It can be read by shifting what has been read up and
putting the next byte below it. Both run over slices of any length, so a value that has been shifted
out leaves bytes of its sign, and a number of more than eight bytes loses its first ones. The
results are those of the codec, which is exact in both directions.

## Main definitions

* `overwrite`: a value written over a slice by shifting it down.
* `assemble`: bytes read by shifting up.

## Main results

* `overwrite_eq`, `assemble_eq`: shifting gives what the codec gives.
* `toInt_decode_encode`: what is read of a value that has been written.
* `codec_exact`: the bytes that are written, the integer that is read, and both round trips.
-/

namespace BinaryLayout.Scalar

variable {n k : Nat} {value : Int64}

/-! ### Writing -/

/-- The lowest byte of a value. -/
def lowByte (v : Int64) : UInt8 := UInt8.ofNat (v &&& 255).toInt.toNat

theorem lowByte_eq (v : Int64) : lowByte v = byte v.toInt 0 := by
  have hword : (v &&& 255).toBitVec.toNat = v.toBitVec.toNat % 256 := by
    rw [Int64.toBitVec_and, BitVec.toNat_and]
    exact Nat.and_two_pow_sub_one_eq_mod _ 8
  have hlow : (v &&& 255).toInt = v.toInt % 256 := by
    rw [← Int64.toInt_toBitVec, ← Int64.toInt_toBitVec, BitVec.toInt_eq_toNat_cond,
      BitVec.toInt_eq_toNat_cond, hword]
    omega
  rw [lowByte, byte, pow_zero, Int.ediv_one, hlow]

/-- Shifting down by a byte divides and rounds down, also below zero. -/
theorem toInt_shiftRight_byte (v : Int64) : (v >>> 8).toInt = v.toInt / 256 := by
  have hbits : ((8 : Int64).toBitVec.smod 64).toNat = 8 := by decide
  rw [← Int64.toInt_toBitVec, Int64.toBitVec_shiftRight, BitVec.sshiftRight', hbits,
    BitVec.toInt_sshiftRight, Int.shiftRight_eq_div_pow]
  rfl

/-- A slice while a value is written over it, and what is left of the value. -/
structure Writing where
  slice : List UInt8
  rest : Int64

namespace Writing

/-- Writes the lowest byte of what is left to the place of its weight, and shifts it out. -/
def step (order : ByteOrder) (w : Writing) (k : Nat) : Writing :=
  ⟨w.slice.set (place order w.slice.length k) (lowByte w.rest), w.rest >>> 8⟩

/-- So many bytes of a value stand at the places of their weights in a slice of some length, and the
rest of the value is what is left. -/
structure Progress (order : ByteOrder) (value : Int64) (n k : Nat) (w : Writing) : Prop where
  length_eq : w.slice.length = n
  rest_eq : w.rest.toInt = value.toInt / 256 ^ k
  written : ∀ j < k, w.slice[place order n j]? = some (byte value.toInt j)

theorem progress_zero (order : ByteOrder) (slice : List UInt8) (value : Int64) :
    Progress order value slice.length 0 ⟨slice, value⟩ where
  length_eq := rfl
  rest_eq := by rw [pow_zero, Int.ediv_one]
  written j hj := absurd hj (Nat.not_lt_zero j)

/-- Each step writes the byte of the next weight and no other. -/
theorem Progress.step {order : ByteOrder} {w : Writing} (h : Progress order value n k w)
    (hk : k < n) : Progress order value n (k + 1) (w.step order k) where
  length_eq := List.length_set.trans h.length_eq
  rest_eq := by
    rw [Writing.step, toInt_shiftRight_byte, h.rest_eq, pow_succ,
      Int.ediv_ediv_of_nonneg (pow_nonneg (by decide) k)]
  written j hj := by
    have hplace := place_lt order hk
    have hbyte : lowByte w.rest = byte value.toInt k := by
      rw [lowByte_eq, h.rest_eq, byte, byte, pow_zero, Int.ediv_one]
    rw [Writing.step, h.length_eq, List.getElem?_set, h.length_eq, if_pos hplace, hbyte]
    split_ifs with heq
    · have hjk : k = j := by
        rw [← place_place order hk, heq, place_place order (by omega)]
      rw [hjk]
    · refine h.written j (Nat.lt_of_le_of_ne (Nat.le_of_lt_succ hj) ?_)
      rintro rfl
      exact heq rfl

/-- After so many steps so many bytes are written. -/
theorem progress_run (order : ByteOrder) (slice : List UInt8) (value : Int64)
    (hk : k ≤ slice.length) : Progress order value slice.length k
      ((List.range k).foldl (Writing.step order) ⟨slice, value⟩) := by
  induction k with
  | zero => exact progress_zero order slice value
  | succ k ih =>
    rw [List.range_succ, List.foldl_append, List.foldl_cons, List.foldl_nil]
    exact (ih (Nat.le_of_succ_le hk)).step hk

end Writing

/-- Writes a value over a slice, its lowest byte first. -/
def overwrite (order : ByteOrder) (slice : List UInt8) (value : Int64) : List UInt8 :=
  ((List.range slice.length).foldl (Writing.step order) ⟨slice, value⟩).slice

/-- Nothing is left of what a slice held before. -/
theorem overwrite_eq (order : ByteOrder) (slice : List UInt8) (value : Int64) :
    overwrite order slice value = encode order slice.length value := by
  have h := Writing.progress_run order slice value le_rfl
  refine List.ext_getElem? fun a => ?_
  rcases Nat.lt_or_ge a slice.length with ha | ha
  · have hplace := place_lt order ha
    -- Each place is that of a weight.
    rw [← place_place order ha, getElem?_encode_place order value hplace]
    exact h.written _ hplace
  · have hlength : (overwrite order slice value).length = slice.length := h.length_eq
    rw [List.getElem?_eq_none (hlength.trans_le ha), List.getElem?_eq_none]
    rwa [length_encode]

/-! ### Reading -/

/-- Shifts what has been read up and puts a byte below it. -/
def append (value : Int64) (b : UInt8) : Int64 := value <<< 8 ||| Int64.ofNat b.toNat

/-- What is shifted beyond 64 bits is lost. -/
theorem append_ofNat (n : Nat) (b : UInt8) :
    append (Int64.ofNat n) b = Int64.ofNat (b.toNat + 256 * n) := by
  have hb : b.toNat < 2 ^ 8 := b.toNat_lt
  have hbits : ((8 : Int64).toBitVec.smod 64).toNat = 8 := by decide
  have hshift : ((n % 2 ^ 64) <<< 8) % 2 ^ 64 = (n % 2 ^ 56) <<< 8 := by
    rw [Nat.shiftLeft_eq, Nat.shiftLeft_eq]
    omega
  refine Int64.toBitVec_inj.mp (BitVec.eq_of_toNat_eq ?_)
  rw [append, Int64.toBitVec_or, Int64.toBitVec_shiftLeft, BitVec.toNat_or, BitVec.shiftLeft_eq',
    hbits, BitVec.toNat_shiftLeft]
  change ((n % 2 ^ 64) <<< 8) % 2 ^ 64 ||| b.toNat % 2 ^ 64 = (b.toNat + 256 * n) % 2 ^ 64
  rw [hshift, Nat.mod_eq_of_lt (hb.trans (by decide)), ← Nat.shiftLeft_add_eq_or_of_lt hb,
    Nat.shiftLeft_eq]
  omega

/-- Reads bytes, the most significant first. -/
def assemble (order : ByteOrder) (bytes : List UInt8) : Int64 :=
  match order with
  | .big => bytes.foldl append 0
  | .little => bytes.reverse.foldl append 0

theorem foldl_append_reverse (bytes : List UInt8) :
    bytes.reverse.foldl append 0 = Int64.ofNat (natural bytes) := by
  rw [List.foldl_reverse]
  induction bytes with
  | nil => rfl
  | cons b bytes ih => rw [List.foldr_cons, ih, append_ofNat, natural]

theorem assemble_eq (order : ByteOrder) (bytes : List UInt8) :
    assemble order bytes = decode order bytes := by
  cases order with
  | big =>
    have hreverse := foldl_append_reverse bytes.reverse
    rwa [List.reverse_reverse] at hreverse
  | little => exact foldl_append_reverse bytes

/-! ### Both ways -/

/-- The byte of a weight, as a digit. -/
theorem toNat_byte (v : Int) (k : Nat) : ((byte v k).toNat : Int) = v / 256 ^ k % 256 := by
  have hlow := Int.emod_nonneg (v / 256 ^ k) (show (256 : Int) ≠ 0 by decide)
  have hhigh := Int.emod_lt_of_pos (v / 256 ^ k) (show (0 : Int) < 256 by decide)
  rw [byte, UInt8.toNat_ofNat']
  omega

/-- A value that was written is read modulo the power of 256 that belongs to the number of bytes,
and from eight bytes on as itself. -/
theorem toInt_decode_encode (order : ByteOrder) (n : Nat) (v : Int64) :
    (decode order (encode order n v)).toInt =
      if n < 8 then v.toInt % 2 ^ (8 * n) else v.toInt := by
  have hnonneg : 0 ≤ v.toInt % 2 ^ (8 * n) := Int.emod_nonneg _ (pow_pos (by decide) _).ne'
  rw [toInt_decode, length_encode, natural_arrange_encode, shown, Int.toNat_of_nonneg hnonneg]
  split_ifs with h8
  · rfl
  · have hdvd : (Word.count64 : Int) ∣ 2 ^ (8 * n) := pow_dvd_pow 2 (show 64 ≤ 8 * n by omega)
    rw [← Int.emod_bmod, Int.emod_emod_of_dvd _ hdvd, Int.emod_bmod]
    exact Int64.toInt_bmod v

/-- **The codec is exact.** A slice over which a value is written has at each place the byte of the
weight of that place, whatever it held before, and the two orders are the reverse of one another.
Bytes are read as the sum of the bytes by weight in 64-bit two's complement. A value that was
written is read modulo its power of 256, and from eight bytes on as itself; up to eight bytes are
written again for the value that they were read as. -/
theorem codec_exact (slice : List UInt8) (value : Int64) :
    (∀ i < slice.length, ∃ b, (overwrite .little slice value)[i]? = some b ∧
        (b.toNat : Int) = value.toInt / 256 ^ i % 256) ∧
      overwrite .big slice value = (overwrite .little slice value).reverse ∧
      (∀ order, overwrite order slice value = encode order slice.length value) ∧
      (decode .little slice).toInt =
        Int.bmod (∑ i ∈ Finset.range slice.length, (slice[i]?.getD 0).toNat * 256 ^ i : Nat)
          (2 ^ 64) ∧
      decode .big slice = decode .little slice.reverse ∧
      (∀ order, assemble order slice = decode order slice) ∧
      (∀ order, (decode order (encode order slice.length value)).toInt =
        if slice.length < 8 then value.toInt % 2 ^ (8 * slice.length) else value.toInt) ∧
      (slice.length ≤ 8 → ∀ order, encode order slice.length (decode order slice) = slice) := by
  refine ⟨fun i hi => ⟨byte value.toInt i, ?_, toNat_byte _ i⟩, ?_, fun order => ?_, ?_, ?_, ?_, ?_,
    fun h order => encode_decode order h⟩
  · rw [overwrite_eq]
    exact getElem?_encode_place .little value hi
  · rw [overwrite_eq, overwrite_eq, encode_big]
  · exact overwrite_eq order slice value
  · rw [← natural_eq_sum]
    exact Int64.toInt_ofNat'
  · rw [← decode_big_reverse, List.reverse_reverse]
  · exact fun order => assemble_eq order slice
  · exact fun order => toInt_decode_encode order slice.length value

/-- Eight bytes that are read as the lowest integer, and a negative value written over them. -/
theorem codec_exact_eight_bytes :
    let slice : List UInt8 := [128, 0, 0, 0, 0, 0, 0, 0]
    slice.length ≤ 8 ∧ encode .big 8 (decode .big slice) = slice ∧
      overwrite .big slice (-5) = encode .big 8 (-5) ∧
      (decode .big (encode .big 8 (-5))).toInt = -5 := by
  intro slice
  obtain ⟨-, -, hover, -, -, -, hread, hback⟩ := codec_exact slice (-5)
  have hlength : slice.length ≤ 8 := by decide
  exact ⟨hlength, hback hlength .big, hover .big, hread .big⟩

end BinaryLayout.Scalar
