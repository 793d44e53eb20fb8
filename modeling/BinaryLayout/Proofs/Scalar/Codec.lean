import BinaryLayout.Scalar
import BinaryLayout.Word
import Mathlib.Algebra.BigOperators.Intervals
import Mathlib.Algebra.BigOperators.Ring.Finset
import Mathlib.Algebra.Order.Ring.Int
import Mathlib.Tactic.Ring

/-!
# Scalars through their bytes

The bytes of a value, read back as an unsigned number, are the value modulo the power of 256 that
belongs to their number. What a reader sees is that number reduced to 64 bits, so a value read from
fewer than eight bytes is not negative, and eight bytes give the value itself.

Each byte has a weight, a power of 256, and the byte order decides where the byte of a weight
stands: one byte at a time, the codec says which byte is written for each weight and which weight
each byte has in what is read.

## Main definitions

* `byte`: the byte of an integer with a given weight.
* `place`: where the byte of a weight stands.

## Main results

* `natural_lowBytes`, `natural_arrange_encode`: the number that a value's bytes stand for.
* `toInt_decode`: the integer that bytes are read as.
* `encode_decode`: up to eight bytes are written again for the value that they are read as.
* `getElem?_encode_place`: the byte that is written for a weight.
* `natural_arrange_eq_sum`: the number that is read is the sum of its bytes by weight.
-/

namespace BinaryLayout.Scalar

theorem natural_lt (bytes : List UInt8) : natural bytes < 256 ^ bytes.length := by
  induction bytes with
  | nil => exact Nat.one_pos
  | cons b bytes ih =>
    have hb : b.toNat < 256 := b.toNat_lt
    rw [natural, List.length_cons, pow_succ]
    omega

/-- The remainder by a higher power of the base, from the remainders of the last digit and of the
digits before it. -/
theorem emod_pow_succ (v : Int) (n : Nat) :
    v % 256 ^ (n + 1) = v % 256 + 256 * (v / 256 % 256 ^ n) := by
  have hpow : (0 : Int) < 256 ^ n := pow_pos (by decide) n
  have hlow := Int.emod_nonneg v (show (256 : Int) ≠ 0 by decide)
  have hlow' := Int.emod_lt_of_pos v (show (0 : Int) < 256 by decide)
  have hhigh := Int.emod_nonneg (v / 256) hpow.ne'
  have hhigh' := Int.emod_lt_of_pos (v / 256) hpow
  have hv : v = v % 256 + 256 * (v / 256 % 256 ^ n) + 256 ^ (n + 1) * (v / 256 / 256 ^ n) := by
    have h1 := Int.emod_add_mul_ediv v 256
    have h2 := Int.emod_add_mul_ediv (v / 256) (256 ^ n)
    calc v = v % 256 + 256 * (v / 256) := h1.symm
      _ = v % 256 + 256 * (v / 256 % 256 ^ n + 256 ^ n * (v / 256 / 256 ^ n)) := by rw [h2]
      _ = _ := by ring
  conv_lhs => rw [hv]
  rw [Int.add_mul_emod_self_left]
  refine Int.emod_eq_of_lt (by omega) ?_
  rw [pow_succ]
  omega

theorem natural_lowBytes (n : Nat) (v : Int) : natural (lowBytes n v) = (v % 256 ^ n).toNat := by
  induction n generalizing v with
  | zero => simp [lowBytes, natural]
  | succ n ih =>
    have hlow := Int.emod_nonneg v (show (256 : Int) ≠ 0 by decide)
    have hhigh := Int.emod_nonneg (v / 256) (pow_pos (by decide : (0 : Int) < 256) n).ne'
    rw [lowBytes, natural, ih, emod_pow_succ, UInt8.toNat_ofNat']
    omega

theorem natural_replicate_zero (n : Nat) : natural (List.replicate n 0) = 0 := by
  induction n with
  | zero => rfl
  | succ n ih =>
    rw [List.replicate_succ, natural, ih]
    rfl

/-- Whatever the order, zeros stand for zero. -/
theorem natural_arrange_replicate (order : ByteOrder) (n : Nat) :
    natural (arrange order (List.replicate n 0)) = 0 := by
  cases order with
  | big => rw [arrange, List.reverse_replicate, natural_replicate_zero]
  | little => exact natural_replicate_zero n

/-- Whatever the order, the bytes written stand for the value modulo their power of 256. -/
theorem natural_arrange_encode (order : ByteOrder) (n : Nat) (v : Int64) :
    natural (arrange order (encode order n v)) = (v.toInt % 2 ^ (8 * n)).toNat := by
  rw [encode, arrange_arrange, natural_lowBytes, pow_mul]
  rfl

/-- The bytes of a value in one order are the reverse of those in the other. -/
theorem encode_big (n : Nat) (v : Int64) : encode .big n v = (encode .little n v).reverse := rfl

theorem decode_big_reverse (bytes : List UInt8) :
    decode .big bytes.reverse = decode .little bytes := by
  rw [decode, decode, arrange, arrange, List.reverse_reverse]

/-- The signed 64-bit integer that a number of so many bytes is read as: the number itself, or with
eight bytes the integer of which it is the two's complement. -/
def shown (n cell : Nat) : Int := if n < 8 then cell else Int.bmod cell Word.count64

theorem toInt_decode (order : ByteOrder) (bytes : List UInt8) :
    (decode order bytes).toInt = shown bytes.length (natural (arrange order bytes)) := by
  rw [decode, shown]
  split_ifs with h8
  · refine Int64.toInt_ofNat_of_lt ((natural_lt _).trans_le ?_)
    rw [length_arrange]
    calc 256 ^ bytes.length ≤ 256 ^ 7 := Nat.pow_le_pow_right (by decide) (by omega)
      _ ≤ 2 ^ 63 := by decide
  · exact Int64.toInt_ofNat'

/-- The bytes of a number are determined by their count and the number. -/
theorem lowBytes_natural (bytes : List UInt8) : lowBytes bytes.length (natural bytes) = bytes := by
  induction bytes with
  | nil => rfl
  | cons b bytes ih =>
    have hb : b.toNat < 256 := b.toNat_lt
    have hlow : ((natural (b :: bytes) : Int) % 256).toNat = b.toNat := by
      rw [natural]
      omega
    have hhigh : (natural (b :: bytes) : Int) / 256 = natural bytes := by
      rw [natural]
      omega
    rw [List.length_cons, lowBytes, hlow, hhigh, ih, UInt8.ofNat_toNat]

/-- The bytes written for an integer depend on its remainder alone. -/
theorem lowBytes_emod (n : Nat) (v : Int) : lowBytes n (v % 256 ^ n) = lowBytes n v := by
  induction n generalizing v with
  | zero => rfl
  | succ n ih =>
    have hlow := Int.emod_nonneg v (show (256 : Int) ≠ 0 by decide)
    have hlow' := Int.emod_lt_of_pos v (show (0 : Int) < 256 by decide)
    have hdigit : v % 256 ^ (n + 1) % 256 = v % 256 := by
      rw [emod_pow_succ]
      omega
    have hrest : v % 256 ^ (n + 1) / 256 = v / 256 % 256 ^ n := by
      rw [emod_pow_succ]
      omega
    rw [lowBytes, lowBytes, hdigit, hrest, ih]

/-- **Up to eight bytes** that are read as a value are written again for the value. -/
theorem encode_decode (order : ByteOrder) {bytes : List UInt8} (h : bytes.length ≤ 8) :
    encode order bytes.length (decode order bytes) = bytes := by
  set number := natural (arrange order bytes) with hnumber
  have hvalue : (decode order bytes).toInt % 256 ^ bytes.length = number % 256 ^ bytes.length := by
    rw [toInt_decode, shown]
    split_ifs with h8
    · rfl
    · rw [show bytes.length = 8 by omega]
      exact Int.bmod_emod
  rw [encode, ← lowBytes_emod, hvalue, lowBytes_emod, hnumber,
    ← length_arrange order bytes, lowBytes_natural, arrange_arrange]

/-! ### Byte by byte -/

variable {n k : Nat} {bytes : List UInt8}

/-- The byte of an integer's two's complement whose weight is the `k`-th power of 256. -/
def byte (v : Int) (k : Nat) : UInt8 := UInt8.ofNat (v / 256 ^ k % 256).toNat

theorem byte_succ (v : Int) (k : Nat) : byte v (k + 1) = byte (v / 256) k := by
  rw [byte, byte, pow_succ', Int.ediv_ediv_of_nonneg (by decide)]

theorem getElem?_lowBytes (v : Int) (hk : k < n) : (lowBytes n v)[k]? = some (byte v k) := by
  induction n generalizing v k with
  | zero => exact absurd hk (Nat.not_lt_zero k)
  | succ n ih =>
    rw [lowBytes]
    cases k with
    | zero => rw [List.getElem?_cons_zero, byte, pow_zero, Int.ediv_one]
    | succ k => rw [List.getElem?_cons_succ, ih _ (Nat.lt_of_succ_lt_succ hk), byte_succ]

/-- Where the byte whose weight is the `k`-th power of 256 stands among so many. -/
def place (order : ByteOrder) (n k : Nat) : Nat :=
  match order with
  | .little => k
  | .big => n - k - 1

theorem place_lt (order : ByteOrder) (hk : k < n) : place order n k < n := by
  cases order <;> simp only [place] <;> omega

theorem place_place (order : ByteOrder) (hk : k < n) : place order n (place order n k) = k := by
  cases order <;> simp only [place]
  omega

/-- In either order the bytes are arranged by their weights. -/
theorem getElem?_arrange (order : ByteOrder) (hk : k < bytes.length) :
    (arrange order bytes)[k]? = bytes[place order bytes.length k]? := by
  cases order with
  | little => rfl
  | big => rw [arrange, place, List.getElem?_reverse hk, Nat.sub_right_comm]

/-- The byte that is written for a weight. -/
theorem getElem?_encode_place (order : ByteOrder) (value : Int64) (hk : k < n) :
    (encode order n value)[place order n k]? = some (byte value.toInt k) := by
  have hplace := place_lt order hk
  rw [encode, getElem?_arrange order (by rwa [length_lowBytes]), length_lowBytes,
    place_place order hk, getElem?_lowBytes _ hk]

/-- The number that bytes stand for is the sum of the bytes by weight. -/
theorem natural_eq_sum (bytes : List UInt8) :
    natural bytes = ∑ k ∈ Finset.range bytes.length, (bytes[k]?.getD 0).toNat * 256 ^ k := by
  induction bytes with
  | nil => rfl
  | cons b bytes ih =>
    rw [natural, ih, List.length_cons, Finset.sum_range_succ', Finset.mul_sum, Nat.add_comm]
    congr 1
    · refine Finset.sum_congr rfl fun k _ => ?_
      rw [List.getElem?_cons_succ, pow_succ]
      ring
    · simp

theorem natural_arrange_eq_sum (order : ByteOrder) (bytes : List UInt8) :
    natural (arrange order bytes) = ∑ k ∈ Finset.range bytes.length,
      (bytes[place order bytes.length k]?.getD 0).toNat * 256 ^ k := by
  rw [natural_eq_sum, length_arrange]
  refine Finset.sum_congr rfl fun k hk => ?_
  rw [getElem?_arrange order (Finset.mem_range.mp hk)]

end BinaryLayout.Scalar
