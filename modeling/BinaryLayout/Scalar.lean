import BinaryLayout.Config

/-!
# Scalars as bytes

An integer is stored in a given number of bytes in two's complement, in either byte order. Reading
takes the bytes as an unsigned number, so that a value read back from fewer than eight bytes is not
negative; the number is reduced to 64 bits.
-/

namespace BinaryLayout.Scalar

/-- The lowest bytes of an integer's two's complement, the least significant first. -/
def lowBytes : Nat → Int → List UInt8
  | 0, _ => []
  | n + 1, v => UInt8.ofNat (v % 256).toNat :: lowBytes n (v / 256)

/-- The number that bytes stand for, the least significant first. -/
def natural : List UInt8 → Nat
  | [] => 0
  | b :: rest => b.toNat + 256 * natural rest

/-- Bytes in the given order from bytes with the least significant first, and back. -/
def arrange (order : ByteOrder) (bytes : List UInt8) : List UInt8 :=
  match order with
  | .little => bytes
  | .big => bytes.reverse

/-- The bytes of a value, as many as asked for. -/
def encode (order : ByteOrder) (count : Nat) (value : Int64) : List UInt8 :=
  arrange order (lowBytes count value.toInt)

/-- The value of bytes, however many there are. -/
def decode (order : ByteOrder) (bytes : List UInt8) : Int64 :=
  Int64.ofNat (natural (arrange order bytes))

@[simp] theorem length_lowBytes (n : Nat) (v : Int) : (lowBytes n v).length = n := by
  induction n generalizing v with
  | zero => rfl
  | succ n ih => simp [lowBytes, ih]

@[simp] theorem length_arrange (order : ByteOrder) (bytes : List UInt8) :
    (arrange order bytes).length = bytes.length := by
  cases order <;> simp [arrange]

/-- Arranging twice gives the bytes back. -/
@[simp] theorem arrange_arrange (order : ByteOrder) (bytes : List UInt8) :
    arrange order (arrange order bytes) = bytes := by
  cases order <;> simp [arrange]

/-- As many bytes are written as asked for. -/
@[simp] theorem length_encode (order : ByteOrder) (count : Nat) (value : Int64) :
    (encode order count value).length = count := by
  simp [encode]

end BinaryLayout.Scalar
