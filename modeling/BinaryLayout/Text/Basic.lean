/-!
# Texts

The characters that separate words are those with the Unicode property `White_Space`. Control
characters such as U+001C, the zero-width space and the byte order mark are not among them. A word
is a longest run of other characters; the words of a text are found from left to right, and none is
empty.

Numbers are read and written as runs of ASCII digits. Letters stand for the digits from ten to
fifteen; they are read in either case. No other script's digits are read.

A text in a buffer has one byte for each character, the byte being the character's code point
(ISO 8859-1). Every byte sequence is such a text; a character above U+00FF has no byte and is
written as a question mark.
-/

namespace BinaryLayout.Text

/-! ### Blanks -/

/-- The code points with the property `White_Space`, as closed ranges in increasing order. -/
def blankRanges : List (Nat × Nat) :=
  [(0x9, 0xD), (0x20, 0x20), (0x85, 0x85), (0xA0, 0xA0), (0x1680, 0x1680), (0x2000, 0x200A),
    (0x2028, 0x2029), (0x202F, 0x202F), (0x205F, 0x205F), (0x3000, 0x3000)]

/-- Whether a character is white space. -/
def isBlank (c : Char) : Bool :=
  blankRanges.any fun r => r.1 ≤ c.toNat && c.toNat ≤ r.2

/-- The text without the white space at its two ends. -/
def trim (s : List Char) : List Char :=
  ((s.dropWhile isBlank).reverse.dropWhile isBlank).reverse

/-! ### Words -/

/-- Whether a character may stand in a word. -/
def isInk (c : Char) : Bool := !isBlank c

/-- What follows the first word of a text is shorter than the text. -/
theorem length_afterWord_lt {s rest : List Char} {c : Char}
    (h : s.dropWhile isBlank = c :: rest) : (rest.dropWhile isInk).length < s.length := by
  have start := (List.dropWhile_sublist (l := s) isBlank).length_le
  have tail := (List.dropWhile_sublist (l := rest) isInk).length_le
  simp only [h, List.length_cons] at start
  omega

/-- The words of a text, in order. -/
def words (s : List Char) : List (List Char) :=
  match _opening : s.dropWhile isBlank with
  | [] => []
  | c :: rest => (c :: rest.takeWhile isInk) :: words (rest.dropWhile isInk)
termination_by s.length
decreasing_by exact length_afterWord_lt _opening

/-! ### Numerals -/

/-- The number that an ASCII digit or one of the letters `a` to `f` stands for. -/
def digit? (c : Char) : Option Nat :=
  if '0' ≤ c ∧ c ≤ '9' then some (c.toNat - '0'.toNat)
  else if 'a' ≤ c ∧ c ≤ 'f' then some (c.toNat - 'a'.toNat + 10)
  else if 'A' ≤ c ∧ c ≤ 'F' then some (c.toNat - 'A'.toNat + 10)
  else none

/-- Whether a character is a digit of the base. -/
def isDigitOf (base : Nat) (c : Char) : Bool := (digit? c).any (· < base)

/-- The number that a run of digits stands for in the base, the most significant digit first. -/
def numeralValue (base : Nat) (s : List Char) : Nat :=
  s.foldl (fun n c => n * base + (digit? c).getD 0) 0

/-- Reads a text that consists of digits of the base only, and of at least one. -/
def numeral? (base : Nat) (s : List Char) : Option Nat :=
  if s ≠ [] ∧ s.all (isDigitOf base) then some (numeralValue base s) else none

/-- The decimal digits of a number, without leading zeros. -/
def decimal (n : Nat) : List Char := Nat.toDigits 10 n

/-- The decimal digits of an integer after a minus sign if it is negative. -/
def signedDecimal (i : Int) : List Char :=
  if i < 0 then '-' :: decimal i.natAbs else decimal i.natAbs

/-- The lowercase hexadecimal digits of a number, with zeros in front up to a least width. -/
def hexadecimal (width n : Nat) : List Char :=
  (Nat.toDigits 16 n).leftpad width '0'

/-! ### Single-byte text -/

namespace Latin

/-- The byte of a character. -/
def encodeChar (c : Char) : UInt8 :=
  if c.toNat < 256 then UInt8.ofNat c.toNat else UInt8.ofNat '?'.toNat

/-- The bytes of a text. -/
def encode (s : List Char) : List UInt8 := s.map encodeChar

/-- The text of a byte sequence. -/
def decode (bytes : List UInt8) : List Char := bytes.map fun b => Char.ofNat b.toNat

/-- The text before its first NUL, or all of it if it has none. -/
def beforeNul (s : List Char) : List Char := s.takeWhile (· ≠ '\x00')

/-- Writing has one byte for each character. -/
@[simp] theorem length_encode (s : List Char) : (encode s).length = s.length := by
  simp [encode]

/-- Reading has one character for each byte. -/
@[simp] theorem length_decode (bytes : List UInt8) : (decode bytes).length = bytes.length := by
  simp [decode]

/-- The character of a byte has the byte as its code point. -/
theorem toNat_ofNat_byte (b : UInt8) : (Char.ofNat b.toNat).toNat = b.toNat := by
  have valid : b.toNat.isValidChar := Or.inl (Nat.lt_trans b.toNat_lt (by decide))
  rw [Char.ofNat]
  rw [dif_pos valid]
  rfl

/-- The character of a byte is written as that byte. -/
theorem encodeChar_ofNat_byte (b : UInt8) : encodeChar (Char.ofNat b.toNat) = b := by
  have small : b.toNat < 256 := b.toNat_lt
  simp [encodeChar, toNat_ofNat_byte, small]

/-- A text that was read from bytes is written as those bytes. -/
theorem encode_decode (bytes : List UInt8) : encode (decode bytes) = bytes := by
  simp [encode, decode, Function.comp_def, encodeChar_ofNat_byte]

end Latin

end BinaryLayout.Text
