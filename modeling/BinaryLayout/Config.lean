import BinaryLayout.Word

/-!
# Configurations

What a definition leaves open: how wide integers are, in which order their bytes stand, and how
constants are aligned. The width of the described machine decides how many bytes the element types
"int" and "long" have; it is named by its number of bits. A padding says up to which element size
constants are aligned: each constant starts at a multiple of its alignment. Single bytes need none.
The alignments are powers of two up to eight.

Each of the three settings can be given as a word. A word that names no setting is refused with the
word itself.
-/

namespace BinaryLayout

/-- Why a word names no setting. -/
inductive ConfigError
  /-- The text is not one of the integer widths. -/
  | invalidWidth (text : String)
  /-- The text is not one of the byte orders. -/
  | invalidByteOrder (text : String)
  /-- The text is not one of the paddings. -/
  | invalidPadding (text : String)
  deriving DecidableEq, Repr

/-- The fault in words. -/
def ConfigError.message : ConfigError → String
  | invalidWidth text => "invalid integer width: " ++ text ++ " (expected 16, 32 or 64)"
  | invalidByteOrder text => "invalid byte ordering: " ++ text ++ " (expected little or big)"
  | invalidPadding text => "invalid padding: " ++ text ++ " (expected none, short, int or long)"

/-! ### Integer widths -/

/-- The width of the described machine's integers. -/
inductive Width
  | bits16
  | bits32
  | bits64
  deriving DecidableEq, Repr

namespace Width

/-- The number of bits that names the width. -/
def bits : Width → Nat
  | bits16 => 16
  | bits32 => 32
  | bits64 => 64

/-- The bytes of an "int" element. -/
def intSize : Width → Nat
  | bits16 => 2
  | bits32 => 2
  | bits64 => 4

/-- The bytes of a "long" element. -/
def longSize : Width → Nat
  | bits16 => 2
  | bits32 => 4
  | bits64 => 8

/-- The width with the given number of bits; any other number is named in the fault. -/
def ofBits (n : Nat) : Except ConfigError Width :=
  if n = 16 then .ok bits16
  else if n = 32 then .ok bits32
  else if n = 64 then .ok bits64
  else .error (.invalidWidth (String.ofList (Text.decimal n)))

/-- The 32-bit word that a numeral with an optional plus sign stands for, white space around it
aside. -/
def bitsOfText? (s : List Char) : Option Nat :=
  let digits := match Text.trim s with
    | '+' :: rest => rest
    | text => text
  Word.ofNumeral? Word.count32 10 digits

/-- Reads a width from a text. A number is refused by its value and any other text as it stands. -/
def ofText (s : String) : Except ConfigError Width :=
  match bitsOfText? s.toList with
  | some n => ofBits n
  | none => .error (.invalidWidth s)

/-- A width is found again by its number of bits. -/
theorem ofBits_bits (w : Width) : ofBits w.bits = .ok w := by
  cases w <;> rfl

/-- The only numbers that name a width are its bits. -/
theorem ofBits_eq_ok_iff {n : Nat} {w : Width} : ofBits n = .ok w ↔ n = w.bits := by
  refine ⟨fun h => ?_, fun h => h ▸ ofBits_bits w⟩
  rw [ofBits] at h
  repeat' split at h
  all_goals first | cases h; assumption | cases h

end Width

/-! ### Byte orders -/

/-- Which byte of an element comes first. -/
inductive ByteOrder
  /-- The most significant byte comes first. -/
  | big
  /-- The least significant byte comes first. -/
  | little
  deriving DecidableEq, Repr

namespace ByteOrder

/-- Every byte order, in the order in which messages list them. -/
def all : List ByteOrder := [big, little]

/-- The name of a byte order. -/
def name : ByteOrder → String
  | big => "big"
  | little => "little"

/-- The byte order with exactly this name. -/
def ofName? (name : String) : Option ByteOrder :=
  all.find? fun order => order.name == name

/-- Reads a byte order from a text, white space around it and the case of ASCII letters aside. -/
def ofText (s : String) : Except ConfigError ByteOrder :=
  match ofName? (String.ofList ((Text.trim s.toList).map Char.toLower)) with
  | some order => .ok order
  | none => .error (.invalidByteOrder s)

end ByteOrder

/-! ### Padding -/

/-- The largest element that constants are aligned to. -/
inductive Padding
  /-- Constants follow each other without gaps. -/
  | none
  /-- Every constant of more than a byte is aligned to two bytes. -/
  | short
  /-- Constants are aligned to their size, up to four bytes. -/
  | int
  /-- Constants are aligned to their size, up to eight bytes. -/
  | long
  deriving DecidableEq, Repr

namespace Padding

/-- Every padding, in the order in which messages list them. -/
def all : List Padding := [none, short, int, long]

/-- The name of a padding. -/
def name : Padding → String
  | none => "none"
  | short => "short"
  | int => "int"
  | long => "long"

/-- The padding with exactly this name. -/
def ofName? (name : String) : Option Padding :=
  all.find? fun padding => padding.name == name

/-- Reads a padding from a text, white space around it and the case of ASCII letters aside. -/
def ofText (s : String) : Except ConfigError Padding :=
  match ofName? (String.ofList ((Text.trim s.toList).map Char.toLower)) with
  | some padding => .ok padding
  | Option.none => .error (.invalidPadding s)

/-- The number of bytes to whose multiples a constant with this element size is aligned. -/
def alignment (padding : Padding) (unit : Nat) : Nat :=
  if unit = 1 then 1
  else match padding with
    | none => 1
    | short => 2
    | int => if unit = 2 then 2 else 4
    | long => if unit = 2 then 2 else if unit = 4 then 4 else 8

/-- The number of bytes from an offset to the next multiple of the alignment. -/
def gap (padding : Padding) (offset unit : Nat) : Nat :=
  (padding.alignment unit - offset % padding.alignment unit) % padding.alignment unit

/-- An alignment is one, two, four or eight. -/
theorem alignment_cases (padding : Padding) (unit : Nat) :
    padding.alignment unit = 1 ∨ padding.alignment unit = 2 ∨ padding.alignment unit = 4 ∨
      padding.alignment unit = 8 := by
  unfold alignment
  repeat' split
  all_goals simp

/-- An alignment is never zero. -/
theorem alignment_pos (padding : Padding) (unit : Nat) : 0 < padding.alignment unit := by
  rcases padding.alignment_cases unit with h | h | h | h <;> omega

/-- Behind the gap stands a multiple of the alignment. -/
theorem alignment_dvd_add_gap (padding : Padding) (offset unit : Nat) :
    padding.alignment unit ∣ offset + padding.gap offset unit := by
  rw [gap]
  rcases padding.alignment_cases unit with h | h | h | h <;> rw [h] <;> omega

/-- The gap is shorter than the alignment. -/
theorem gap_lt (padding : Padding) (offset unit : Nat) :
    padding.gap offset unit < padding.alignment unit :=
  Nat.mod_lt _ (padding.alignment_pos unit)

end Padding

/-! ### The three settings -/

/-- The settings under which a definition becomes a layout. -/
structure Config where
  width : Width
  byteOrder : ByteOrder
  padding : Padding
  deriving DecidableEq, Repr

end BinaryLayout
