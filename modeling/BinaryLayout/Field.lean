import BinaryLayout.Text.Basic

/-!
# Fields

A field is a declaration in its place: a label, the size of an element, the offset in the buffer,
and either the initial value of a constant or the number of elements of a space.
-/

namespace BinaryLayout

/-- What a field is declared as. -/
inductive FieldKind
  /-- One element that holds a value. -/
  | constant
  /-- A block of elements. -/
  | space
  deriving DecidableEq, Repr

/-- A declaration in its place. -/
structure Field where
  label : String
  kind : FieldKind
  /-- The bytes of one element. -/
  unit : Nat
  /-- The bytes of the buffer before the field. -/
  offset : Nat
  /-- The initial value of a constant, or the number of elements of a space. -/
  datum : Int64
  deriving DecidableEq, Repr

namespace Field

/-- Whether the field is a constant. -/
def isConstant (f : Field) : Bool := f.kind == .constant

/-- The number of elements. -/
def count (f : Field) : Nat :=
  match f.kind with
  | .constant => 1
  | .space => f.datum.toInt.toNat

/-- The bytes of the field, padding aside. -/
def totalSize (f : Field) : Nat := f.unit * f.count

/-- The offset behind the field. -/
def stop (f : Field) : Nat := f.offset + f.totalSize

/-- The bits of a byte. -/
def byteBits : Nat := 8

/-- The line that shows a field. A constant's line has its current value, which is given. -/
def describe (f : Field) (value : Int64) : List Char :=
  let offset := '[' :: Text.decimal f.offset ++ [']']
  match f.kind with
  | .constant =>
    offset ++ " size=".toList ++ Text.decimal (f.unit * byteBits) ++ " bits, label=".toList ++
      f.label.toList ++ ", value=".toList ++ Text.signedDecimal value.toInt
  | .space =>
    offset ++ " size=".toList ++ Text.decimal f.totalSize ++ " bytes, label=".toList ++
      f.label.toList

end Field

end BinaryLayout
