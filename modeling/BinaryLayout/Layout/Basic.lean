import BinaryLayout.Buffer
import BinaryLayout.Definition
import BinaryLayout.HexDump
import BinaryLayout.Scalar
import BinaryLayout.Text.Basic

/-!
# Layouts

A layout is a definition's fields together with the buffer that they describe. The fields are fixed
when the layout is built; after that only the buffer changes, and everything that is read comes from
the buffer. An element of a field is found by its index, which may lead beyond the field's end as
long as the element lies in the buffer.
-/

namespace BinaryLayout

/-- Why a layout cannot be built, or refuses a request. -/
inductive LayoutError
  /-- The definition is faulty. -/
  | definition (reason : DefinitionError)
  /-- No field has the label. -/
  | undefinedLabel (label : String)
  /-- An element lies beyond the buffer. -/
  | outOfBounds (label : String) (index : Nat)
  /-- There is no memory for a buffer of the size. -/
  | allocationFailed (size : Nat)
  deriving DecidableEq, Repr

/-- The fault in words. -/
def LayoutError.message : LayoutError → String
  | definition reason => "Parse error: " ++ reason.message
  | undefinedLabel label => "undefined label " ++ label
  | outOfBounds label index =>
    "memory offset out of bounds: " ++ label ++ "[" ++ String.ofList (Text.decimal index) ++ "]"
  | allocationFailed size =>
    "cannot allocate a " ++ String.ofList (Text.decimal size) ++ " byte layout"

/-- Placed fields and the buffer that they describe. -/
structure Layout where
  config : Config
  fields : List Field
  buffer : Buffer
  deriving DecidableEq, Repr

namespace Layout

/-! ### Building -/

/-- Stores the initial values of the constants among the fields. -/
def storeConstants (order : ByteOrder) : List Field → Buffer → Except LayoutError Buffer
  | [], buffer => .ok buffer
  | f :: fields, buffer =>
    if f.isConstant then
      match buffer.write f.offset (Scalar.encode order f.unit f.datum) with
      | .ok buffer => storeConstants order fields buffer
      | .error _ => .error (.outOfBounds f.label 0)
    else storeConstants order fields buffer

/-- The layout of a definition, with the constants' initial values in its buffer, on a system that
grants memory for buffers of certain sizes. -/
def build (granted : Nat → Bool) (text : String) (config : Config) :
    Except LayoutError Layout :=
  match Definition.parse text config.width config.padding with
  | .error reason => .error (.definition reason)
  | .ok definition =>
    match Buffer.allocate granted definition.totalSize with
    | .error _ => .error (.allocationFailed definition.totalSize)
    | .ok buffer =>
      match storeConstants config.byteOrder definition.fields buffer with
      | .error fault => .error fault
      | .ok buffer => .ok ⟨config, definition.fields, buffer⟩

/-! ### Fields -/

/-- The bytes of the buffer, padding included. -/
def size (l : Layout) : Nat := l.buffer.size

/-- The labels in the order of declaration. -/
def labels (l : Layout) : List String := l.fields.map Field.label

/-- The field with a label. -/
def field (l : Layout) (label : String) : Except LayoutError Field :=
  match l.fields.find? fun f => f.label == label with
  | some f => .ok f
  | none => .error (.undefinedLabel label)

/-- The offset of a field. -/
def offsetOf (l : Layout) (label : String) : Except LayoutError Nat :=
  (l.field label).map Field.offset

/-- The bytes of a field, padding aside. -/
def sizeOf (l : Layout) (label : String) : Except LayoutError Nat :=
  (l.field label).map Field.totalSize

/-! ### Elements -/

/-- The address of an element, if it is an address at all. -/
def address? (f : Field) (index : Nat) : Option Nat :=
  (Word.mul? index f.unit).bind fun distance => Word.add? distance f.offset

/-- The address of an element, which must lie in the buffer as a whole. -/
def element (l : Layout) (f : Field) (index : Nat) : Except LayoutError Nat :=
  match address? f index with
  | none => .error (.outOfBounds f.label index)
  | some start =>
    match l.buffer.read start f.unit with
    | .ok _ => .ok start
    | .error _ => .error (.outOfBounds f.label index)

/-- The bytes of a range that belongs to a field. -/
def readRange (l : Layout) (f : Field) (start length : Nat) :
    Except LayoutError (List UInt8) :=
  match l.buffer.read start length with
  | .ok bytes => .ok bytes
  | .error _ => .error (.outOfBounds f.label 0)

/-- The layout with the bytes of a range replaced that belongs to a field. -/
def writeRange (l : Layout) (f : Field) (index start : Nat) (bytes : List UInt8) :
    Except LayoutError Layout :=
  match l.buffer.write start bytes with
  | .ok buffer => .ok { l with buffer }
  | .error _ => .error (.outOfBounds f.label index)

/-- The value of an element of a field. -/
def valueAt (l : Layout) (f : Field) (index : Nat) : Except LayoutError Int64 :=
  match l.element f index with
  | .error fault => .error fault
  | .ok start =>
    match l.readRange f start f.unit with
    | .error fault => .error fault
    | .ok bytes => .ok (Scalar.decode l.config.byteOrder bytes)

/-- The layout with a value stored in an element of a field. -/
def storeAt (l : Layout) (f : Field) (value : Int64) (index : Nat) : Except LayoutError Layout :=
  match l.element f index with
  | .error fault => .error fault
  | .ok start => l.writeRange f index start (Scalar.encode l.config.byteOrder f.unit value)

/-- Reads an element of the field with a label. -/
def getAt (l : Layout) (label : String) (index : Nat) : Except LayoutError Int64 :=
  match l.field label with
  | .error fault => .error fault
  | .ok f => l.valueAt f index

/-- Reads a constant. A space reads as zero. -/
def get (l : Layout) (label : String) : Except LayoutError Int64 :=
  match l.field label with
  | .error fault => .error fault
  | .ok f => if f.isConstant then l.valueAt f 0 else .ok 0

/-- Writes an element of the field with a label. -/
def setAt (l : Layout) (label : String) (value : Int64) (index : Nat) :
    Except LayoutError Layout :=
  match l.field label with
  | .error fault => .error fault
  | .ok f => l.storeAt f value index

/-- Writes a constant. A space is left as it is. -/
def set (l : Layout) (label : String) (value : Int64) : Except LayoutError Layout :=
  match l.field label with
  | .error fault => .error fault
  | .ok f => if f.isConstant then l.storeAt f value 0 else .ok l

/-! ### The whole buffer -/

/-- The bytes of the buffer. -/
def bytes (l : Layout) : List UInt8 := l.buffer.bytes

/-- Lays data over the beginning of the buffer. The result has the number of bytes copied. -/
def setBytes (l : Layout) (data : List UInt8) : Nat × Layout :=
  (l.buffer.fitting data, { l with buffer := l.buffer.overlay data })

/-- The hex dump of the buffer. -/
def hexDump (l : Layout) : String := String.ofList (HexDump.dump l.bytes)

/-! ### Text -/

/-- The content of a field as single-byte text, if the field has any bytes. -/
def getString (l : Layout) (label : String) : Except LayoutError (Option String) :=
  match l.field label with
  | .error fault => .error fault
  | .ok f =>
    if f.totalSize = 0 then .ok none
    else
      match l.readRange f f.offset f.totalSize with
      | .error fault => .error fault
      | .ok bytes => .ok (some (String.ofList (Text.Latin.decode bytes)))

/-- The content of a field as single-byte text up to the first NUL. -/
def getCString (l : Layout) (label : String) : Except LayoutError (Option String) :=
  match l.getString label with
  | .error fault => .error fault
  | .ok none => .ok none
  | .ok (some s) => .ok (some (String.ofList (Text.Latin.beforeNul s.toList)))

/-- The bytes of a text, cut to a size or followed by zeros up to it. -/
def paddedText (text : String) (size : Nat) : List UInt8 :=
  let bytes := (Text.Latin.encode text.toList).take size
  bytes ++ List.replicate (size - bytes.length) 0

/-- Stores a text in a field, cut to its size and followed by zeros. A text without characters
leaves the field as it is. The result has the number of bytes copied. -/
def setString (l : Layout) (label text : String) : Except LayoutError (Nat × Layout) :=
  match l.field label with
  | .error fault => .error fault
  | .ok f =>
    let copied := min text.length f.totalSize
    if copied = 0 then .ok (0, l)
    else
      match l.writeRange f 0 f.offset (paddedText text f.totalSize) with
      | .error fault => .error fault
      | .ok l => .ok (copied, l)

/-! ### The field table -/

/-- The lines of the given fields. A constant's current value is looked up by its label. -/
def table (l : Layout) : List Field → Except LayoutError (List Char)
  | [] => .ok []
  | f :: fields =>
    match (if f.isConstant then l.getAt f.label 0 else .ok 0) with
    | .error fault => .error fault
    | .ok value =>
      match l.table fields with
      | .error fault => .error fault
      | .ok lines => .ok (f.describe value ++ '\n' :: lines)

/-- The field table: a line for each field in the order of declaration. -/
def display (l : Layout) : Except LayoutError String := (l.table l.fields).map String.ofList

end Layout

end BinaryLayout
