import BinaryLayout.Literal
import BinaryLayout.Statement

/-!
# Definitions

A definition is a sequence of declarations, each a label, a statement and a literal, separated by
blank characters. The declarations are placed in the buffer one after another: a constant at the
next multiple of its alignment, a space at once. No two labels are equal, no space has a negative
number of elements, and no field ends beyond the largest size. The first declaration that breaks a
rule, and in it the first rule that is broken, is reported.
-/

namespace BinaryLayout

/-- Why a text is no definition. -/
inductive DefinitionError
  /-- The text ends behind a label or its statement. -/
  | incomplete (label : String)
  /-- A statement names no kind of field. -/
  | unknownKind (statement : String)
  /-- A statement names no element type. -/
  | unknownElement (statement : String)
  /-- A value or number of elements is no literal. -/
  | invalidLiteral (literal : String)
  /-- A label is declared for the second time. -/
  | duplicateLabel (label : String)
  /-- A space has a negative number of elements. -/
  | negativeCount (label : String) (count : Int64)
  /-- A field ends beyond the largest size. -/
  | tooLarge (label : String)
  deriving DecidableEq, Repr

/-- The fault in words. -/
def DefinitionError.message : DefinitionError → String
  | incomplete label => "malformed declaration: " ++ label ++ " is missing its statement or data"
  | unknownKind statement => "invalid declaration: " ++ statement
  | unknownElement statement => "invalid declaration type: " ++ statement
  | invalidLiteral literal => "invalid data value: " ++ literal
  | duplicateLabel label => "duplicated label: " ++ label
  | negativeCount label count =>
    "invalid repeat count " ++ String.ofList (Text.signedDecimal count.toInt) ++ " for " ++ label
  | tooLarge label => "layout size overflow at " ++ label

/-- Placed fields and the size of the buffer that holds them. -/
structure Definition where
  fields : List Field
  totalSize : Nat
  deriving DecidableEq, Repr

/-- A declaration that has not been placed. -/
structure Declaration where
  label : String
  statement : Statement
  datum : Int64
  deriving DecidableEq, Repr

namespace Declaration

/-- Reads the statement of a declaration. -/
def readStatement (s : List Char) : Except DefinitionError Statement :=
  match Statement.read s with
  | .ok statement => .ok statement
  | .error .unknownKind => .error (.unknownKind (String.ofList s))
  | .error .unknownElement => .error (.unknownElement (String.ofList s))

/-- Reads the value or number of elements of a declaration. -/
def readDatum (s : List Char) : Except DefinitionError Int64 :=
  match Literal.read? s with
  | some datum => .ok datum
  | none => .error (.invalidLiteral (String.ofList s))

/-- Reads the three words of a declaration. -/
def read (label statement datum : List Char) : Except DefinitionError Declaration :=
  match readStatement statement with
  | .error fault => .error fault
  | .ok statement =>
    match readDatum datum with
    | .error fault => .error fault
    | .ok datum => .ok ⟨String.ofList label, statement, datum⟩

/-- The bytes of an element of the declaration. -/
def unit (d : Declaration) (width : Width) : Nat := d.statement.element.size width

/-- Whether the declaration is a space with a negative number of elements. -/
def hasNegativeCount (d : Declaration) : Bool :=
  d.statement.kind == .space && d.datum < 0

/-- Where the declaration starts when `offset` bytes of the buffer are taken, if that is an
address. -/
def start? (d : Declaration) (width : Width) (padding : Padding) (offset : Nat) : Option Nat :=
  match d.statement.kind with
  | .constant => Word.add? offset (padding.gap offset (d.unit width))
  | .space => some offset

/-- The bytes that the declaration takes, if their number is a machine word. -/
def extent? (d : Declaration) (width : Width) : Option Nat :=
  match d.statement.kind with
  | .constant => some (d.unit width)
  | .space => Word.mul? (d.unit width) d.datum.toInt.toNat

/-- The field that the declaration becomes at an offset. -/
def fieldAt (d : Declaration) (width : Width) (offset : Nat) : Field :=
  ⟨d.label, d.statement.kind, d.unit width, offset, d.datum⟩

end Declaration

namespace Definition

/-- The largest size of a buffer. -/
def maxSize : Nat := Word.half64 - 1

/-- The end of a field, if no larger than a buffer can be. -/
def stop? (start extent : Nat) : Option Nat := (Word.add? start extent).filter (· ≤ maxSize)

/-- Where a declaration starts and ends behind `offset` bytes, if the buffer can be so large. -/
def slot? (width : Width) (padding : Padding) (offset : Nat) (d : Declaration) :
    Option (Nat × Nat) := do
  let start ← d.start? width padding offset
  let extent ← d.extent? width
  let stop ← stop? start extent
  return (start, stop)

/-- Places a declaration behind `offset` bytes. The result has the offset behind it. -/
def placeOne (width : Width) (padding : Padding) (offset : Nat) (d : Declaration) :
    Except DefinitionError (Field × Nat) :=
  if d.hasNegativeCount then .error (.negativeCount d.label d.datum)
  else
    match slot? width padding offset d with
    | none => .error (.tooLarge d.label)
    | some (start, stop) => .ok (d.fieldAt width start, stop)

/-- Places the declarations that the words form behind `offset` bytes and the given labels. -/
def place (width : Width) (padding : Padding) (labels : List String) (offset : Nat) :
    List (List Char) → Except DefinitionError Definition
  | [] => .ok ⟨[], offset⟩
  | label :: statement :: datum :: rest =>
    match Declaration.read label statement datum with
    | .error fault => .error fault
    | .ok d =>
      if d.label ∈ labels then .error (.duplicateLabel d.label)
      else
        match placeOne width padding offset d with
        | .error fault => .error fault
        | .ok (f, stop) =>
          match place width padding (d.label :: labels) stop rest with
          | .error fault => .error fault
          | .ok later => .ok ⟨f :: later.fields, later.totalSize⟩
  | label :: _ => .error (.incomplete (String.ofList label))

/-- Reads a definition. -/
def parse (text : String) (width : Width) (padding : Padding) :
    Except DefinitionError Definition :=
  place width padding [] 0 (Text.words text.toList)

end Definition

end BinaryLayout
