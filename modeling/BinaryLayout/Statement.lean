import BinaryLayout.Field
import BinaryLayout.Config

/-!
# Statements

A statement says what a label declares: its first two letters give the kind of field and its last
two characters the type of the elements. What stands between them does not matter.
-/

namespace BinaryLayout

/-- The type of an element. -/
inductive ElementType
  | byte
  | word
  | int
  | long
  deriving DecidableEq, Repr

/-- The bytes of an element on a machine of the given width. -/
def ElementType.size (width : Width) : ElementType → Nat
  | byte => 1
  | word => 2
  | int => width.intSize
  | long => width.longSize

/-- What a declaration declares. -/
structure Statement where
  kind : FieldKind
  element : ElementType
  deriving DecidableEq, Repr

/-- Why a text is no statement. -/
inductive StatementError
  /-- The text names no kind of field. -/
  | unknownKind
  /-- The text names no element type. -/
  | unknownElement
  deriving DecidableEq, Repr

namespace Statement

/-- The kind of field that a statement's first letters name. -/
def kind? (s : List Char) : Option FieldKind :=
  if ['d', 'c'].isPrefixOf s then some .constant
  else if ['d', 's'].isPrefixOf s then some .space
  else none

/-- The element type that a statement's last characters name. -/
def element? (s : List Char) : Option ElementType :=
  if ['.', 'b'].isSuffixOf s then some .byte
  else if ['.', 'w'].isSuffixOf s || ['.', 's'].isSuffixOf s then some .word
  else if ['.', 'i'].isSuffixOf s then some .int
  else if ['.', 'l'].isSuffixOf s then some .long
  else none

/-- Reads a statement. -/
def read (s : List Char) : Except StatementError Statement :=
  match kind? s with
  | none => .error .unknownKind
  | some kind =>
    match element? s with
    | none => .error .unknownElement
    | some element => .ok ⟨kind, element⟩

end Statement

end BinaryLayout
