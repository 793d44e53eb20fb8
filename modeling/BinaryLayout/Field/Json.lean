import BinaryLayout.Field
import BinaryLayout.Json.Record

/-!
# Fields in JSON

A field is a record of five members: its label is a string, its kind a name, and the three others
are 64-bit words.
-/

namespace BinaryLayout

/-- Every kind of field, in the order in which messages list them. -/
def FieldKind.all : List FieldKind := [constant, space]

/-- The name of a kind of field. -/
def FieldKind.name : FieldKind → String
  | constant => "Constant"
  | space => "Space"

namespace Field

/-- The members of a field. -/
inductive Member
  | label
  | kind
  | unit
  | offset
  | datum
  deriving DecidableEq, Repr

namespace Member

/-- Every member, in order. -/
def all : List Member := [label, kind, unit, offset, datum]

/-- The name of a member. -/
def name : Member → String
  | label => "label"
  | kind => "kind"
  | unit => "unit_size"
  | offset => "offset"
  | datum => "count_or_value"

/-- What a member's value is. -/
abbrev Value : Member → Type
  | label => String
  | kind => FieldKind
  | unit => Nat
  | offset => Nat
  | datum => Int64

/-- The type of a member's value in a text. -/
def type : (m : Member) → Json.Kind m.Value
  | label => .text
  | kind => .named FieldKind.all FieldKind.name
  | unit => .sizeWord
  | offset => .sizeWord
  | datum => .signedWord64

end Member

/-- The value of a member of the field. -/
def value (f : Field) : (m : Member) → m.Value
  | .label => f.label
  | .kind => f.kind
  | .unit => f.unit
  | .offset => f.offset
  | .datum => f.datum

/-- The record that a field is written as. -/
def schema : Json.Schema Field where
  title := "Field"
  Member := Member
  members := Member.all
  mem_members := by intro m; cases m <;> simp [Member.all]
  decEq := inferInstance
  name := Member.name
  nodup_names := by decide
  Value := Member.Value
  kind := Member.type
  value := value
  make values :=
    ⟨values .label, values .kind, values .unit, values .offset, values .datum⟩
  make_value _ := rfl
  value_make values := by funext m; cases m <;> rfl

end Field

end BinaryLayout
