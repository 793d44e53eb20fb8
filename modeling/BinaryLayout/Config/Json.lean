import BinaryLayout.Config
import BinaryLayout.Json.Record

/-!
# Configurations in JSON

A configuration is a record of three members. Its width is an integer, its number of bits, and the
two other settings are names. The written form is an object with one member to a line.
-/

namespace BinaryLayout.Config

/-- The members of a configuration. -/
inductive Setting
  | width
  | byteOrder
  | padding
  deriving DecidableEq, Repr

namespace Setting

/-- Every setting, in order. -/
def all : List Setting := [width, byteOrder, padding]

/-- The name of a setting. -/
def name : Setting → String
  | width => "width"
  | byteOrder => "ordering"
  | padding => "padding"

/-- What a setting is set to. -/
abbrev Value : Setting → Type
  | width => Width
  | byteOrder => ByteOrder
  | padding => Padding

/-- The type of a setting. A width is made out of its number of bits. -/
def kind : (setting : Setting) → Json.Kind setting.Value
  | width =>
    .converted .word32 (fun bits => (Width.ofBits bits).mapError ConfigError.message) Width.bits
  | byteOrder => .named ByteOrder.all ByteOrder.name
  | padding => .named Padding.all Padding.name

end Setting

/-- What a setting of the configuration is set to. -/
def value (config : Config) : (setting : Setting) → setting.Value
  | .width => config.width
  | .byteOrder => config.byteOrder
  | .padding => config.padding

/-- The record that a configuration is written as. -/
def schema : Json.Schema Config where
  title := "LayoutConfig"
  Member := Setting
  members := Setting.all
  mem_members := by intro setting; cases setting <;> simp [Setting.all]
  decEq := inferInstance
  name := Setting.name
  nodup_names := by decide
  Value := Setting.Value
  kind := Setting.kind
  value := value
  make values := ⟨values .width, values .byteOrder, values .padding⟩
  make_value _ := rfl
  value_make values := by funext setting; cases setting <;> rfl

/-- Why a text gives no configuration. -/
inductive TextError (ε : Type)
  /-- The reader of JSON texts refuses it. -/
  | json (fault : ε)
  deriving DecidableEq, Repr

/-- The fault in words, given the words of the reader. -/
def TextError.message {ε : Type} (words : ε → String) : TextError ε → String
  | json fault => "Failed to parse config JSON: " ++ words fault

/-- The configuration that a reader of JSON texts finds. -/
def ofJson {ε : Type} (read : String → Except ε Config) (text : String) :
    Except (TextError ε) Config :=
  (read text).mapError .json

/-- The written form of a configuration. -/
def toJson (config : Config) : String := schema.writePretty config

end BinaryLayout.Config
