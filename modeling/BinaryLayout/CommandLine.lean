import BinaryLayout.Config.Json
import BinaryLayout.File

/-!
# The command

The command shows the layout of a definition file: the field table and a hex dump of the buffer.
The settings come from a configuration file or as three words, and an image may be laid over the
buffer first. Its work is a function of its arguments and of what it finds around it: it either
writes the whole dump, or reports the first step that failed and writes nothing else.

What it finds around it is given: the files, the sizes for which there is memory, a reader of JSON
texts and the form of reports. The first argument is the name by which the command was called. An
argument need not be a text, and then the command panics before it does anything.
-/

namespace BinaryLayout.CommandLine

/-- What the command finds around it. -/
structure Surroundings (ε : Type) where
  /-- The file of a name. -/
  files : String → File
  /-- The sizes for which the system grants memory. -/
  granted : Nat → Bool
  /-- Reads a configuration off a JSON text. -/
  readConfig : String → Except ε Config
  /-- The words for a fault of the reader of JSON texts. -/
  words : ε → String
  /-- The report of a fault with a message and perhaps another fault behind it. -/
  render : String → Option String → String

/-- What a run of the command comes to. -/
inductive Outcome
  /-- The run ends with an exit code, with what it has written as output and about errors. -/
  | exited (code : Nat) (output errors : String)
  /-- The run breaks off in a panic. -/
  | panicked
  deriving DecidableEq, Repr

/-- An argument of the command. -/
inductive Argument
  | text (s : String)
  /-- The bytes of the argument are no text. -/
  | notText
  deriving DecidableEq, Repr

/-- The text of an argument. -/
def Argument.text? : Argument → Option String
  | text s => some s
  | notText => none

/-! ### Failures -/

/-- Why a run fails that has a definition and something behind it. -/
inductive Failure (ε : Type)
  /-- The words for the settings are not all there. -/
  | settingsMissing
  /-- A word names no setting. -/
  | setting (fault : ConfigError)
  /-- The configuration file cannot be read. -/
  | configFile (fault : FileError)
  /-- The configuration file holds no configuration. -/
  | config (fault : Config.TextError ε)
  /-- The definition or the image cannot be read. -/
  | file (fault : FileError)
  /-- The layout cannot be built. -/
  | layout (fault : LayoutError)
  deriving DecidableEq, Repr

namespace Failure

variable {ε : Type}

/-- The failure in words. -/
def message (words : ε → String) : Failure ε → String
  | settingsMissing => "expected <width> <ordering> <padding> after the definition"
  | setting fault => fault.message
  | configFile fault => fault.message
  | config fault => fault.message words
  | file fault => fault.report
  | layout fault => fault.message

/-- The words for the fault behind a failure, if there is one. -/
def cause? (words : ε → String) : Failure ε → Option String
  | config (.json fault) => some (words fault)
  | file fault => some fault.message
  | layout (.definition reason) => some reason.message
  | _ => none

/-- What is written about a failure. -/
def report (around : Surroundings ε) (failure : Failure ε) : String :=
  "Error: " ++ around.render (failure.message around.words) (failure.cause? around.words) ++ "\n"

end Failure

/-- How the command is used that is called by the given name. -/
def usage (program : String) : String :=
  "Usage: " ++ program ++
    " <definition> (<config.json> | <width> <ordering> <padding>) [image.bin]\n" ++
    "\nExamples:\n" ++
    "  " ++ program ++ " header.def layout.json\n" ++
    "  " ++ program ++ " header.def 32 little int dump.bin\n"

/-! ### Steps -/

section Steps

variable {ε : Type} (around : Surroundings ε)

/-- Whether a word names a configuration file. -/
def namesConfigFile (word : String) : Bool := ".json".toList.isSuffixOf word.toList

/-- The configuration that a file holds. -/
def configOfFile (file : File) : Except (Failure ε) Config :=
  match file.text with
  | .error fault => .error (.configFile fault)
  | .ok text => (Config.ofJson around.readConfig text).mapError .config

/-- The configuration that three words give, read in their order. -/
def configOfWords (width byteOrder padding : String) : Except (Failure ε) Config :=
  match Width.ofText width with
  | .error fault => .error (.setting fault)
  | .ok width =>
    match ByteOrder.ofText byteOrder with
    | .error fault => .error (.setting fault)
    | .ok byteOrder =>
      match Padding.ofText padding with
      | .error fault => .error (.setting fault)
      | .ok padding => .ok ⟨width, byteOrder, padding⟩

/-- The configuration that the arguments behind the definition give, and the name of the image
behind it. -/
def settings (first : String) (others : List String) :
    Except (Failure ε) (Config × Option String) :=
  if namesConfigFile first then
    (configOfFile around (around.files first)).map fun config => (config, others.head?)
  else
    match others with
    | byteOrder :: padding :: others =>
      (configOfWords first byteOrder padding).map fun config => (config, others.head?)
    | _ => .error .settingsMissing

/-- The layout of a definition file. -/
def layoutOfFile (file : File) (config : Config) : Except (Failure ε) Layout :=
  match file.text with
  | .error fault => .error (.file fault)
  | .ok text => (Layout.build around.granted text config).mapError .layout

/-- The layout with an image over it, if one is named. -/
def withImage (l : Layout) : Option String → Except (Failure ε) Layout
  | none => .ok l
  | some image =>
    match l.loadImage (around.files image) with
    | .ok (_, l) => .ok l
    | .error fault => .error (.file fault)

/-- The layout that the arguments ask for. -/
def layoutFor (definition first : String) (others : List String) : Except (Failure ε) Layout :=
  match settings around first others with
  | .error failure => .error failure
  | .ok (config, image) =>
    match layoutOfFile around (around.files definition) config with
    | .error failure => .error failure
    | .ok l => withImage around l image

/-- The dump of a layout, unless its field table cannot be shown. -/
def dump? (l : Layout) : Option String :=
  match l.display with
  | .error _ => none
  | .ok table =>
    some ("=== Fields (" ++ String.ofList (Text.decimal l.size) ++ " bytes) ===\n\n" ++ table ++
      "\n=== Buffer ===\n\n" ++ l.hexDump)

/-- Runs the command on arguments that are texts. There is no usage without a name, and a table that
cannot be shown leaves nothing to go on with. -/
def runTexts : List String → Outcome
  | [] => .panicked
  | _ :: definition :: first :: others =>
    match layoutFor around definition first others with
    | .error failure => .exited 1 "" (failure.report around)
    | .ok l =>
      match dump? l with
      | some text => .exited 0 text ""
      | none => .panicked
  | program :: _ => .exited 1 "" (usage program)

/-- Runs the command on its arguments. -/
def run (arguments : List Argument) : Outcome :=
  match arguments.mapM Argument.text? with
  | some texts => runTexts around texts
  | none => .panicked

end Steps

/-! ### Usual surroundings -/

/-- The spaces before each line of a cause. -/
def indentation : List Char := List.replicate 4 ' '

/-- A text with each of its lines indented. -/
def indented (s : String) : String :=
  String.ofList (indentation ++
    s.toList.flatMap fun c => if c = '\n' then '\n' :: indentation else [c])

/-- A report that shows what lies behind a fault below it. -/
def renderIndented (message : String) : Option String → String
  | some cause => message ++ "\n\nCaused by:\n" ++ indented cause
  | none => message

/-- Surroundings with the library's own reader of JSON texts. -/
def Surroundings.usual (files : String → File) (granted : Nat → Bool) : Surroundings Json.Fault :=
  ⟨files, granted, Config.schema.read, Json.Fault.message, renderIndented⟩

end BinaryLayout.CommandLine
