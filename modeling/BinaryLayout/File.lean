import BinaryLayout.Layout.Basic

/-!
# Files and images

The content of a file is a sequence of bytes. A file can be absent, and one that is read as text
can hold bytes that are no UTF-8. An image is a file that holds the bytes of a layout's buffer and
nothing else.
-/

namespace BinaryLayout

/-- What a file name leads to: the bytes of the file, or nothing. -/
abbrev File := Option (List UInt8)

/-- Why a file cannot be read. -/
inductive FileError
  /-- There is no such file. -/
  | missing
  /-- The file is no text. -/
  | notText
  deriving DecidableEq, Repr

namespace FileError

/-- The fault in words. -/
def message : FileError → String
  | missing => "No such file or directory (os error 2)"
  | notText => "stream did not contain valid UTF-8"

/-- The words in which a failure to load something tells of the fault. -/
def report (fault : FileError) : String := "IO error: " ++ fault.message

end FileError

namespace File

/-- The bytes of a file. -/
def bytes : File → Except FileError (List UInt8)
  | some content => .ok content
  | none => .error .missing

/-- The text of a file that holds UTF-8 and nothing else. -/
def text : File → Except FileError String
  | some content =>
    match String.fromUTF8? ⟨content.toArray⟩ with
    | some s => .ok s
    | none => .error .notText
  | none => .error .missing

end File

/-! ### Images -/

namespace Layout

/-- The content of the image of a layout. -/
def saveImage (l : Layout) : List UInt8 := l.bytes

/-- Lays an image over the beginning of the buffer. The result has the number of bytes copied. -/
def loadImage (l : Layout) (image : File) : Except FileError (Nat × Layout) :=
  match image.bytes with
  | .ok data => .ok (l.setBytes data)
  | .error fault => .error fault

end Layout

end BinaryLayout
