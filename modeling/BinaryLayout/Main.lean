import BinaryLayout.CommandLine

/-!
# The program

Reads the files that the arguments name, runs the command on them and writes its outcome.
-/

open BinaryLayout in
/-- The file of a name; what cannot be read counts as absent. -/
def readNamedFile (name : String) : IO (String × File) := do
  try
    let content ← IO.FS.readBinFile name
    return (name, some content.toList)
  catch _ =>
    return (name, none)

/-- The name that usage texts give to the program. -/
def programName : String := "memstruct-dump"

/-- Whether a block of the size fits into the 47-bit addresses of a process. -/
def fitsInProcess (size : Nat) : Bool := size ≤ 140737488355328

open BinaryLayout CommandLine in
/-- Runs the command. The system passes on only arguments that are texts. -/
def main (arguments : List String) : IO UInt32 := do
  let files ← arguments.mapM readNamedFile
  let around := Surroundings.usual (fun name => (files.lookup name).join) fitsInProcess
  match run around ((programName :: arguments).map Argument.text) with
  | .exited code output errors =>
    IO.print output
    IO.eprint errors
    return code.toUInt32
  | .panicked => return 101
