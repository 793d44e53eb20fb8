import BinaryLayout.File

/-!
# Operations on a layout

The requests that a layout serves, as data: each has an answer or a fault, and leaves a layout for
the next one. A request that fails leaves the layout as it was.
-/

namespace BinaryLayout

namespace Layout

/-- A request to a layout. -/
inductive Operation
  | size
  | config
  | fields
  | labels
  | field (label : String)
  | describe (label : String) (value : Int64)
  | range (label : String)
  | offsetOf (label : String)
  | sizeOf (label : String)
  | get (label : String)
  | getAt (label : String) (index : Nat)
  | set (label : String) (value : Int64)
  | setAt (label : String) (value : Int64) (index : Nat)
  | bytes
  | setBytes (data : List UInt8)
  | getString (label : String)
  | getCString (label : String)
  | setString (label text : String)
  | hexDump
  | display
  | saveImage
  | loadImage (image : File)
  deriving DecidableEq, Repr

/-- The answer to a request. -/
inductive Answer
  | done
  | number (n : Nat)
  | value (v : Int64)
  | text (s : String)
  | optionalText (s : Option String)
  | bytes (data : List UInt8)
  | range (start stop : Nat)
  | config (c : Config)
  | field (f : Field)
  | fields (fs : List Field)
  | labels (names : List String)
  deriving DecidableEq, Repr

/-- Why a request fails. -/
inductive OperationError
  | layout (fault : LayoutError)
  | file (fault : FileError)
  deriving DecidableEq, Repr

/-- The fault in words. -/
def OperationError.message : OperationError → String
  | layout fault => fault.message
  | file fault => fault.report

/-- The outcome of a request that leaves the layout as it is. -/
def reading {α : Type} (l : Layout) (answer : α → Answer) (result : Except LayoutError α) :
    Except OperationError Answer × Layout :=
  match result with
  | .ok a => (.ok (answer a), l)
  | .error fault => (.error (.layout fault), l)

/-- The outcome of a request that may change the layout. -/
def writing (l : Layout) (result : Except LayoutError (Answer × Layout)) :
    Except OperationError Answer × Layout :=
  match result with
  | .ok (answer, l) => (.ok answer, l)
  | .error fault => (.error (.layout fault), l)

/-- Serves a request. -/
def perform (l : Layout) : Operation → Except OperationError Answer × Layout
  | .size => (.ok (.number l.size), l)
  | .config => (.ok (.config l.config), l)
  | .fields => (.ok (.fields l.fields), l)
  | .labels => (.ok (.labels l.labels), l)
  | .field label => l.reading .field (l.field label)
  | .describe label value =>
    l.reading (fun f => .text (String.ofList (f.describe value))) (l.field label)
  | .range label => l.reading (fun f => .range f.offset f.stop) (l.field label)
  | .offsetOf label => l.reading .number (l.offsetOf label)
  | .sizeOf label => l.reading .number (l.sizeOf label)
  | .get label => l.reading .value (l.get label)
  | .getAt label index => l.reading .value (l.getAt label index)
  | .set label value => l.writing ((l.set label value).map fun l => (.done, l))
  | .setAt label value index => l.writing ((l.setAt label value index).map fun l => (.done, l))
  | .bytes => (.ok (.bytes l.bytes), l)
  | .setBytes data => (.ok (.number (l.setBytes data).1), (l.setBytes data).2)
  | .getString label => l.reading .optionalText (l.getString label)
  | .getCString label => l.reading .optionalText (l.getCString label)
  | .setString label text =>
    l.writing ((l.setString label text).map fun r => (.number r.1, r.2))
  | .hexDump => (.ok (.text l.hexDump), l)
  | .display => l.reading .text l.display
  | .saveImage => (.ok (.bytes l.saveImage), l)
  | .loadImage image =>
    match l.loadImage image with
    | .ok (copied, l) => (.ok (.number copied), l)
    | .error fault => (.error (.file fault), l)

/-- The outcomes of a sequence of requests, each with the layout that it leaves. -/
def transcript (l : Layout) : List Operation → List (Except OperationError Answer × Layout)
  | [] => []
  | operation :: operations =>
    let outcome := l.perform operation
    outcome :: transcript outcome.2 operations

end Layout

end BinaryLayout
