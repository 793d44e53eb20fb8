import BinaryLayout.Binary64
import BinaryLayout.Buffer
import BinaryLayout.Config
import BinaryLayout.CommandLine
import BinaryLayout.Config.Json
import BinaryLayout.Definition
import BinaryLayout.Field
import BinaryLayout.Field.Json
import BinaryLayout.File
import BinaryLayout.HexDump
import BinaryLayout.Json.Number
import BinaryLayout.Json.Record
import BinaryLayout.Json.Scalar
import BinaryLayout.Json.Scan
import BinaryLayout.Json.Skip
import BinaryLayout.Json.Text
import BinaryLayout.Layout.Basic
import BinaryLayout.Layout.Operation
import BinaryLayout.Literal
import BinaryLayout.Main
import BinaryLayout.Scalar
import BinaryLayout.Statement
import BinaryLayout.Text.Basic
import BinaryLayout.Text.Quoted
import BinaryLayout.Word
import BinaryLayout.Proofs.Definition.Placement
import BinaryLayout.Proofs.Text.Words
import BinaryLayout.Proofs.Buffer.Slice
import BinaryLayout.Proofs.Definition.FirstFault
import BinaryLayout.Proofs.Scalar.Codec
import BinaryLayout.Proofs.Layout.Element
import BinaryLayout.Proofs.Layout.InitialImage
import BinaryLayout.Proofs.Layout.Cells
import BinaryLayout.Proofs.Layout.Mirror
import BinaryLayout.Proofs.Layout.Accessors
import BinaryLayout.Proofs.Layout.Run
import BinaryLayout.Proofs.Layout.Faults
import BinaryLayout.Proofs.Layout.Safety
import BinaryLayout.Proofs.Layout.Access
import BinaryLayout.Proofs.Definition.Outline
import BinaryLayout.Proofs.Layout.Outline
import BinaryLayout.Proofs.Layout.Gaps
import BinaryLayout.Proofs.Layout.Independence
import BinaryLayout.Proofs.Text.Spacing
import BinaryLayout.Proofs.Text.Numerals
import BinaryLayout.Proofs.Literal.Grammar
import BinaryLayout.Proofs.Literal.Stages
import BinaryLayout.Proofs.Definition.Reading
import BinaryLayout.Proofs.Definition.Printing
import BinaryLayout.Proofs.Definition.Spelling
import BinaryLayout.Proofs.Layout.Snapshot
import BinaryLayout.Proofs.CommandLine.Stages
import BinaryLayout.Proofs.Layout.Strings
import BinaryLayout.Proofs.Literal.Acceptance
import BinaryLayout.Proofs.Scalar.Shifting
import BinaryLayout.Proofs.CommandLine.Settings
import BinaryLayout.Proofs.Layout.WriteBack
import BinaryLayout.Proofs.Layout.TextView
import BinaryLayout.Proofs.Definition.Appending
import BinaryLayout.Proofs.Definition.Relocation
import BinaryLayout.Proofs.Layout.Appending
import BinaryLayout.Proofs.Buffer.History
import BinaryLayout.Proofs.Definition.Growth
import BinaryLayout.Proofs.HexDump
import BinaryLayout.Proofs.Layout.FieldTable
import BinaryLayout.Proofs.Layout.Labels
import BinaryLayout.Proofs.Text.Names
import BinaryLayout.Proofs.Config.FreeText
import BinaryLayout.Proofs.Json.Grammar
import BinaryLayout.Proofs.Json.Strings
import BinaryLayout.Proofs.Json.Numbers
import BinaryLayout.Proofs.Json.Passing
import BinaryLayout.Proofs.Json.Typed
import BinaryLayout.Proofs.Json.Records
import BinaryLayout.Proofs.Json.Laws
import BinaryLayout.Proofs.Json.Compact
import BinaryLayout.Proofs.Config.Json
import BinaryLayout.Proofs.Field.Json
