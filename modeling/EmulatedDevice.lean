import EmulatedDevice.Artifact
import EmulatedDevice.Attributes
import EmulatedDevice.Binary64
import EmulatedDevice.Binary64.Shortest
import EmulatedDevice.BootAction
import EmulatedDevice.Calendar
import EmulatedDevice.CommandLine.Flags
import EmulatedDevice.CommandLine.Lower
import EmulatedDevice.CommandLine.Run
import EmulatedDevice.CommandLine.Validate
import EmulatedDevice.Declaration
import EmulatedDevice.Declaration.Attributes
import EmulatedDevice.Declaration.Entry
import EmulatedDevice.Descriptor
import EmulatedDevice.Entries
import EmulatedDevice.FileTree
import EmulatedDevice.FileTree.Change
import EmulatedDevice.Json.Fault
import EmulatedDevice.Json.Printer
import EmulatedDevice.Json.Reader
import EmulatedDevice.Loading
import EmulatedDevice.Log
import EmulatedDevice.Main
import EmulatedDevice.Outputs
import EmulatedDevice.Path
import EmulatedDevice.Publication
import EmulatedDevice.Schema
import EmulatedDevice.Schema.Document
import EmulatedDevice.Schema.Packaged
import EmulatedDevice.Schema.Report
import EmulatedDevice.Schema.Resources
import EmulatedDevice.Selection
import EmulatedDevice.Session
import EmulatedDevice.Stub
import EmulatedDevice.Stub.Packaged
import EmulatedDevice.Stub.Placeholder
import EmulatedDevice.Stub.Template
import EmulatedDevice.SystemImage
import EmulatedDevice.Target
import EmulatedDevice.Text.Decimal
import EmulatedDevice.Text.Halves
import EmulatedDevice.Text.Digit
import EmulatedDevice.Text.Hex
import EmulatedDevice.Text.Integer
import EmulatedDevice.Text.Lines
import EmulatedDevice.Text.Position
import EmulatedDevice.Text.Printable
import EmulatedDevice.Text.Quoted
import EmulatedDevice.Text.Utf8
import EmulatedDevice.Toolchain
import EmulatedDevice.Value
import EmulatedDevice.Value.Display
import EmulatedDevice.Yaml.Cursor
import EmulatedDevice.Yaml.Document
import EmulatedDevice.Yaml.Fault
import EmulatedDevice.Yaml.Node
import EmulatedDevice.Yaml.Number
import EmulatedDevice.Yaml.Scalar
import EmulatedDevice.Yaml.Tag
import EmulatedDevice.Yaml.Token
import EmulatedDevice.Proofs.Expansion
import EmulatedDevice.Proofs.Assembly
import EmulatedDevice.Proofs.PathNames
import EmulatedDevice.Proofs.TreeView
import EmulatedDevice.Proofs.Moves
import EmulatedDevice.Proofs.MakeDirectories
import EmulatedDevice.Proofs.Publishing
import EmulatedDevice.Proofs.Acceptance
import EmulatedDevice.Proofs.DeclaredInputs
import EmulatedDevice.Proofs.Reading
import EmulatedDevice.Proofs.WholeNumbers
import EmulatedDevice.Proofs.WritableValues
import EmulatedDevice.Proofs.DeviceDocuments
import EmulatedDevice.Proofs.ToolchainDocuments
import EmulatedDevice.Proofs.Invocations
import EmulatedDevice.Proofs.Faults
import EmulatedDevice.Proofs.LoadFaults
import EmulatedDevice.Proofs.DeviceNames
import EmulatedDevice.Proofs.LowerRuns
import EmulatedDevice.Proofs.Agreement
import EmulatedDevice.Proofs.FirstOccurrences
import EmulatedDevice.Proofs.WrittenPaths
import EmulatedDevice.Proofs.Runfiles
import EmulatedDevice.Proofs.RunfilesTree
import EmulatedDevice.Proofs.Numerals
import EmulatedDevice.Proofs.BootFlags
import EmulatedDevice.Proofs.PackagedScript
import EmulatedDevice.Proofs.SharedFlags
import EmulatedDevice.Proofs.AlikeTrees
import EmulatedDevice.Proofs.OptionReach
import EmulatedDevice.Proofs.JsonDocuments
import EmulatedDevice.Proofs.Utf8Text
import EmulatedDevice.Proofs.DescriptorReading
import EmulatedDevice.Proofs.NearestDoubles
import EmulatedDevice.Proofs.ShortestDecimal
import EmulatedDevice.Proofs.FloatText
import EmulatedDevice.Proofs.DevicePlaces
import EmulatedDevice.Proofs.LaterRuns
import EmulatedDevice.Proofs.NeighbouringDevices
import EmulatedDevice.Proofs.FirstReads
import EmulatedDevice.Proofs.GeneratedFiles
import EmulatedDevice.Proofs.ImageGroups
import EmulatedDevice.Proofs.OutputLayout
import EmulatedDevice.Proofs.Reorderings
import EmulatedDevice.Proofs.RecoveredValues
import EmulatedDevice.Proofs.DistinctKeys
import EmulatedDevice.Proofs.Tags
import EmulatedDevice.Proofs.StableSorting
import EmulatedDevice.Proofs.Violations
import EmulatedDevice.Proofs.KeywordOrder
import EmulatedDevice.Proofs.Reports
import EmulatedDevice.Proofs.LoadedValues
import EmulatedDevice.Proofs.ReorderedValues
import EmulatedDevice.Proofs.KeyOrder
import EmulatedDevice.Proofs.PathTexts
import EmulatedDevice.Proofs.ExecPaths
import EmulatedDevice.Proofs.JsonSpelling
import EmulatedDevice.Proofs.JsonPieces
import EmulatedDevice.Proofs.CursorMoves
import EmulatedDevice.Proofs.SharedStrings
import EmulatedDevice.Proofs.PlainScalars
import EmulatedDevice.Proofs.NumeralLooks
import EmulatedDevice.Proofs.SharedNumerals
import EmulatedDevice.Proofs.NumberWords
import EmulatedDevice.Proofs.SharedPieces
import EmulatedDevice.Proofs.FlowNodes
import EmulatedDevice.Proofs.FlowTokens
import EmulatedDevice.Proofs.SharedDocuments
import EmulatedDevice.Proofs.SharedNotation
