import QuillImage.Backend
import QuillImage.Bytes
import QuillImage.Diagnostics
import QuillImage.Event
import QuillImage.Exchange.Arena
import QuillImage.Exchange.Kind
import QuillImage.Exchange.Program
import QuillImage.Exchange.Row
import QuillImage.Exchange.Value
import QuillImage.Failure
import QuillImage.FileTree
import QuillImage.Generation
import QuillImage.Guid
import QuillImage.Image.Executable
import QuillImage.Image.Header
import QuillImage.Image.Imports
import QuillImage.Image.Manifest
import QuillImage.Image.Section
import QuillImage.Lowering
import QuillImage.Metadata.CodedIndex
import QuillImage.Metadata.Heap
import QuillImage.Metadata.Layout
import QuillImage.Metadata.Row
import QuillImage.Metadata.Table
import QuillImage.Metadata.TableStream
import QuillImage.Metadata.Tables
import QuillImage.Method.Body
import QuillImage.Method.Header
import QuillImage.Method.Instruction
import QuillImage.Options
import QuillImage.Options.Document
import QuillImage.Output
import QuillImage.Path
import QuillImage.Syntax.Category
import QuillImage.Syntax.Describe
import QuillImage.Syntax.Node
import QuillImage.Syntax.Program
import QuillImage.Text.Hex
import QuillImage.Text.Printable
import QuillImage.Text.Quoted
import QuillImage.Text.Space
import QuillImage.Text.Utf16
import QuillImage.Toml.Document
import QuillImage.Toml.Number
import QuillImage.Toml.Text
import QuillImage.Toml.Value
import QuillImage.Proofs.Bytes
import QuillImage.Proofs.Halting
import QuillImage.Proofs.Alignment
import QuillImage.Proofs.Metadata.CodedIndex
import QuillImage.Proofs.Metadata.StreamReader
import QuillImage.Proofs.Lowering.Traversal
import QuillImage.Proofs.Lowering.Rules
import QuillImage.Proofs.Syntax.Graph
import QuillImage.Proofs.Lowering.Termination
import QuillImage.Proofs.Lowering.Faithful
import QuillImage.Proofs.Metadata.Heap
import QuillImage.Proofs.Metadata.Root
import QuillImage.Proofs.Method.Code
import QuillImage.Proofs.Method.Runs
import QuillImage.Proofs.Method.Stored
import QuillImage.Proofs.Image.Loader
import QuillImage.Proofs.Metadata.Database
import QuillImage.Proofs.Image.Manifest
import QuillImage.Proofs.Image.Assembly
import QuillImage.Proofs.Image.Boot
import QuillImage.Proofs.Lowering.Cache
import QuillImage.Proofs.Lowering.Copies
import QuillImage.Proofs.Metadata.SortedTables
import QuillImage.Proofs.Lowering.Declarations
import QuillImage.Proofs.Metadata.Entries
import QuillImage.Proofs.Metadata.Operations
import QuillImage.Proofs.Metadata.References
import QuillImage.Proofs.Metadata.HandedOut
import QuillImage.Proofs.Metadata.Headers
import QuillImage.Proofs.Image.Container
import QuillImage.Proofs.Image.Identifier
import QuillImage.Proofs.Backend
import QuillImage.Proofs.Image.Lifecycle
import QuillImage.Proofs.Metadata.Tokens
import QuillImage.Proofs.Diagnostics
import QuillImage.Proofs.Metadata.ListColumns
import QuillImage.Proofs.Metadata.HeapWalk
import QuillImage.Proofs.Lowering.Order
import QuillImage.Proofs.Generation.Descent
import QuillImage.Proofs.Generation.Outcomes
import QuillImage.Proofs.Generation.FirstLeaf
import QuillImage.Proofs.Image.Imports
import QuillImage.Proofs.Image.Completion
import QuillImage.Proofs.Path
