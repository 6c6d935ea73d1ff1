import OpenApiIR.Command.Arguments
import OpenApiIR.Command.Inspect
import OpenApiIR.Command.Invocation
import OpenApiIR.Command.Run
import OpenApiIR.Console.Basic
import OpenApiIR.Console.Table
import OpenApiIR.Diagnostic.Basic
import OpenApiIR.Diagnostic.Report
import OpenApiIR.Document.Literal
import OpenApiIR.Document.Moment
import OpenApiIR.Document.Scalar
import OpenApiIR.Document.Value
import OpenApiIR.Failure
import OpenApiIR.File.DataDirectory
import OpenApiIR.File.Path
import OpenApiIR.File.Tree
import OpenApiIR.IR.Basic
import OpenApiIR.IR.Encode
import OpenApiIR.IR.Resolve
import OpenApiIR.Json.Fault
import OpenApiIR.Json.Reader
import OpenApiIR.Json.Writer
import OpenApiIR.Load.Decode
import OpenApiIR.Load.Error
import OpenApiIR.Load.Source
import OpenApiIR.Main
import OpenApiIR.Number.Binary64
import OpenApiIR.Number.Decimal
import OpenApiIR.Number.Limit
import OpenApiIR.Number.Shortest
import OpenApiIR.Operation.Body
import OpenApiIR.Operation.Endpoint
import OpenApiIR.Operation.Parameter
import OpenApiIR.Proofs.Assembly
import OpenApiIR.Proofs.Chain
import OpenApiIR.Proofs.ChainMirror
import OpenApiIR.Proofs.ChainRounds
import OpenApiIR.Proofs.ComponentRefs
import OpenApiIR.Proofs.Containment
import OpenApiIR.Proofs.ContentType
import OpenApiIR.Proofs.Decoded
import OpenApiIR.Proofs.DepthLimit
import OpenApiIR.Proofs.DiagnosticOrder
import OpenApiIR.Proofs.EncodedIR
import OpenApiIR.Proofs.FileFrame
import OpenApiIR.Proofs.Form
import OpenApiIR.Proofs.FormatHint
import OpenApiIR.Proofs.Identity
import OpenApiIR.Proofs.Inspection
import OpenApiIR.Proofs.Isolation
import OpenApiIR.Proofs.JsonText
import OpenApiIR.Proofs.KnownKeys
import OpenApiIR.Proofs.LetterCase
import OpenApiIR.Proofs.LoadOutcome
import OpenApiIR.Proofs.Loading
import OpenApiIR.Proofs.Locality
import OpenApiIR.Proofs.MediaType
import OpenApiIR.Proofs.MethodSpelling
import OpenApiIR.Proofs.Mirror
import OpenApiIR.Proofs.Navigation
import OpenApiIR.Proofs.Nullability
import OpenApiIR.Proofs.OperationMirror
import OpenApiIR.Proofs.Override
import OpenApiIR.Proofs.ParameterEntries
import OpenApiIR.Proofs.PathEntries
import OpenApiIR.Proofs.Place
import OpenApiIR.Proofs.PlainForm
import OpenApiIR.Proofs.PointerText
import OpenApiIR.Proofs.Precedence
import OpenApiIR.Proofs.Reading
import OpenApiIR.Proofs.Redirection
import OpenApiIR.Proofs.RedirectionHistory
import OpenApiIR.Proofs.RefSiblings
import OpenApiIR.Proofs.RenderedKeys
import OpenApiIR.Proofs.Renumbering
import OpenApiIR.Proofs.Report
import OpenApiIR.Proofs.RequiredKeys
import OpenApiIR.Proofs.ResponseEntries
import OpenApiIR.Proofs.RunData
import OpenApiIR.Proofs.RunOutcome
import OpenApiIR.Proofs.SchemaEntries
import OpenApiIR.Proofs.SchemaNames
import OpenApiIR.Proofs.SettingsOutcome
import OpenApiIR.Proofs.Showing
import OpenApiIR.Proofs.Stripping
import OpenApiIR.Proofs.TableText
import OpenApiIR.Proofs.Truncation
import OpenApiIR.Proofs.TypeText
import OpenApiIR.Proofs.UnguardedChain
import OpenApiIR.Proofs.UnionInsertion
import OpenApiIR.Proofs.Unrolling
import OpenApiIR.Proofs.Utf8Text
import OpenApiIR.Proofs.WellFormed
import OpenApiIR.Ref.Chain
import OpenApiIR.Ref.Error
import OpenApiIR.Ref.Pointer
import OpenApiIR.Schema.Model
import OpenApiIR.Schema.Resolve
import OpenApiIR.Schema.TypeRef
import OpenApiIR.Settings.Basic
import OpenApiIR.Settings.Layers
import OpenApiIR.Text.Blank
import OpenApiIR.Text.CodePoint
import OpenApiIR.Text.Digit
import OpenApiIR.Text.LetterCase
import OpenApiIR.Text.Lines
import OpenApiIR.Text.Printable
import OpenApiIR.Text.Quoted
import OpenApiIR.Text.Utf8
import OpenApiIR.Yaml.Cursor
import OpenApiIR.Yaml.Fault
import OpenApiIR.Yaml.Grammar
import OpenApiIR.Yaml.Implicit
import OpenApiIR.Yaml.Lexer
import OpenApiIR.Yaml.Node
import OpenApiIR.Yaml.Reader
import OpenApiIR.Yaml.Scalar
import OpenApiIR.Yaml.Stamp
import OpenApiIR.Yaml.Token
import OpenApiIR.Yaml.Typed
