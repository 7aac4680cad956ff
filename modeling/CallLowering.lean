import CallLowering.Capability
import CallLowering.Chunk.Basic
import CallLowering.Chunk.Emit
import CallLowering.Config.Basic
import CallLowering.Config.Document
import CallLowering.Config.Encoding
import CallLowering.Deferred
import CallLowering.Diagnostic.Basic
import CallLowering.Diagnostic.Drawing
import CallLowering.Diagnostic.Encoding
import CallLowering.Diagnostic.Excerpt
import CallLowering.Diagnostic.Report
import CallLowering.Diagnostic.Source
import CallLowering.Expr.Basic
import CallLowering.Expr.Builder
import CallLowering.Expr.Printer
import CallLowering.Fragment.Basic
import CallLowering.Fragment.JavaScript
import CallLowering.Fragment.Python
import CallLowering.Json.Basic
import CallLowering.Json.Printer
import CallLowering.Library.Arity
import CallLowering.Library.Extremum
import CallLowering.Library.NullCheck
import CallLowering.Library.RandomInt
import CallLowering.Library.Range
import CallLowering.Library.Registry
import CallLowering.Library.Rounding
import CallLowering.LowerError
import CallLowering.Lowering
import CallLowering.Machine
import CallLowering.Number.Binary64
import CallLowering.Number.Decimal
import CallLowering.Number.Int64
import CallLowering.Registry
import CallLowering.Routine.Basic
import CallLowering.Routine.Builtin
import CallLowering.Routine.Host
import CallLowering.Routine.Random
import CallLowering.Routine.Standard
import CallLowering.Routine.Table
import CallLowering.SemanticType.Basic
import CallLowering.SemanticType.Encoding
import CallLowering.SemanticType.Reader
import CallLowering.Signature.Basic
import CallLowering.Signature.Encoding
import CallLowering.Slot
import CallLowering.Text.Blank
import CallLowering.Text.Columns
import CallLowering.Text.Integer
import CallLowering.Text.Quoted
import CallLowering.Text.Unseen
import CallLowering.Toml.Document
import CallLowering.Toml.Lexical
import CallLowering.Toml.Reader
import CallLowering.Toml.Scalar
import CallLowering.Toml.Writer
import CallLowering.Value.Arithmetic
import CallLowering.Value.Basic
import CallLowering.Proofs.Expr.Closed
import CallLowering.Proofs.Expr.Meaning
import CallLowering.Proofs.Chunk.Layout
import CallLowering.Proofs.Chunk.Patching
import CallLowering.Proofs.Expr.Typed
import CallLowering.Proofs.Machine.Ensures
import CallLowering.Proofs.Machine.Locals
import CallLowering.Proofs.Machine.Simulation
import CallLowering.Proofs.Chunk.Ranges
import CallLowering.Proofs.Machine.Walk
import CallLowering.Proofs.Machine.Faults
import CallLowering.Proofs.Lowering.Recorded
import CallLowering.Proofs.Lowering.Discipline
import CallLowering.Proofs.Lowering.Session
import CallLowering.Proofs.Value.Canonical
import CallLowering.Proofs.Expr.Plain
import CallLowering.Proofs.Chunk.Emission
import CallLowering.Proofs.Chunk.Pooling
import CallLowering.Proofs.Expr.Computes
import CallLowering.Proofs.Expr.Passed
import CallLowering.Proofs.Library.Sound
import CallLowering.Proofs.Library.Functions
import CallLowering.Proofs.Library.Standard
import CallLowering.Proofs.Library.Nesting
import CallLowering.Proofs.Fragment.Grammar
import CallLowering.Proofs.Fragment.Reader
import CallLowering.Proofs.Fragment.Languages
import CallLowering.Proofs.Fragment.Writing
import CallLowering.Proofs.Fragment.Dialect
import CallLowering.Proofs.Library.Text
import CallLowering.Proofs.Fragment.Built
import CallLowering.Proofs.Fragment.Parentheses
import CallLowering.Proofs.Library.Description
import CallLowering.Proofs.Routine.Results
import CallLowering.Proofs.Machine.Safety
import CallLowering.Proofs.Value.Admits
import CallLowering.Proofs.Expr.Coerced
import CallLowering.Proofs.Library.Forms
import CallLowering.Proofs.Expr.Promises
import CallLowering.Proofs.Library.Conforming
import CallLowering.Proofs.Expr.Methods
import CallLowering.Proofs.Machine.Calls
import CallLowering.Proofs.Machine.Frame
import CallLowering.Proofs.Library.Operands
import CallLowering.Proofs.Lowering.Accepted
import CallLowering.Proofs.Library.Settled
import CallLowering.Proofs.Library.Refusals
import CallLowering.Proofs.SemanticType.Consistency
import CallLowering.Proofs.SemanticType.Filling
import CallLowering.Proofs.SemanticType.Spelling
import CallLowering.Proofs.SemanticType.Annotation
import CallLowering.Proofs.SemanticType.Straying
import CallLowering.Proofs.Lowering.Narrowing
import CallLowering.Proofs.Expr.Behind
import CallLowering.Proofs.Library.Rounded
import CallLowering.Proofs.Library.Nullness
import CallLowering.Proofs.Signature.Ordered
import CallLowering.Proofs.Expr.Repeated
import CallLowering.Proofs.Expr.Conversion
import CallLowering.Proofs.Deferred.Interpreted
import CallLowering.Proofs.Deferred.Materialized
import CallLowering.Proofs.Library.Chosen
import CallLowering.Proofs.Machine.Outside
import CallLowering.Proofs.Expr.Filled
import CallLowering.Proofs.Expr.Caching
import CallLowering.Proofs.Number.Nearest
import CallLowering.Proofs.Number.Integers
import CallLowering.Proofs.Expr.Constant
import CallLowering.Proofs.Deferred.Pairing
import CallLowering.Proofs.Library.Refused
import CallLowering.Proofs.Library.Justified
import CallLowering.Proofs.Value.Progression
import CallLowering.Proofs.Routine.Registered
import CallLowering.Proofs.Signature.Dispatch
import CallLowering.Proofs.Registry.History
import CallLowering.Proofs.Fragment.Literal
import CallLowering.Proofs.Fragment.Phrase
import CallLowering.Proofs.Library.Literals
