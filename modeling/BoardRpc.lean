import BoardRpc.Binary.Double
import BoardRpc.Binary.Layout
import BoardRpc.Cli.Arguments
import BoardRpc.Cli.BoardInfo
import BoardRpc.Cli.Commands
import BoardRpc.Cli.Exit
import BoardRpc.Cli.Listing
import BoardRpc.Cli.Operand
import BoardRpc.Cli.Output
import BoardRpc.Cli.Parameter
import BoardRpc.Cli.Table
import BoardRpc.Cli.Task
import BoardRpc.Codec.Buffer
import BoardRpc.Codec.Decode
import BoardRpc.Codec.Encode
import BoardRpc.Codec.Scalar
import BoardRpc.Decimal.Shortest
import BoardRpc.Decimal.Style
import BoardRpc.Format.Annotation
import BoardRpc.Format.Arity
import BoardRpc.Format.Basic
import BoardRpc.Format.Cache
import BoardRpc.Format.Error
import BoardRpc.Format.Extent
import BoardRpc.Format.Parser
import BoardRpc.Json.Basic
import BoardRpc.Json.Number
import BoardRpc.Json.Printer
import BoardRpc.Json.Reader
import BoardRpc.Link.Error
import BoardRpc.Link.Frame
import BoardRpc.Link.Loopback
import BoardRpc.Link.Selector
import BoardRpc.Link.Transport
import BoardRpc.Main
import BoardRpc.Proofs.Binary.Widening
import BoardRpc.Proofs.Cli.Blame
import BoardRpc.Proofs.Cli.Usage
import BoardRpc.Proofs.Codec.Accounting
import BoardRpc.Proofs.Codec.Bounds
import BoardRpc.Proofs.Codec.Canonical
import BoardRpc.Proofs.Codec.Conformance
import BoardRpc.Proofs.Codec.Faults
import BoardRpc.Proofs.Codec.Growth
import BoardRpc.Proofs.Codec.Iterations
import BoardRpc.Proofs.Codec.Least
import BoardRpc.Proofs.Codec.Measures
import BoardRpc.Proofs.Codec.Positions
import BoardRpc.Proofs.Codec.Restore
import BoardRpc.Proofs.Codec.RoundTrip
import BoardRpc.Proofs.Codec.Rows
import BoardRpc.Proofs.Codec.Slots
import BoardRpc.Proofs.Codec.Yields
import BoardRpc.Proofs.Except
import BoardRpc.Proofs.Format.Annotations
import BoardRpc.Proofs.Format.Blemishes
import BoardRpc.Proofs.Format.Cache
import BoardRpc.Proofs.Format.Chaining
import BoardRpc.Proofs.Format.Counting
import BoardRpc.Proofs.Format.Delimiting
import BoardRpc.Proofs.Format.Extent
import BoardRpc.Proofs.Format.Grammar
import BoardRpc.Proofs.Format.Listing
import BoardRpc.Proofs.Format.Locality
import BoardRpc.Proofs.Format.Reading
import BoardRpc.Proofs.Format.Repetition
import BoardRpc.Proofs.Format.Sound
import BoardRpc.Proofs.Link.Disturbed
import BoardRpc.Proofs.Link.Execution
import BoardRpc.Proofs.Link.Failures
import BoardRpc.Proofs.Link.Loopback
import BoardRpc.Proofs.Link.Machine
import BoardRpc.Proofs.Reply.Members
import BoardRpc.Proofs.Reply.Rereading
import BoardRpc.Proofs.Reply.Shape
import BoardRpc.Proofs.Rpc.Catalogue
import BoardRpc.Proofs.Rpc.Dialogue
import BoardRpc.Proofs.Rpc.Endurance
import BoardRpc.Proofs.Rpc.Expectation
import BoardRpc.Proofs.Rpc.Formats
import BoardRpc.Proofs.Rpc.Histories
import BoardRpc.Proofs.Rpc.Interpretation
import BoardRpc.Proofs.Rpc.Invocation
import BoardRpc.Proofs.Rpc.Isolation
import BoardRpc.Proofs.Rpc.Memo
import BoardRpc.Proofs.Rpc.Methods
import BoardRpc.Proofs.Rpc.Naming
import BoardRpc.Proofs.Rpc.Queries
import BoardRpc.Proofs.Rpc.Recovery
import BoardRpc.Proofs.Rpc.Refusal
import BoardRpc.Proofs.Rpc.Repeating
import BoardRpc.Proofs.Rpc.Requests
import BoardRpc.Proofs.Rpc.Scripts
import BoardRpc.Proofs.Rpc.Signatures
import BoardRpc.Proofs.Sorted
import BoardRpc.Proofs.Text.Utf8
import BoardRpc.Reply
import BoardRpc.Reply.Render
import BoardRpc.Rpc.Api
import BoardRpc.Rpc.Binding
import BoardRpc.Rpc.Core
import BoardRpc.Rpc.CoreVerb
import BoardRpc.Rpc.Describe
import BoardRpc.Rpc.Discovery
import BoardRpc.Rpc.Errno
import BoardRpc.Rpc.Error
import BoardRpc.Rpc.Options
import BoardRpc.Rpc.Session
import BoardRpc.Size
import BoardRpc.Text.Blank
import BoardRpc.Text.Numeral
import BoardRpc.Text.Printable
import BoardRpc.Text.Quoted
import BoardRpc.Text.Utf8
import BoardRpc.Value
import BoardRpc.Word
