import ProofToolchain.Abi.Basic
import ProofToolchain.Abi.Output
import ProofToolchain.Argument.Basic
import ProofToolchain.Argument.Flatten
import ProofToolchain.Artifact
import ProofToolchain.CommandLine.Answers
import ProofToolchain.CommandLine.Arguments
import ProofToolchain.CommandLine.Engine
import ProofToolchain.CommandLine.Handle
import ProofToolchain.CommandLine.Host
import ProofToolchain.CommandLine.Installation
import ProofToolchain.CommandLine.Workshop
import ProofToolchain.Engine
import ProofToolchain.Scoped
import ProofToolchain.Entries
import ProofToolchain.Error
import ProofToolchain.Floating.Layout
import ProofToolchain.Floating.Reading
import ProofToolchain.Floating.Rounding
import ProofToolchain.Floating.Shortest
import ProofToolchain.Import.Piece
import ProofToolchain.Import.Resolver
import ProofToolchain.Import.Scan
import ProofToolchain.Import.Walk
import ProofToolchain.Json.Basic
import ProofToolchain.Json.Blob
import ProofToolchain.Json.Literal
import ProofToolchain.Json.Number
import ProofToolchain.Json.Printer
import ProofToolchain.Json.Reading
import ProofToolchain.Json.Record
import ProofToolchain.Json.Token
import ProofToolchain.Location
import ProofToolchain.Log
import ProofToolchain.Options.Choice
import ProofToolchain.Options.Description
import ProofToolchain.Options.Flags
import ProofToolchain.Options.Request
import ProofToolchain.Pipeline
import ProofToolchain.Proofs.Pipeline
import ProofToolchain.Proofs.Run
import ProofToolchain.Proofs.Scripted.Reading
import ProofToolchain.Provider
import ProofToolchain.Run
import ProofToolchain.Scripted.Engine
import ProofToolchain.Scripted.Ledger
import ProofToolchain.Session.Basic
import ProofToolchain.Session.Command
import ProofToolchain.Session.Held
import ProofToolchain.Session.Reply
import ProofToolchain.Text.Blank
import ProofToolchain.Text.Numeral
import ProofToolchain.Text.Printable
import ProofToolchain.Text.Ranges
import ProofToolchain.Text.Unassigned
import ProofToolchain.Text.Utf8
import ProofToolchain.Witness.Outputs
import ProofToolchain.Proofs.Scripted.Accounting
import ProofToolchain.Proofs.Import.Reread
import ProofToolchain.Proofs.Import.Splice
import ProofToolchain.Proofs.CommandLine.Tree
import ProofToolchain.Proofs.CommandLine.Capture
import ProofToolchain.Proofs.Abi.Description
import ProofToolchain.Proofs.Abi.Distribution
import ProofToolchain.Proofs.Import.Token
import ProofToolchain.Proofs.Import.Grammar
import ProofToolchain.Proofs.Import.Comment
import ProofToolchain.Proofs.RaisedFailure
import ProofToolchain.Proofs.Text.Occurrence
import ProofToolchain.Proofs.CommandLine.Launch
import ProofToolchain.Proofs.Text.Utf8
import ProofToolchain.Proofs.CommandLine.Positional
import ProofToolchain.Proofs.CommandLine.Verification
import ProofToolchain.Proofs.Text.Lines
import ProofToolchain.Proofs.Witness.Rows
import ProofToolchain.Proofs.Witness.Layout
import ProofToolchain.Proofs.Witness.Indices
import ProofToolchain.Proofs.Import.Agreement
import ProofToolchain.Proofs.Import.DepthFirst
import ProofToolchain.Proofs.Import.Termination
import ProofToolchain.Proofs.CommandLine.ErrorKinds
import ProofToolchain.Proofs.CommandLine.Lifetime
import ProofToolchain.Proofs.CommandLine.Scratches
import ProofToolchain.Proofs.Scripted.Calls
import ProofToolchain.Proofs.SnarkjsForm
import ProofToolchain.Proofs.Argument.Flatten
import ProofToolchain.Proofs.Text.Decoding
import ProofToolchain.Proofs.Import.Boundary
import ProofToolchain.Proofs.Import.Bytewise
import ProofToolchain.Proofs.Import.Span
import ProofToolchain.Proofs.Surfacing
import ProofToolchain.Proofs.Scripted.Chain
import ProofToolchain.Proofs.Json.Blob
import ProofToolchain.Proofs.Json.Reading
import ProofToolchain.Proofs.Abi.RoundTrip
import ProofToolchain.Proofs.Abi.Survival
import ProofToolchain.Proofs.Location.Place
import ProofToolchain.Proofs.Location.Canonical
import ProofToolchain.Proofs.Location.Spelling
import ProofToolchain.Proofs.Import.Store
import ProofToolchain.Proofs.Import.OpenLiteral
import ProofToolchain.Proofs.Entries
import ProofToolchain.Proofs.Argument.Canonical
import ProofToolchain.Proofs.Text.ByteOrder
import ProofToolchain.Proofs.Options.Flags
import ProofToolchain.Proofs.CommandLine.Switches
import ProofToolchain.Proofs.Json.Readers
import ProofToolchain.Proofs.Json.Literal
import ProofToolchain.Proofs.Json.Separation
import ProofToolchain.Proofs.CommandLine.FormattedProof
import ProofToolchain.Proofs.CommandLine.Streams
import ProofToolchain.Proofs.CommandLine.OneShot
import ProofToolchain.Proofs.LogDelivery
import ProofToolchain.Proofs.Json.Bytes
import ProofToolchain.Proofs.Artifact
import ProofToolchain.Proofs.Abi.Unsigned
import ProofToolchain.Proofs.Scripted.Projection
