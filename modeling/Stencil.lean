import Stencil.Check.Reader
import Stencil.Check.Report
import Stencil.Check.WholeText
import Stencil.Cli.Commands
import Stencil.Cli.Grammar
import Stencil.Cli.Run
import Stencil.Cli.Session
import Stencil.Cli.Usage
import Stencil.Config.Audit
import Stencil.Config.Load
import Stencil.Config.Requests
import Stencil.Config.Settings
import Stencil.Data
import Stencil.Disk.Basic
import Stencil.Disk.Calls
import Stencil.Disk.Edit
import Stencil.Disk.Fault
import Stencil.Disk.Path
import Stencil.Disk.Resolve
import Stencil.Failure
import Stencil.Identifier
import Stencil.Log.Layout
import Stencil.Log.Record
import Stencil.Machine
import Stencil.Main
import Stencil.Module.Batch
import Stencil.Module.Generate
import Stencil.Module.Inspect
import Stencil.Module.Plan
import Stencil.Module.Report
import Stencil.Module.Scaffold
import Stencil.Module.Write
import Stencil.Naming.ModuleName
import Stencil.Naming.Words
import Stencil.Number.Binary
import Stencil.Number.Decimal
import Stencil.Number.Numeral
import Stencil.Payload.CodeLine
import Stencil.Payload.Declaration
import Stencil.Payload.Entry
import Stencil.Payload.Field
import Stencil.Payload.Given
import Stencil.Payload.ParseError
import Stencil.Payload.Reader
import Stencil.Payload.Schema
import Stencil.Payload.Snippet
import Stencil.Proofs.Confined
import Stencil.Proofs.Disk.Below
import Stencil.Proofs.Disk.Local
import Stencil.Proofs.Disk.Look
import Stencil.Proofs.Disk.Parent
import Stencil.Proofs.Disk.Path
import Stencil.Proofs.Disk.Plain
import Stencil.Proofs.Disk.Refusal
import Stencil.Proofs.Disk.Replace
import Stencil.Proofs.Disk.Site
import Stencil.Proofs.Disk.Temporary
import Stencil.Proofs.Disk.Walk
import Stencil.Proofs.Log
import Stencil.Proofs.Module.Append
import Stencil.Proofs.Module.Batch
import Stencil.Proofs.Module.Body
import Stencil.Proofs.Module.Collect
import Stencil.Proofs.Module.Confined
import Stencil.Proofs.Module.DryRun
import Stencil.Proofs.Module.Emit
import Stencil.Proofs.Module.Failures
import Stencil.Proofs.Module.Generate
import Stencil.Proofs.Module.Plan
import Stencil.Proofs.Module.Quiet
import Stencil.Proofs.Module.Regenerate
import Stencil.Proofs.Module.Success
import Stencil.Proofs.Module.Write
import Stencil.Proofs.Naming.Words
import Stencil.Proofs.Payload.Characters
import Stencil.Proofs.Payload.Comment
import Stencil.Proofs.Payload.Joined
import Stencil.Proofs.Payload.Layout
import Stencil.Proofs.Payload.RoundTrip
import Stencil.Proofs.Payload.Scan
import Stencil.Proofs.Payload.Sweep
import Stencil.Proofs.Payload.Tidy
import Stencil.Proofs.Region.Body
import Stencil.Proofs.Region.Locate
import Stencil.Proofs.Region.Splice
import Stencil.Proofs.Region.Wrap
import Stencil.Proofs.Request.Valid
import Stencil.Proofs.Run
import Stencil.Proofs.Source.Body
import Stencil.Proofs.Text.Ascii
import Stencil.Proofs.Text.Blank
import Stencil.Proofs.Text.Lines
import Stencil.Proofs.Text.Pieces
import Stencil.Proofs.Text.Utf8
import Stencil.Region
import Stencil.Request.Basic
import Stencil.Request.Given
import Stencil.Request.Operation
import Stencil.Script
import Stencil.Source.Controller
import Stencil.Source.Handler
import Stencil.Source.Import
import Stencil.Source.Layout
import Stencil.Source.Routes
import Stencil.Source.Service
import Stencil.Source.TypeStub
import Stencil.Source.Validator
import Stencil.Text.Blank
import Stencil.Text.Case
import Stencil.Text.CaseTable
import Stencil.Text.ControlSequence
import Stencil.Text.Digit
import Stencil.Text.Json
import Stencil.Text.Letter
import Stencil.Text.Lines
import Stencil.Text.Printable
import Stencil.Text.Quoted
import Stencil.Text.Utf8
import Stencil.Work
import Stencil.World
import Stencil.Yaml.Cursor
import Stencil.Yaml.Document
import Stencil.Yaml.Fault
import Stencil.Yaml.Lexer
import Stencil.Yaml.Merge
import Stencil.Yaml.Node
import Stencil.Yaml.Scalar
import Stencil.Yaml.Token
import Stencil.Yaml.Value
import Stencil.Proofs.Payload.Lockstep
import Stencil.Proofs.Payload.Nesting
import Stencil.Proofs.Payload.Literals
import Stencil.Proofs.Payload.Masked
import Stencil.Proofs.Payload.Checked
import Stencil.Proofs.Payload.Leading
import Stencil.Proofs.Module.Marked
import Stencil.Proofs.Payload.Union
import Stencil.Proofs.Module.Shared
import Stencil.Proofs.Config.Audit
import Stencil.Proofs.Independent
import Stencil.Proofs.Module.Interleaved
import Stencil.Proofs.Region.Converted
import Stencil.Proofs.Region.Around
import Stencil.Proofs.Module.Unchanged
import Stencil.Proofs.Source.Reading
import Stencil.Proofs.Module.Linked
import Stencil.Proofs.Source.Declared
import Stencil.Proofs.Payload.LineEnds
import Stencil.Proofs.Payload.Surrounded
import Stencil.Proofs.Source.TypeStub
import Stencil.Proofs.Module.Directories
import Stencil.Proofs.Module.Created
import Stencil.Proofs.Module.Scaffold
import Stencil.Proofs.Moves
import Stencil.Proofs.Module.Moved
import Stencil.Proofs.Module.Reported
import Stencil.Proofs.Payload.Located
import Stencil.Proofs.Cli.Single
import Stencil.Proofs.Cli.Session
import Stencil.Proofs.Config.Load
import Stencil.Proofs.Text.Json
import Stencil.Proofs.Cli.Json
import Stencil.Proofs.Source.Named
import Stencil.Proofs.Naming.Shapes
import Stencil.Proofs.Config.Directory
import Stencil.Proofs.Refused
import Stencil.Proofs.Module.Atomic
import Stencil.Proofs.Module.Contract
import Stencil.Proofs.Naming.Rejoined
import Stencil.Proofs.Payload.Wrapped
import Stencil.Proofs.Payload.Schema
import Stencil.Proofs.Payload.Recovered
import Stencil.Proofs.Module.Beside
import Stencil.Proofs.Module.TypeFile
import Stencil.Proofs.Module.Kept
import Stencil.Proofs.Config.Collisions
import Stencil.Proofs.Config.Search
import Stencil.Proofs.Naming.Humps
