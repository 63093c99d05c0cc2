import Stencil.Backend
import Stencil.CommandLine.Invocation
import Stencil.CommandLine.Option
import Stencil.CommandLine.Report
import Stencil.Config
import Stencil.Context
import Stencil.Diagnostic
import Stencil.Error
import Stencil.FileSystem
import Stencil.Handler
import Stencil.HostValue
import Stencil.Include
import Stencil.Json.Basic
import Stencil.Json.Reader
import Stencil.Lua.Argument
import Stencil.Lua.Builtin
import Stencil.Lua.Bytes
import Stencil.Lua.Chunk
import Stencil.Lua.Eval
import Stencil.Lua.Failure
import Stencil.Lua.Format
import Stencil.Lua.Frame
import Stencil.Lua.Library
import Stencil.Lua.Library.Base
import Stencil.Lua.Library.Mathematics
import Stencil.Lua.Library.Strings
import Stencil.Lua.Library.Tables
import Stencil.Lua.Library.Unicode
import Stencil.Lua.Machine
import Stencil.Lua.Name
import Stencil.Lua.Numeral
import Stencil.Lua.Operator
import Stencil.Lua.Pattern
import Stencil.Lua.Program
import Stencil.Lua.Reader
import Stencil.Lua.Scope
import Stencil.Lua.Session
import Stencil.Lua.Token
import Stencil.Lua.Tree
import Stencil.Lua.Value
import Stencil.Main
import Stencil.Mock
import Stencil.NameMap
import Stencil.Number.Binary64
import Stencil.Number.Decimal
import Stencil.Number.Reading
import Stencil.Path
import Stencil.Reference
import Stencil.Registry
import Stencil.StateType
import Stencil.Template.Cursor
import Stencil.Template.Directive
import Stencil.Template.Part
import Stencil.Template.SyntaxError
import Stencil.Template.Token
import Stencil.Template.Unit
import Stencil.Text.Alphanumeric
import Stencil.Text.Ascii
import Stencil.Text.Blank
import Stencil.Text.Printable
import Stencil.Text.Quoted
import Stencil.Text.Split
import Stencil.Text.Utf8
import Stencil.Toml.Basic
import Stencil.Toml.Moment
import Stencil.Toml.Reader
import Stencil.Proofs.Template.LineBreak
import Stencil.Proofs.Template.Run
import Stencil.Proofs.Template.Tokenization
import Stencil.Proofs.Template.Driving
import Stencil.Proofs.Text.Occurrence
import Stencil.Proofs.Template.Segment
import Stencil.Proofs.Template.Grammar
import Stencil.Proofs.Template.Failure
import Stencil.Proofs.Template.Rebreak
import Stencil.Proofs.Template.LineEnding
import Stencil.Proofs.Json.StringList
import Stencil.Proofs.Lua.Lexing
import Stencil.Proofs.Lua.Quoting
import Stencil.Proofs.Lua.Layout
import Stencil.Proofs.Lua.ProgramTree
import Stencil.Proofs.Lua.Execution
import Stencil.Proofs.Lua.Import
import Stencil.Proofs.Lua.Writing
import Stencil.Proofs.Lua.Outline
import Stencil.Proofs.Lua.Compiling
import Stencil.Proofs.Lua.Rendering
import Stencil.Proofs.Template.CodePart
import Stencil.Proofs.Template.Declaration
import Stencil.Proofs.Template.Insertion
import Stencil.Proofs.Lua.Generation
import Stencil.Proofs.Lua.Naming
import Stencil.Proofs.Lua.Literal
import Stencil.Proofs.Lua.Header
import Stencil.Proofs.ReferenceList
import Stencil.Proofs.LibraryName
import Stencil.Proofs.Agreement
import Stencil.Proofs.History
import Stencil.Proofs.Ending
import Stencil.Proofs.Lua.Joining
import Stencil.Proofs.Lua.Shape
import Stencil.Proofs.Lua.Juncture
import Stencil.Proofs.Lua.Continuation
import Stencil.Proofs.Lua.Sequence
import Stencil.Proofs.Lua.Embedding
import Stencil.Proofs.Lua.Spelling
import Stencil.Proofs.Lua.Framing
import Stencil.Proofs.Lua.Separation
import Stencil.Proofs.Lua.Expression
import Stencil.Proofs.Lua.Hygiene
import Stencil.Proofs.Lua.Confinement.Basic
import Stencil.Proofs.Lua.Confinement.Library
import Stencil.Proofs.Lua.Confinement.Running
import Stencil.Proofs.Lua.Confinement.Reach
import Stencil.Proofs.Lua.Confinement.Rendering
import Stencil.Proofs.Lua.Modules
import Stencil.Proofs.Lua.Reports
import Stencil.Proofs.Lua.Preamble
import Stencil.Proofs.Language
import Stencil.Proofs.Commands
import Stencil.Proofs.Form
import Stencil.Proofs.Modes
import Stencil.Proofs.PartKind
import Stencil.Proofs.Inclusion
import Stencil.Proofs.Text.Offset
import Stencil.Proofs.Lua.NamedLine
import Stencil.Proofs.Lua.Location
import Stencil.Proofs.Lua.Resolution
import Stencil.Proofs.Lua.OwnName
import Stencil.Proofs.Request
import Stencil.Proofs.TypePath
import Stencil.Proofs.Ascent
import Stencil.Proofs.Walk
import Stencil.Proofs.Discovery
