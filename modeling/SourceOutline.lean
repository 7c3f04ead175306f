import SourceOutline.CommandLine.Arguments
import SourceOutline.CommandLine.Command
import SourceOutline.CommandLine.Help
import SourceOutline.CommandLine.Trouble
import SourceOutline.Decimal.Layout
import SourceOutline.Decimal.Shortest
import SourceOutline.DocComment.Basic
import SourceOutline.DocComment.Block
import SourceOutline.DocComment.Docstring
import SourceOutline.Engine.Call
import SourceOutline.Engine.Machine
import SourceOutline.Engine.Reply
import SourceOutline.Failure
import SourceOutline.FilePath
import SourceOutline.FileTree.Basic
import SourceOutline.FileTree.Disk
import SourceOutline.Ignore.Glob
import SourceOutline.Ignore.Rule
import SourceOutline.Json.Decode
import SourceOutline.Json.Number
import SourceOutline.Json.Reader
import SourceOutline.Json.Value
import SourceOutline.Json.Writer
import SourceOutline.Language
import SourceOutline.Main
import SourceOutline.NameMap
import SourceOutline.Outline.Batch
import SourceOutline.Outline.Codec
import SourceOutline.Outline.File
import SourceOutline.Outline.Record
import SourceOutline.Parser
import SourceOutline.Proofs.CommandLine.Agreement
import SourceOutline.Proofs.CommandLine.Steps
import SourceOutline.Proofs.DocComment.Accessor
import SourceOutline.Proofs.DocComment.Cleaning
import SourceOutline.Proofs.DocComment.Delimiters
import SourceOutline.Proofs.DocComment.NormalForm
import SourceOutline.Proofs.DocComment.Printing
import SourceOutline.Proofs.Engine.Contents
import SourceOutline.Proofs.Engine.Handover
import SourceOutline.Proofs.Engine.Reply
import SourceOutline.Proofs.Engine.Runs
import SourceOutline.Proofs.Engine.Sessions
import SourceOutline.Proofs.Engine.Unavailable
import SourceOutline.Proofs.FileTree.Obstacles
import SourceOutline.Proofs.FileTree.Resolution
import SourceOutline.Proofs.FileTree.Staging
import SourceOutline.Proofs.Json.Agreement
import SourceOutline.Proofs.Json.Fields
import SourceOutline.Proofs.Json.Parts
import SourceOutline.Proofs.Json.Reading
import SourceOutline.Proofs.Json.Rearranged
import SourceOutline.Proofs.Json.Scalars
import SourceOutline.Proofs.Outline.Annotations
import SourceOutline.Proofs.Outline.Codec
import SourceOutline.Proofs.Outline.Parameters
import SourceOutline.Proofs.Outline.Positional
import SourceOutline.Proofs.Outline.Privacy
import SourceOutline.Proofs.Outline.RecordNames
import SourceOutline.Proofs.Outline.Rendering
import SourceOutline.Proofs.Parser.Batch
import SourceOutline.Proofs.Parser.Outcomes
import SourceOutline.Proofs.Parser.Remembering
import SourceOutline.Proofs.Parser.Steps
import SourceOutline.Proofs.Python.Bare
import SourceOutline.Proofs.Python.BareLines
import SourceOutline.Proofs.Python.Blame
import SourceOutline.Proofs.Python.Collecting
import SourceOutline.Proofs.Python.Correspondence
import SourceOutline.Proofs.Python.Cutting
import SourceOutline.Proofs.Python.Dedent
import SourceOutline.Proofs.Python.Definitions
import SourceOutline.Proofs.Python.Detaching
import SourceOutline.Proofs.Python.Escapes
import SourceOutline.Proofs.Python.Evenness
import SourceOutline.Proofs.Python.Failures
import SourceOutline.Proofs.Python.Firm
import SourceOutline.Proofs.Python.FormFeedOutline
import SourceOutline.Proofs.Python.FormFeedPlaces
import SourceOutline.Proofs.Python.FormFeedRows
import SourceOutline.Proofs.Python.FormFeedRules
import SourceOutline.Proofs.Python.Heads
import SourceOutline.Proofs.Python.Layout
import SourceOutline.Proofs.Python.Legality
import SourceOutline.Proofs.Python.Literals
import SourceOutline.Proofs.Python.Locality
import SourceOutline.Proofs.Python.Margins
import SourceOutline.Proofs.Python.Members
import SourceOutline.Proofs.Python.Nesting
import SourceOutline.Proofs.Python.Openings
import SourceOutline.Proofs.Python.Outdenting
import SourceOutline.Proofs.Python.Passing
import SourceOutline.Proofs.Python.Pieces
import SourceOutline.Proofs.Python.Relocation
import SourceOutline.Proofs.Python.Rendering
import SourceOutline.Proofs.Python.Reparse
import SourceOutline.Proofs.Python.ReturnedOutline
import SourceOutline.Proofs.Python.ReturnedPlaces
import SourceOutline.Proofs.Python.ReturnedRows
import SourceOutline.Proofs.Python.ReturnedTexts
import SourceOutline.Proofs.Python.Returns
import SourceOutline.Proofs.Python.Roundtrip
import SourceOutline.Proofs.Python.Rows
import SourceOutline.Proofs.Python.Seating
import SourceOutline.Proofs.Python.Seats
import SourceOutline.Proofs.Python.Shallower
import SourceOutline.Proofs.Python.ShedLayout
import SourceOutline.Proofs.Python.ShedRows
import SourceOutline.Proofs.Python.Shedding
import SourceOutline.Proofs.Python.Shift
import SourceOutline.Proofs.Python.ShiftedOutline
import SourceOutline.Proofs.Python.ShiftedPlaces
import SourceOutline.Proofs.Python.ShiftedRules
import SourceOutline.Proofs.Python.ShiftedTexts
import SourceOutline.Proofs.Python.Signs
import SourceOutline.Proofs.Python.Sitting
import SourceOutline.Proofs.Python.Spanning
import SourceOutline.Proofs.Python.SpelledLines
import SourceOutline.Proofs.Python.SpelledTree
import SourceOutline.Proofs.Python.Spelling
import SourceOutline.Proofs.Python.Squeezing
import SourceOutline.Proofs.Python.Standing
import SourceOutline.Proofs.Python.Statements
import SourceOutline.Proofs.Python.Stretch
import SourceOutline.Proofs.Python.Transcripts
import SourceOutline.Proofs.Python.Twins
import SourceOutline.Proofs.Python.Upright
import SourceOutline.Proofs.Scan.Coverage
import SourceOutline.Proofs.Scan.Names
import SourceOutline.Proofs.Scan.Order
import SourceOutline.Proofs.Scan.Scripts
import SourceOutline.Proofs.Script.DocSearch
import SourceOutline.Proofs.Script.DocSharing
import SourceOutline.Proofs.Script.DocSpan
import SourceOutline.Proofs.Script.DocWindow
import SourceOutline.Proofs.Script.ExportedNames
import SourceOutline.Proofs.Script.Exports
import SourceOutline.Proofs.Script.Imports
import SourceOutline.Proofs.Script.Isolation
import SourceOutline.Proofs.Script.Members
import SourceOutline.Proofs.Script.Offsets
import SourceOutline.Proofs.Script.Positions
import SourceOutline.Proofs.Script.Reading
import SourceOutline.Proofs.Script.RecordNames
import SourceOutline.Proofs.Script.Spellings
import SourceOutline.Proofs.Text.Bytes
import SourceOutline.Proofs.Text.Lines
import SourceOutline.Proofs.Text.Returns
import SourceOutline.Proofs.Text.Search
import SourceOutline.Proofs.Text.Shift
import SourceOutline.Proofs.Text.Squeeze
import SourceOutline.Proofs.Text.Words
import SourceOutline.Python.Cursor
import SourceOutline.Python.Expression
import SourceOutline.Python.Extract
import SourceOutline.Python.Header
import SourceOutline.Python.Lexer
import SourceOutline.Python.Line
import SourceOutline.Python.Literal
import SourceOutline.Python.Number
import SourceOutline.Python.Pattern
import SourceOutline.Python.Simple
import SourceOutline.Python.Statement
import SourceOutline.Python.Structure
import SourceOutline.Python.Token
import SourceOutline.Python.Tree
import SourceOutline.Scanner
import SourceOutline.Script.Decode
import SourceOutline.Script.DocSearch
import SourceOutline.Script.Extract
import SourceOutline.Script.Node
import SourceOutline.Script.Source
import SourceOutline.Settings
import SourceOutline.Settings.Reader
import SourceOutline.Text.Blank
import SourceOutline.Text.CharRanges
import SourceOutline.Text.IdentifierChar
import SourceOutline.Text.Lines
import SourceOutline.Text.Lowercase
import SourceOutline.Text.Printable
import SourceOutline.Text.Quoted
import SourceOutline.Text.Search
import SourceOutline.Toml.Document
import SourceOutline.Toml.Number
import SourceOutline.Toml.Reader
import SourceOutline.Toml.Value
