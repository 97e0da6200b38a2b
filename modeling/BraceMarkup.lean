import BraceMarkup.Block
import BraceMarkup.Block.Dump
import BraceMarkup.Block.Json
import BraceMarkup.CommandLine.Arguments
import BraceMarkup.CommandLine.Run
import BraceMarkup.Decimal
import BraceMarkup.Decimal.Nearest
import BraceMarkup.Decimal.Shortest
import BraceMarkup.Document
import BraceMarkup.Entries
import BraceMarkup.FileSystem
import BraceMarkup.Format
import BraceMarkup.Html
import BraceMarkup.Json
import BraceMarkup.Json.Reader
import BraceMarkup.Number
import BraceMarkup.ParseTree
import BraceMarkup.Position
import BraceMarkup.Source
import BraceMarkup.Template.Context
import BraceMarkup.Template.Directive
import BraceMarkup.Template.Environment
import BraceMarkup.Template.Error
import BraceMarkup.Template.Evaluation
import BraceMarkup.Template.Module
import BraceMarkup.Text.Alphanumeric
import BraceMarkup.Text.Blank
import BraceMarkup.Text.CharTable
import BraceMarkup.Text.LineBreaks
import BraceMarkup.Text.Quoted
import BraceMarkup.Text.Unprintable
import BraceMarkup.Token
import BraceMarkup.Token.Scanner
import BraceMarkup.Value
import BraceMarkup.Proofs.Block.Arguments
import BraceMarkup.Proofs.Source.Nesting
import BraceMarkup.Proofs.Token.Layout
import BraceMarkup.Proofs.ParseTree.Builder
import BraceMarkup.Proofs.ParseTree.Grammar
import BraceMarkup.Proofs.Source.Written
import BraceMarkup.Proofs.Template.Lockstep
import BraceMarkup.Proofs.Template.Excused
import BraceMarkup.Proofs.Template.Session
import BraceMarkup.Proofs.FileSystem.Paths
import BraceMarkup.Proofs.Template.Modules
import BraceMarkup.Proofs.Token.Fault
import BraceMarkup.Proofs.Template.Termination
import BraceMarkup.Proofs.ParseTree.Acceptance
import BraceMarkup.Proofs.Template.Composition
import BraceMarkup.Proofs.Template.Unread
import BraceMarkup.Proofs.Json.ReadBack
import BraceMarkup.Proofs.Template.Limit
import BraceMarkup.Proofs.Json.Blocks
import BraceMarkup.Proofs.Source.Shape
import BraceMarkup.Proofs.Source.Levels
import BraceMarkup.Proofs.Html.Tree
import BraceMarkup.Proofs.Html.Reader
import BraceMarkup.Proofs.Token.Shift
import BraceMarkup.Proofs.Token.Lines
import BraceMarkup.Proofs.Source.Lines
import BraceMarkup.Proofs.Template.Bound
import BraceMarkup.Proofs.FileSystem.Writing
import BraceMarkup.Proofs.CommandLine.AllOrNothing
import BraceMarkup.Proofs.Token.Braces
import BraceMarkup.Proofs.Token.FirstFault
import BraceMarkup.Proofs.ParseTree.Viable
import BraceMarkup.Proofs.Template.Nested
import BraceMarkup.Proofs.Template.Inheritance
import BraceMarkup.Proofs.Source.Unmarked
import BraceMarkup.Proofs.Token.Safety
import BraceMarkup.Proofs.Template.ReadOnly
import BraceMarkup.Proofs.Template.Forced
import BraceMarkup.Proofs.Template.Wrapped
import BraceMarkup.Proofs.Template.Causes
import BraceMarkup.Proofs.Template.Loads
import BraceMarkup.Proofs.Template.FailedImports
import BraceMarkup.Proofs.Template.Lists
import BraceMarkup.Proofs.Template.Inlined
import BraceMarkup.Proofs.Document.Form
import BraceMarkup.Proofs.Document.LastEntries
import BraceMarkup.Proofs.Source.Walk
import BraceMarkup.Proofs.Text.LineBreaks
import BraceMarkup.Proofs.CommandLine.Seeding
