import Stencil.Command.Arguments
import Stencil.Command.Basic
import Stencil.Decimal.Shortest
import Stencil.Diagnostic.Basic
import Stencil.Diagnostic.Problem
import Stencil.Diagnostic.Report
import Stencil.Diagnostic.Terminal
import Stencil.Files.Artifact
import Stencil.Files.Fault
import Stencil.Files.Path
import Stencil.Files.Tree
import Stencil.Generate
import Stencil.Json.Fault
import Stencil.Json.Number
import Stencil.Json.Reader
import Stencil.Json.Token
import Stencil.Json.Value
import Stencil.Json.Writer
import Stencil.Main
import Stencil.Markup.Attribute
import Stencil.Markup.Document
import Stencil.Markup.Element
import Stencil.Markup.Event
import Stencil.Markup.Load
import Stencil.Markup.Reference
import Stencil.Markup.Token
import Stencil.Mustache.Fault
import Stencil.Mustache.Node
import Stencil.Mustache.Piece
import Stencil.Mustache.Render
import Stencil.Mustache.Tag
import Stencil.Mustache.Template
import Stencil.Mustache.Verbatim
import Stencil.Pattern
import Stencil.Proofs.Command.Arguments
import Stencil.Proofs.Command.Contribution
import Stencil.Proofs.Command.Generate
import Stencil.Proofs.Command.Inputs
import Stencil.Proofs.Command.OneFile
import Stencil.Proofs.Command.Plan
import Stencil.Proofs.Diagnostic.Account
import Stencil.Proofs.Diagnostic.Report
import Stencil.Proofs.Except
import Stencil.Proofs.Files.Delivery
import Stencil.Proofs.Files.Target
import Stencil.Proofs.Files.Writing
import Stencil.Proofs.Generate.Array
import Stencil.Proofs.Generate.Directive
import Stencil.Proofs.Generate.Extension
import Stencil.Proofs.Generate.Generated
import Stencil.Proofs.Generate.Layout
import Stencil.Proofs.Generate.Located
import Stencil.Proofs.Generate.Quoted
import Stencil.Proofs.Generate.Scoping
import Stencil.Proofs.Generate.TerminalReport
import Stencil.Proofs.Json.KeyOrder
import Stencil.Proofs.Json.Lexicals
import Stencil.Proofs.Json.RoundTrip
import Stencil.Proofs.Json.Token
import Stencil.Proofs.Markup.Children
import Stencil.Proofs.Markup.Lines
import Stencil.Proofs.Markup.Nesting
import Stencil.Proofs.Markup.Onset
import Stencil.Proofs.Markup.Pieces
import Stencil.Proofs.Markup.Preorder
import Stencil.Proofs.Markup.RoundTrip
import Stencil.Proofs.Markup.Runs
import Stencil.Proofs.Markup.Unlined
import Stencil.Proofs.Markup.Written
import Stencil.Proofs.Mustache.Alignment
import Stencil.Proofs.Mustache.Escaped
import Stencil.Proofs.Mustache.Fill
import Stencil.Proofs.Mustache.Indent
import Stencil.Proofs.Mustache.Outcome
import Stencil.Proofs.Mustache.Outline
import Stencil.Proofs.Mustache.Partials
import Stencil.Proofs.Mustache.Plain
import Stencil.Proofs.Mustache.Reach
import Stencil.Proofs.Mustache.Segments
import Stencil.Proofs.Mustache.Tag
import Stencil.Proofs.Mustache.Unaltered
import Stencil.Proofs.Mustache.Written
import Stencil.Proofs.Pattern
import Stencil.Proofs.Registry
import Stencil.Proofs.Render.Account
import Stencil.Proofs.Render.Aligned
import Stencil.Proofs.Render.AsWritten
import Stencil.Proofs.Render.Data
import Stencil.Proofs.Render.Normal
import Stencil.Proofs.Render.Openings
import Stencil.Proofs.Render.Outcome
import Stencil.Proofs.Render.Partials
import Stencil.Proofs.Render.Verbatim
import Stencil.Proofs.Table.Content
import Stencil.Proofs.Table.Load
import Stencil.Proofs.Table.Reports
import Stencil.Proofs.Template.Blocks
import Stencil.Proofs.Template.Derivation
import Stencil.Proofs.Template.Environment
import Stencil.Proofs.Template.Erasure
import Stencil.Proofs.Template.Extension
import Stencil.Proofs.Template.Independence
import Stencil.Proofs.Template.Mirror
import Stencil.Proofs.Template.Plan
import Stencil.Proofs.Template.Renaming
import Stencil.Proofs.Template.Reports
import Stencil.Proofs.Template.Substitution
import Stencil.Proofs.Template.Yield
import Stencil.Proofs.Text.Bytes
import Stencil.Proofs.Text.Extent
import Stencil.Proofs.Text.Literal
import Stencil.Registry
import Stencil.Render
import Stencil.Render.Data
import Stencil.Table.Basic
import Stencil.Table.Load
import Stencil.Template.Directive
import Stencil.Template.Emission
import Stencil.Template.Expand
import Stencil.Template.Scope
import Stencil.Text.Blank
import Stencil.Text.Line
import Stencil.Text.Literal
import Stencil.Text.Split
