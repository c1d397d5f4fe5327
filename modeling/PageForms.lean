import PageForms.Command.Arguments
import PageForms.Command.Compile
import PageForms.Command.Help
import PageForms.Command.Host
import PageForms.Command.Listing
import PageForms.Command.Output
import PageForms.Command.Program
import PageForms.Console.Basic
import PageForms.Console.Show
import PageForms.Console.StyleTag
import PageForms.Datum.Basic
import PageForms.Datum.Display
import PageForms.Datum.Element
import PageForms.Datum.Equality
import PageForms.Datum.Layout
import PageForms.Datum.Replace
import PageForms.Datum.Sequence
import PageForms.Datum.Writer
import PageForms.Decimal.Binary64
import PageForms.Decimal.Shortest
import PageForms.Fault
import PageForms.Files.Path
import PageForms.Files.Tree
import PageForms.Files.Utf8
import PageForms.Main
import PageForms.Markup.Builder
import PageForms.Markup.Document
import PageForms.Markup.Event
import PageForms.Markup.NamedReference
import PageForms.Markup.Node
import PageForms.Markup.Reference
import PageForms.Markup.Scanner
import PageForms.Page.Canonical
import PageForms.Page.Compile
import PageForms.Page.Convert
import PageForms.Page.Namespace
import PageForms.Page.Source
import PageForms.Page.Stylesheet
import PageForms.Page.Tag
import PageForms.Proofs.Command.Batch
import PageForms.Proofs.Command.Delivery
import PageForms.Proofs.Command.Output
import PageForms.Proofs.Command.OutputsOnly
import PageForms.Proofs.Command.Refusals
import PageForms.Proofs.Command.Source
import PageForms.Proofs.Command.SourcesKept
import PageForms.Proofs.Command.Stops
import PageForms.Proofs.Command.Together
import PageForms.Proofs.Datum.DecEq
import PageForms.Proofs.Datum.Equality
import PageForms.Proofs.Datum.Filling
import PageForms.Proofs.Datum.Finite
import PageForms.Proofs.Datum.Layout
import PageForms.Proofs.Datum.Lexemes
import PageForms.Proofs.Datum.LineParts
import PageForms.Proofs.Datum.Margin
import PageForms.Proofs.Datum.Outermost
import PageForms.Proofs.Datum.Restorable
import PageForms.Proofs.Datum.Sharing
import PageForms.Proofs.Datum.Traversal
import PageForms.Proofs.Datum.Writable
import PageForms.Proofs.Decimal.Notation
import PageForms.Proofs.Decimal.Rounding
import PageForms.Proofs.Decimal.Shortest
import PageForms.Proofs.Except
import PageForms.Proofs.Files.Path
import PageForms.Proofs.Files.Tree
import PageForms.Proofs.Lists
import PageForms.Proofs.Markup.Builder
import PageForms.Proofs.Markup.Document
import PageForms.Proofs.Markup.DocumentOrder
import PageForms.Proofs.Markup.Faults
import PageForms.Proofs.Markup.OpenElements
import PageForms.Proofs.Markup.Rebuild
import PageForms.Proofs.Markup.Reference
import PageForms.Proofs.Markup.Replay
import PageForms.Proofs.Markup.RoundTrip
import PageForms.Proofs.Markup.Scanner
import PageForms.Proofs.Markup.Tags
import PageForms.Proofs.Markup.Tidy
import PageForms.Proofs.Markup.TopLevel
import PageForms.Proofs.Markup.Verbatim
import PageForms.Proofs.Markup.Wrappers
import PageForms.Proofs.Page.Acceptance
import PageForms.Proofs.Page.Boot
import PageForms.Proofs.Page.Canonical
import PageForms.Proofs.Page.Declaration
import PageForms.Proofs.Page.Faults
import PageForms.Proofs.Page.KnownTags
import PageForms.Proofs.Page.Lift
import PageForms.Proofs.Page.LiftedSource
import PageForms.Proofs.Page.MarkupForms
import PageForms.Proofs.Page.MarkupModule
import PageForms.Proofs.Page.Module
import PageForms.Proofs.Page.Nodes
import PageForms.Proofs.Page.PageTags
import PageForms.Proofs.Page.Rendering
import PageForms.Proofs.Page.Restyled
import PageForms.Proofs.Page.Role
import PageForms.Proofs.Page.SourceModule
import PageForms.Proofs.Page.Stylesheet
import PageForms.Proofs.Page.Substitution
import PageForms.Proofs.Page.TagErasure
import PageForms.Proofs.Reader.Atom
import PageForms.Proofs.Reader.AtomText
import PageForms.Proofs.Reader.Concatenation
import PageForms.Proofs.Reader.Descent
import PageForms.Proofs.Reader.Discard
import PageForms.Proofs.Reader.EntryOrder
import PageForms.Proofs.Reader.Faults
import PageForms.Proofs.Reader.Grammar
import PageForms.Proofs.Reader.MapItems
import PageForms.Proofs.Reader.Names
import PageForms.Proofs.Reader.Origin
import PageForms.Proofs.Reader.Placement
import PageForms.Proofs.Reader.ReadBack
import PageForms.Proofs.Reader.RoundTrip
import PageForms.Proofs.Reader.Run
import PageForms.Proofs.Text.Digit
import PageForms.Proofs.Text.Quoted
import PageForms.Proofs.Token.Boundary
import PageForms.Proofs.Token.Concatenation
import PageForms.Proofs.Token.Lexes
import PageForms.Proofs.Token.Partition
import PageForms.Proofs.Token.Pattern
import PageForms.Proofs.Token.Spelling
import PageForms.Reader.Atom
import PageForms.Reader.Basic
import PageForms.Settings.Basic
import PageForms.Settings.Field
import PageForms.Settings.IntegerText
import PageForms.Settings.Toml.Document
import PageForms.Settings.Toml.Item
import PageForms.Settings.Toml.Moment
import PageForms.Settings.Toml.Number
import PageForms.Settings.Toml.Quoted
import PageForms.Settings.Toml.Value
import PageForms.Text.Blank
import PageForms.Text.CaseTable
import PageForms.Text.CodeRange
import PageForms.Text.Digit
import PageForms.Text.Inspected
import PageForms.Text.Invisible
import PageForms.Text.Join
import PageForms.Text.LowerCase
import PageForms.Text.Named
import PageForms.Text.Position
import PageForms.Text.Quoted
import PageForms.Token.Basic
import PageForms.Token.Lexer
