import LessonBook.Admonition.Bracketing
import LessonBook.Admonition.Span
import LessonBook.Batch
import LessonBook.CommandLine
import LessonBook.Config
import LessonBook.Exercise.Bracketing
import LessonBook.Exercise.Marker
import LessonBook.Exercise.Sequence
import LessonBook.Files.Path
import LessonBook.Files.Store
import LessonBook.Json.Printer
import LessonBook.Json.Reader
import LessonBook.Json.Value
import LessonBook.Main
import LessonBook.Manifest
import LessonBook.Markup.Block.Basic
import LessonBook.Markup.Block.Code
import LessonBook.Markup.Block.Directive
import LessonBook.Markup.Block.Fields
import LessonBook.Markup.Block.Heading
import LessonBook.Markup.Block.Html
import LessonBook.Markup.Block.ListItem
import LessonBook.Markup.Block.Math
import LessonBook.Markup.Block.Reader
import LessonBook.Markup.Block.Table
import LessonBook.Markup.Diagnostic
import LessonBook.Markup.Extension
import LessonBook.Markup.HtmlAdmonition
import LessonBook.Markup.Inline.Element
import LessonBook.Markup.Inline.Emphasis
import LessonBook.Markup.Inline.Link
import LessonBook.Markup.Inline.Substitution
import LessonBook.Markup.Tree
import LessonBook.Markup.Typography
import LessonBook.Notebook.Basic
import LessonBook.Notebook.ChunkOption
import LessonBook.Notebook.Header
import LessonBook.Notebook.Reader
import LessonBook.Notebook.Writer
import LessonBook.Number.Binary64
import LessonBook.Number.Shortest
import LessonBook.Page
import LessonBook.Proofs.Admonition.BracketedLines
import LessonBook.Proofs.Admonition.ClosingLine
import LessonBook.Proofs.Admonition.Laminar
import LessonBook.Proofs.Admonition.Level
import LessonBook.Proofs.Admonition.LineEnds
import LessonBook.Proofs.Admonition.Location
import LessonBook.Proofs.Admonition.OpeningLine
import LessonBook.Proofs.Admonition.Placement
import LessonBook.Proofs.Admonition.Replacement
import LessonBook.Proofs.Admonition.Search
import LessonBook.Proofs.Admonition.SecondPass
import LessonBook.Proofs.Admonition.SpanSearch
import LessonBook.Proofs.Admonition.Spans
import LessonBook.Proofs.Admonition.WrittenLines
import LessonBook.Proofs.Batch.FirstFailure
import LessonBook.Proofs.Batch.Independence
import LessonBook.Proofs.Batch.Separation
import LessonBook.Proofs.Batch.Turn
import LessonBook.Proofs.CommandLine.KeptNotebooks
import LessonBook.Proofs.CommandLine.Refusal
import LessonBook.Proofs.Config.Acceptance
import LessonBook.Proofs.Config.Rules
import LessonBook.Proofs.Exercise.Attributes
import LessonBook.Proofs.Exercise.Collapse
import LessonBook.Proofs.Exercise.HiddenLines
import LessonBook.Proofs.Exercise.HiddenSolution
import LessonBook.Proofs.Exercise.LineEnds
import LessonBook.Proofs.Exercise.LineReading
import LessonBook.Proofs.Exercise.LineRewrite
import LessonBook.Proofs.Exercise.LineScan
import LessonBook.Proofs.Exercise.MarkerLine
import LessonBook.Proofs.Exercise.MarkerScan
import LessonBook.Proofs.Exercise.OnePass
import LessonBook.Proofs.Exercise.PageReading
import LessonBook.Proofs.Exercise.PairedLineEnds
import LessonBook.Proofs.Exercise.Refusal
import LessonBook.Proofs.Exercise.SecondPass
import LessonBook.Proofs.Exercise.Sequencing
import LessonBook.Proofs.Exercise.WrittenText
import LessonBook.Proofs.Files.Listing
import LessonBook.Proofs.Files.Path
import LessonBook.Proofs.Files.Store
import LessonBook.Proofs.Json.KeyOrder
import LessonBook.Proofs.Json.RoundTrip
import LessonBook.Proofs.Json.Scalar
import LessonBook.Proofs.Markup.BlockBoundary
import LessonBook.Proofs.Markup.BlockReading
import LessonBook.Proofs.Markup.BlockStart
import LessonBook.Proofs.Markup.Diagnostics
import LessonBook.Proofs.Markup.DirectiveBody
import LessonBook.Proofs.Markup.DirectiveLines
import LessonBook.Proofs.Markup.DirectiveShape
import LessonBook.Proofs.Markup.ElementRemainder
import LessonBook.Proofs.Markup.ExtensionLoop
import LessonBook.Proofs.Markup.FormulaEnd
import LessonBook.Proofs.Markup.FrontMatter
import LessonBook.Proofs.Markup.InnerText
import LessonBook.Proofs.Markup.Interruption
import LessonBook.Proofs.Markup.LineAccounting
import LessonBook.Proofs.Markup.LineBoundary
import LessonBook.Proofs.Markup.Position
import LessonBook.Proofs.Markup.Progress
import LessonBook.Proofs.Markup.ReadingBound
import LessonBook.Proofs.Markup.Remainder
import LessonBook.Proofs.Markup.Step
import LessonBook.Proofs.Markup.Typography
import LessonBook.Proofs.Notebook.ChunkOptions
import LessonBook.Proofs.Notebook.Chunks
import LessonBook.Proofs.Notebook.HeaderContent
import LessonBook.Proofs.Notebook.Prose
import LessonBook.Proofs.Notebook.ProseBlocks
import LessonBook.Proofs.Notebook.Rendering
import LessonBook.Proofs.Notebook.Stored
import LessonBook.Proofs.Notebook.Stretches
import LessonBook.Proofs.Number.Numeral
import LessonBook.Proofs.Number.Rounding
import LessonBook.Proofs.Number.ShortestDigits
import LessonBook.Proofs.Page.Chunks
import LessonBook.Proofs.Page.Header
import LessonBook.Proofs.Page.LineEnds
import LessonBook.Proofs.Page.WrittenLines
import LessonBook.Proofs.Text.Cut
import LessonBook.Proofs.Text.Digits
import LessonBook.Proofs.Text.FirstLine
import LessonBook.Proofs.Text.LineEnds
import LessonBook.Proofs.Text.Lines
import LessonBook.Proofs.Text.Remainder
import LessonBook.Proofs.Text.Search
import LessonBook.Proofs.Text.TabExpansion
import LessonBook.Proofs.Text.Trim
import LessonBook.Proofs.Text.UnitOrder
import LessonBook.Proofs.Text.Weight
import LessonBook.Proofs.Yaml.Content
import LessonBook.Record
import LessonBook.Text.Basic
import LessonBook.Text.Recognizer
import LessonBook.Text.Units
import LessonBook.Text.Utf8
import LessonBook.Unicode.Category
import LessonBook.Yaml.Document
import LessonBook.Yaml.Evaluation
import LessonBook.Yaml.Fold
import LessonBook.Yaml.Lexeme
import LessonBook.Yaml.Library
import LessonBook.Yaml.Node.Basic
import LessonBook.Yaml.Node.Composition
import LessonBook.Yaml.Node.Printer
import LessonBook.Yaml.Node.Properties
import LessonBook.Yaml.OlderScalar
import LessonBook.Yaml.Outline.Basic
import LessonBook.Yaml.Outline.Builder
import LessonBook.Yaml.Scalar
import LessonBook.Yaml.ScalarPrinter
import LessonBook.Yaml.ScalarText
import LessonBook.Yaml.Schema
import LessonBook.Yaml.Tag
import LessonBook.Yaml.Timestamp
import LessonBook.Yaml.Value
import LessonBook.Yaml.Writing
