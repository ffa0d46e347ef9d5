import StyledText.CommandLine.Arguments
import StyledText.CommandLine.Help
import StyledText.CommandLine.Options
import StyledText.CommandLine.Run
import StyledText.Element.Alert
import StyledText.Element.Basic
import StyledText.Element.Context
import StyledText.Element.Heading
import StyledText.Element.Link
import StyledText.Element.Rule
import StyledText.Element.Run
import StyledText.Escape.Sequence
import StyledText.Escape.Truncation
import StyledText.Escape.Write
import StyledText.Files
import StyledText.Layout
import StyledText.Main
import StyledText.Markup.Expansion
import StyledText.Markup.Name
import StyledText.Markup.Node
import StyledText.Markup.Parameters
import StyledText.Markup.Registry
import StyledText.Markup.Span
import StyledText.Markup.Strip
import StyledText.Markup.Token
import StyledText.Number.Decimal
import StyledText.Number.Digits
import StyledText.Number.Number
import StyledText.Number.Shortest
import StyledText.Output.Mode
import StyledText.Output.Printer
import StyledText.Output.Sink
import StyledText.Proofs.Escape.Whole
import StyledText.Proofs.Markup.Brackets
import StyledText.Proofs.Markup.Document
import StyledText.Proofs.Markup.Expansion
import StyledText.Proofs.Markup.Flattening
import StyledText.Proofs.Markup.Frames
import StyledText.Proofs.Markup.Heads
import StyledText.Proofs.Markup.Leaves
import StyledText.Proofs.Markup.Letters
import StyledText.Proofs.Markup.Nesting
import StyledText.Proofs.Markup.Parameters
import StyledText.Proofs.Markup.Registry
import StyledText.Proofs.Markup.Stripping
import StyledText.Proofs.Markup.WellNested
import StyledText.Proofs.Style.Paint
import StyledText.Session
import StyledText.Shortcode.Builtin
import StyledText.Shortcode.Spacing
import StyledText.Style.Attributes
import StyledText.Style.Color
import StyledText.Style.Paint
import StyledText.Style.Source
import StyledText.Text.Basic
import StyledText.Text.Quoted
import StyledText.Text.Unprinted
import StyledText.Theme.Basic
import StyledText.Theme.Builtin
import StyledText.Theme.Reading
import StyledText.Theme.Source
import StyledText.Yaml.Document
import StyledText.Yaml.Node
import StyledText.Yaml.Schema
import StyledText.Yaml.Source
import StyledText.Yaml.Token.Basic
import StyledText.Yaml.Token.Read
import StyledText.Yaml.Token.Scalar
import StyledText.Yaml.Token.Tag
import StyledText.Yaml.Value
import StyledText.Proofs.Shortcode.Builtin
import StyledText.Proofs.Style.Drawing
import StyledText.Proofs.Terminal.Settling
import StyledText.Proofs.Element.Drawing
import StyledText.Proofs.Element.Tags
import StyledText.Proofs.Theme.Paths
import StyledText.Proofs.Element.Restyling
import StyledText.Proofs.Markup.Grammar
import StyledText.Proofs.Output.Limit
import StyledText.Proofs.Markup.Tiling
import StyledText.Proofs.Escape.Grammar
import StyledText.Proofs.Escape.Truncation
import StyledText.Proofs.Style.Wrapping
import StyledText.Proofs.Escape.Rejoining
import StyledText.Proofs.Shortcode.Lines
import StyledText.Proofs.Element.Rows
import StyledText.Proofs.Theme.Writing
import StyledText.Proofs.Theme.Overlaying
import StyledText.Proofs.Element.Rules
import StyledText.Proofs.Element.Filling
import StyledText.Proofs.Style.Spelling
import StyledText.Proofs.Style.Merging
import StyledText.Proofs.Markup.Registration
import StyledText.Proofs.Shortcode.Bounds
import StyledText.Proofs.Markup.Folding
import StyledText.Proofs.Element.Links
import StyledText.Proofs.Markup.Builder
import StyledText.Proofs.Markup.Words
import StyledText.Proofs.Markup.Writes
