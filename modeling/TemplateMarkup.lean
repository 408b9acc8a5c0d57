import TemplateMarkup.Text.Cursor
import TemplateMarkup.Naming.Style
import TemplateMarkup.Template.Location
import TemplateMarkup.Template.Selection
import TemplateMarkup.Template.Interpolation
import TemplateMarkup.Main
import TemplateMarkup.Proofs.Text.Cut
import TemplateMarkup.Proofs.Text.LastCut
import TemplateMarkup.Proofs.Text.Bytes
import TemplateMarkup.Proofs.Text.Cursor
import TemplateMarkup.Proofs.Template.DocumentOrder
import TemplateMarkup.Proofs.Markup.Reading
import TemplateMarkup.Proofs.Template.Building
import TemplateMarkup.Proofs.Template.Placement
import TemplateMarkup.Proofs.Template.Coverage
import TemplateMarkup.Proofs.Template.OpenTags
import TemplateMarkup.Proofs.Template.RightEdge
import TemplateMarkup.Proofs.Template.TagMatching
import TemplateMarkup.Proofs.Template.Attributes
import TemplateMarkup.Proofs.Template.LexicalFaults
import TemplateMarkup.Proofs.Template.Numbering
import TemplateMarkup.Proofs.Document.Basic
import TemplateMarkup.Proofs.Document.Reading
import TemplateMarkup.Proofs.Document.RoundTrip
import TemplateMarkup.Proofs.Template.Search
import TemplateMarkup.Proofs.Text.Boundary
import TemplateMarkup.Proofs.Markup.Continuation
import TemplateMarkup.Proofs.Template.Grafting
import TemplateMarkup.Proofs.Template.ValueSearch
import TemplateMarkup.Proofs.Template.Offsets
import TemplateMarkup.Proofs.Template.Counting
import TemplateMarkup.Proofs.Template.Concatenation
import TemplateMarkup.Proofs.Template.Delimiters
import TemplateMarkup.Proofs.Markup.Locality
import TemplateMarkup.Proofs.Markup.Forms
import TemplateMarkup.Proofs.Template.Lookup
import TemplateMarkup.Proofs.Template.Excerpt
import TemplateMarkup.Proofs.Template.AttributeText
import TemplateMarkup.Proofs.Template.TagText
import TemplateMarkup.Proofs.Template.AttributeGaps
import TemplateMarkup.Proofs.Template.Progress
import TemplateMarkup.Proofs.Template.Subtrees
import TemplateMarkup.Proofs.Template.Walk
import TemplateMarkup.Proofs.Template.Selectors
import TemplateMarkup.Proofs.Template.BalancedValues
import TemplateMarkup.Proofs.Template.UnbalancedValues
import TemplateMarkup.Proofs.Source.Lines
import TemplateMarkup.Proofs.Source.LineFeeds
import TemplateMarkup.Proofs.Report.JsonGrammar
import TemplateMarkup.Proofs.Report.JsonPrinting
import TemplateMarkup.Proofs.Report.Lossless
import TemplateMarkup.Proofs.Report.Positions
import TemplateMarkup.Proofs.Glob.IgnoreSet
import TemplateMarkup.Proofs.Project.Accounting
import TemplateMarkup.Proofs.Template.FaultOrder
import TemplateMarkup.Proofs.Report.MachineLines
import TemplateMarkup.Proofs.Project.Paths
import TemplateMarkup.Proofs.Glob.Languages
import TemplateMarkup.Proofs.Glob.IgnoredPaths
import TemplateMarkup.Proofs.Project.FileTrees
import TemplateMarkup.Proofs.Project.Discovery
import TemplateMarkup.Proofs.Project.FileCounts
import TemplateMarkup.Proofs.Naming.RoundTrip
import TemplateMarkup.Proofs.Report.Snippets
import TemplateMarkup.Proofs.Glob.FileName
