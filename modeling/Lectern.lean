import Lectern.Command.Run
import Lectern.Directive.Scan
import Lectern.FileTree.Writing
import Lectern.Import.Disk
import Lectern.Import.ReservedPackage
import Lectern.Main
import Lectern.Markdown.Document
import Lectern.Page.Writer
import Lectern.Pipeline
import Lectern.Settings.Load
import Lectern.Shorthand
import Lectern.Site.Build
import Lectern.Toml.Parser
import Lectern.Proofs.Command.Build
import Lectern.Proofs.Command.Ending
import Lectern.Proofs.Command.Pages
import Lectern.Proofs.Directive.Extent
import Lectern.Proofs.Directive.Markup
import Lectern.Proofs.FileTree.Listing
import Lectern.Proofs.FileTree.Walk
import Lectern.Proofs.FileTree.Writing
import Lectern.Proofs.FileUrl.Drive
import Lectern.Proofs.FileUrl.Encoding
import Lectern.Proofs.Glob.Escape
import Lectern.Proofs.Glob.Search
import Lectern.Proofs.Import.Chain
import Lectern.Proofs.Import.Context
import Lectern.Proofs.Import.EntryUrl
import Lectern.Proofs.Import.Exports
import Lectern.Proofs.Import.Importer
import Lectern.Proofs.Import.Ownership
import Lectern.Proofs.Import.PackageEntry
import Lectern.Proofs.Import.ReservedPackage
import Lectern.Proofs.Markdown.Definition
import Lectern.Proofs.Markdown.Line
import Lectern.Proofs.Markdown.Note
import Lectern.Proofs.Markdown.Paragraph
import Lectern.Proofs.Markdown.Tag
import Lectern.Proofs.Markup.Attribute
import Lectern.Proofs.Page.Body
import Lectern.Proofs.Page.Component
import Lectern.Proofs.Page.Concatenation
import Lectern.Proofs.Page.Contents
import Lectern.Proofs.Page.DocumentId
import Lectern.Proofs.Page.Expression
import Lectern.Proofs.Page.Footnote
import Lectern.Proofs.Page.FootnoteLink
import Lectern.Proofs.Page.Frame
import Lectern.Proofs.Page.HeadingId
import Lectern.Proofs.Page.HeadingText
import Lectern.Proofs.Page.Image
import Lectern.Proofs.Page.MainFlow
import Lectern.Proofs.Page.Place
import Lectern.Proofs.Page.Restyled
import Lectern.Proofs.Page.Table
import Lectern.Proofs.Path.Display
import Lectern.Proofs.Path.Joined
import Lectern.Proofs.Pipeline.Lines
import Lectern.Proofs.Pipeline.Precedence
import Lectern.Proofs.Settings.Discovery
import Lectern.Proofs.Settings.Expansion
import Lectern.Proofs.Settings.Validity
import Lectern.Proofs.Site.Build
import Lectern.Proofs.Site.Ending
import Lectern.Proofs.Site.Lesson
import Lectern.Proofs.Site.Place
import Lectern.Proofs.Site.Schedule
import Lectern.Proofs.Site.Twin
import Lectern.Proofs.Text.Utf8
