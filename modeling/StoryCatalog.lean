import StoryCatalog.Main
import StoryCatalog.Timestamp.Clock
import StoryCatalog.CommandLine.Run
import StoryCatalog.CommandLine.Report
import StoryCatalog.CommandLine.Command
import StoryCatalog.CommandLine.Grammar
import StoryCatalog.CommandLine.Value
import StoryCatalog.Settings.Basic
import StoryCatalog.Settings.Environment
import StoryCatalog.Extraction.Log
import StoryCatalog.Extraction.Summary
import StoryCatalog.Extraction.Run
import StoryCatalog.Extraction.Selection
import StoryCatalog.Extraction.Strategy
import StoryCatalog.Extraction.Context
import StoryCatalog.Browser.Introspection
import StoryCatalog.Network.Port
import StoryCatalog.Index.Remote
import StoryCatalog.Session
import StoryCatalog.Browser.Page
import StoryCatalog.Network.Exchange
import StoryCatalog.Failure
import StoryCatalog.Url.Request
import StoryCatalog.Url.Percent
import StoryCatalog.Url.Basic
import StoryCatalog.Url.Address
import StoryCatalog.Catalog.Loader
import StoryCatalog.Catalog.Store
import StoryCatalog.Catalog.Snapshot
import StoryCatalog.Story.Discovery
import StoryCatalog.Index.File
import StoryCatalog.Files
import StoryCatalog.Text.Encoding
import StoryCatalog.Text.Utf8
import StoryCatalog.Story.FromIndex
import StoryCatalog.Index.Basic
import StoryCatalog.Index.Entry
import StoryCatalog.Json.Scalar
import StoryCatalog.Catalog.Search
import StoryCatalog.Catalog.Component
import StoryCatalog.Story.Usage
import StoryCatalog.Catalog.Basic
import StoryCatalog.Catalog.Provenance
import StoryCatalog.Timestamp.Reader
import StoryCatalog.Timestamp.Basic
import StoryCatalog.Timestamp.Date
import StoryCatalog.Story.FromFile
import StoryCatalog.Story.Record
import StoryCatalog.Story.Action
import StoryCatalog.Error
import StoryCatalog.Text.Slug
import StoryCatalog.Path
import StoryCatalog.StoryFile
import StoryCatalog.Literal.Escape
import StoryCatalog.Literal.Numeral
import StoryCatalog.Literal.Expression
import StoryCatalog.Literal.Plain
import StoryCatalog.Script.Statements
import StoryCatalog.Script.Module
import StoryCatalog.Script.Expressions
import StoryCatalog.Script.Grammar
import StoryCatalog.Script.Markup
import StoryCatalog.Script.Types
import StoryCatalog.Script.Token
import StoryCatalog.Script.Reading
import StoryCatalog.Script.Tree
import StoryCatalog.Text.Quoted
import StoryCatalog.Json.Printer
import StoryCatalog.Fields
import StoryCatalog.Json.Basic
import StoryCatalog.Json.Reader
import StoryCatalog.Number.Basic
import StoryCatalog.Number.Decimal
import StoryCatalog.Number.Shortest
import StoryCatalog.Number.Binary64
import StoryCatalog.Text.CodePoint
import StoryCatalog.Text.Blank
import StoryCatalog.Text.Case
import StoryCatalog.Text.CaseTable
import StoryCatalog.Text.Digit
import StoryCatalog.Text.Printable
import StoryCatalog.Proofs.Extraction.Selection
import StoryCatalog.Proofs.Extraction.Enhancement
import StoryCatalog.Proofs.Literal.Decoding
import StoryCatalog.Proofs.Text.Digits
import StoryCatalog.Proofs.Text.Utf8
import StoryCatalog.Proofs.Number.Decimal
import StoryCatalog.Proofs.Extraction.Siblings
import StoryCatalog.Proofs.Fields
import StoryCatalog.Proofs.Json.Number
import StoryCatalog.Proofs.Json.Printing
import StoryCatalog.Proofs.Json.RoundTrip
import StoryCatalog.Proofs.Catalog.Restoring
import StoryCatalog.Proofs.Catalog.Saving
import StoryCatalog.Proofs.Extraction.Agreement
import StoryCatalog.Proofs.Extraction.Reloading
import StoryCatalog.Proofs.Extraction.Order
import StoryCatalog.Proofs.Session.Moving
import StoryCatalog.Proofs.Extraction.AfterSave
import StoryCatalog.Proofs.Extraction.Repetition
import StoryCatalog.Proofs.Script.Reads
import StoryCatalog.Proofs.Script.Tokens
import StoryCatalog.Proofs.Text.Characters
import StoryCatalog.Proofs.Script.Literals
import StoryCatalog.Proofs.Literal.Numeral
import StoryCatalog.Proofs.Script.Operands
import StoryCatalog.Proofs.Script.Values
import StoryCatalog.Proofs.Script.Export
import StoryCatalog.Proofs.Literal.Embedding
import StoryCatalog.Proofs.Extraction.Attribution
import StoryCatalog.Proofs.Catalog.Changes
import StoryCatalog.Proofs.Catalog.Histories
import StoryCatalog.Proofs.Catalog.Interleaving
import StoryCatalog.Proofs.Literal.Assertions
import StoryCatalog.Proofs.Story.Assertions
import StoryCatalog.Proofs.Order
import StoryCatalog.Proofs.Story.Tags
import StoryCatalog.Proofs.Catalog.Records
import StoryCatalog.Proofs.Story.Enumeration
import StoryCatalog.Proofs.Extraction.SourceCatalog
import StoryCatalog.Proofs.Catalog.Grouping
import StoryCatalog.Proofs.Catalog.Components
import StoryCatalog.Proofs.Extraction.Introspection
import StoryCatalog.Proofs.Script.Walk
import StoryCatalog.Proofs.Story.Exports
import StoryCatalog.Proofs.Story.Assignments
import StoryCatalog.Proofs.Story.Respelling
import StoryCatalog.Proofs.Story.DefaultExport
import StoryCatalog.Proofs.Text.Utf16
import StoryCatalog.Proofs.Script.Strings
import StoryCatalog.Proofs.Literal.StringValue
import StoryCatalog.Proofs.Index.Isolation
import StoryCatalog.Proofs.Index.Formats
import StoryCatalog.Proofs.Index.File
import StoryCatalog.Proofs.Json.Grammar
import StoryCatalog.Proofs.Json.Standard
import StoryCatalog.Proofs.Json.Limit
import StoryCatalog.Proofs.Extraction.Standard
import StoryCatalog.Proofs.Text.Encoded
import StoryCatalog.Proofs.Text.Case
import StoryCatalog.Proofs.Catalog.Search
import StoryCatalog.Proofs.Catalog.Filter
import StoryCatalog.Proofs.Json.SameLines
import StoryCatalog.Proofs.Json.LineBreaks
import StoryCatalog.Proofs.Story.Usage
import StoryCatalog.Proofs.Json.Fitting
import StoryCatalog.Proofs.Catalog.Reading
import StoryCatalog.Proofs.Text.Slug
import StoryCatalog.Proofs.Story.Actions
import StoryCatalog.Proofs.Index.Remote
import StoryCatalog.Proofs.Extraction.SharedIndex
import StoryCatalog.Proofs.Text.Settled
import StoryCatalog.Proofs.Url.Parts
import StoryCatalog.Proofs.Url.Authority
import StoryCatalog.Proofs.Url.Port
import StoryCatalog.Proofs.Catalog.Keys
import StoryCatalog.Proofs.Literal.Objects
import StoryCatalog.Proofs.Literal.TemplateValue
import StoryCatalog.Proofs.Literal.IntegerValue
