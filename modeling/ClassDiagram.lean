import ClassDiagram.CommandLine.Command
import ClassDiagram.CommandLine.Grammar
import ClassDiagram.Decimal.Natural
import ClassDiagram.Decimal.Shortest
import ClassDiagram.Description
import ClassDiagram.Detail
import ClassDiagram.Drawing
import ClassDiagram.Effect
import ClassDiagram.Failure
import ClassDiagram.Fragment
import ClassDiagram.Handle
import ClassDiagram.Json.Cursor
import ClassDiagram.Json.Fault
import ClassDiagram.Json.Number
import ClassDiagram.Json.Record
import ClassDiagram.Json.Skip
import ClassDiagram.Json.Text
import ClassDiagram.Json.Value
import ClassDiagram.Kind
import ClassDiagram.Ledger
import ClassDiagram.Listing
import ClassDiagram.Logging
import ClassDiagram.Main
import ClassDiagram.Members
import ClassDiagram.Model.Basic
import ClassDiagram.Model.Json
import ClassDiagram.Model.Load
import ClassDiagram.Model.Render
import ClassDiagram.Naming
import ClassDiagram.Program
import ClassDiagram.Proofs.Accumulation
import ClassDiagram.Proofs.Aliases
import ClassDiagram.Proofs.Ascent
import ClassDiagram.Proofs.Bytes
import ClassDiagram.Proofs.Closed
import ClassDiagram.Proofs.Detail
import ClassDiagram.Proofs.Drawable
import ClassDiagram.Proofs.Failing
import ClassDiagram.Proofs.Fragment.ReadBack
import ClassDiagram.Proofs.Fragment.Reader
import ClassDiagram.Proofs.Json.Document
import ClassDiagram.Proofs.Json.Record
import ClassDiagram.Proofs.Json.Scanning
import ClassDiagram.Proofs.Lineage
import ClassDiagram.Proofs.Listing.Forms
import ClassDiagram.Proofs.Listing.Rows
import ClassDiagram.Proofs.Listing.Totals
import ClassDiagram.Proofs.Loading
import ClassDiagram.Proofs.Members
import ClassDiagram.Proofs.Model.Acceptance
import ClassDiagram.Proofs.Model.Account
import ClassDiagram.Proofs.Model.Contents
import ClassDiagram.Proofs.Model.Denotation
import ClassDiagram.Proofs.Model.Drawable
import ClassDiagram.Proofs.Model.Early
import ClassDiagram.Proofs.Model.Extension
import ClassDiagram.Proofs.Model.FullDiagram
import ClassDiagram.Proofs.Model.Layout
import ClassDiagram.Proofs.Model.Names
import ClassDiagram.Proofs.Model.Order
import ClassDiagram.Proofs.Model.Part
import ClassDiagram.Proofs.Model.Representation
import ClassDiagram.Proofs.Model.RoundTrip
import ClassDiagram.Proofs.Model.Stages
import ClassDiagram.Proofs.Model.WellFormed
import ClassDiagram.Proofs.Numbering
import ClassDiagram.Proofs.Opening
import ClassDiagram.Proofs.Outcome
import ClassDiagram.Proofs.Outline
import ClassDiagram.Proofs.Program.Agreement
import ClassDiagram.Proofs.Program.Choices
import ClassDiagram.Proofs.Program.Ending
import ClassDiagram.Proofs.Program.Setup
import ClassDiagram.Proofs.Program.Work
import ClassDiagram.Proofs.Renaming
import ClassDiagram.Proofs.Reports
import ClassDiagram.Proofs.RequestOrder
import ClassDiagram.Proofs.Resolver.CacheRun
import ClassDiagram.Proofs.Resolver.Identifier
import ClassDiagram.Proofs.Resolver.Run
import ClassDiagram.Proofs.Session.Erasure
import ClassDiagram.Proofs.Session.Growth
import ClassDiagram.Proofs.Session.InPlace
import ClassDiagram.Proofs.Session.Interning
import ClassDiagram.Proofs.Session.Names
import ClassDiagram.Proofs.Skeleton
import ClassDiagram.Proofs.Steps
import ClassDiagram.Proofs.TypeExpression.Backtracking
import ClassDiagram.Proofs.TypeExpression.Canonical
import ClassDiagram.Proofs.TypeExpression.Capture
import ClassDiagram.Proofs.TypeExpression.Grammar
import ClassDiagram.Proofs.TypeExpression.Reading
import ClassDiagram.Proofs.TypeExpression.Refusal
import ClassDiagram.Proofs.TypeExpression.Resolution
import ClassDiagram.Proofs.TypeExpression.Settled
import ClassDiagram.Proofs.TypeExpression.Spelling
import ClassDiagram.Proofs.Web.Form
import ClassDiagram.Registry
import ClassDiagram.Resolver.Basic
import ClassDiagram.Resolver.Cache
import ClassDiagram.Resolver.Model
import ClassDiagram.Session
import ClassDiagram.Settings
import ClassDiagram.Style
import ClassDiagram.Text.Blank
import ClassDiagram.Text.Extender
import ClassDiagram.Text.FormField
import ClassDiagram.Text.Graphic
import ClassDiagram.Text.Hex
import ClassDiagram.Text.Keyword
import ClassDiagram.Text.Percent
import ClassDiagram.Text.Quoted
import ClassDiagram.Text.Utf8
import ClassDiagram.Trace
import ClassDiagram.TypeExpression.Basic
import ClassDiagram.TypeExpression.Reader
import ClassDiagram.Web.Exchange
import ClassDiagram.Web.Fault
