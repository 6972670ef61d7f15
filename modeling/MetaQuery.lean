import MetaQuery.Text.Blank
import MetaQuery.Text.Uppercase
import MetaQuery.Text.Pieces
import MetaQuery.Decimal.Binary
import MetaQuery.Decimal.Shortest
import MetaQuery.Decimal.Reader
import MetaQuery.Json.Value
import MetaQuery.Json.Printer
import MetaQuery.Json.Draft
import MetaQuery.Text.Category
import MetaQuery.Json.Shape
import MetaQuery.Cell
import MetaQuery.Record
import MetaQuery.Dialect
import MetaQuery.Fault
import MetaQuery.Query.Statement
import MetaQuery.Query.Fragment
import MetaQuery.Query.Select
import MetaQuery.Catalog.Entry
import MetaQuery.Catalog.Check
import MetaQuery.Model
import MetaQuery.Query.Operand
import MetaQuery.Query.Expression
import MetaQuery.Query.JoinForest
import MetaQuery.Query.Predicate
import MetaQuery.Query.Page
import MetaQuery.Raw.Token
import MetaQuery.Raw.Substitution
import MetaQuery.Raw.Safety
import MetaQuery.Query.Compile
import MetaQuery.Query.Write
import MetaQuery.Catalog.Lookup
import MetaQuery.Settings
import MetaQuery.Request.Listing
import MetaQuery.Forest
import MetaQuery.Text.Ranges
import MetaQuery.Text.Property
import MetaQuery.Text.Script
import MetaQuery.Text.Folding
import MetaQuery.Pattern.CharSet
import MetaQuery.Pattern.Basic
import MetaQuery.Pattern.Escape
import MetaQuery.Pattern.ClassReader
import MetaQuery.Pattern.Reader
import MetaQuery.Request.RowCheck
import MetaQuery.Text.Utf8
import MetaQuery.Address
import MetaQuery.Session.State
import MetaQuery.Session.Tables
import MetaQuery.Session.Metadata
import MetaQuery.Session.Connection
import MetaQuery.Service.Answer
import MetaQuery.Service.Templates
import MetaQuery.Service.Rows
import MetaQuery.Service.Trees
import MetaQuery.Service.MasterDetail
import MetaQuery.Proofs.Query.Mask
import MetaQuery.Proofs.Query.Independence
import MetaQuery.Proofs.Query.Placeholders
import MetaQuery.Proofs.Session.Journal
import MetaQuery.Proofs.Session.Reading
import MetaQuery.Proofs.Session.Transaction
import MetaQuery.Proofs.Session.Effect
import MetaQuery.Proofs.Service.Atomicity
import MetaQuery.Proofs.Session.Consultation
import MetaQuery.Proofs.Session.Bracket
import MetaQuery.Proofs.Service.Transactions
import MetaQuery.Proofs.Tree.Table
import MetaQuery.Proofs.Tree.Walk
import MetaQuery.Proofs.Tree.Subtree
import MetaQuery.Proofs.Tree.Missing
import MetaQuery.Proofs.Tree.Climb
import MetaQuery.Proofs.Tree.Moving
import MetaQuery.Proofs.Chain.Formula
import MetaQuery.Proofs.Chain.Wording
import MetaQuery.Proofs.Service.Sending
import MetaQuery.Proofs.Query.Composition
import MetaQuery.Proofs.Chain.Filters
import MetaQuery.Proofs.Chain.Key
import MetaQuery.Proofs.Raw.Renumbering
import MetaQuery.Proofs.Query.Frames
import MetaQuery.Proofs.Service.Checked
import MetaQuery.Proofs.Raw.Woven
import MetaQuery.Proofs.Decimal.Parts
import MetaQuery.Proofs.Decimal.Whole
import MetaQuery.Proofs.Query.Weaving
import MetaQuery.Proofs.Chain.Quoting
import MetaQuery.Proofs.Chain.Reach
import MetaQuery.Proofs.Tree.Spelling
import MetaQuery.Proofs.Tree.Adding
import MetaQuery.Proofs.Tree.Nesting
import MetaQuery.Proofs.Tree.Records
import MetaQuery.Proofs.Tree.MovedPlaces
import MetaQuery.Proofs.Tree.Rooted
import MetaQuery.Proofs.Tree.Orphans
import MetaQuery.Proofs.Store.Serving
import MetaQuery.Proofs.Store.Loading
import MetaQuery.Proofs.Store.Importing
import MetaQuery.Proofs.Store.Agreement
import MetaQuery.Proofs.Store.Shelf
import MetaQuery.Proofs.Store.Edits
import MetaQuery.Proofs.Session.Memory
import MetaQuery.Proofs.Catalog.Addressing
import MetaQuery.Proofs.Service.Rendering
import MetaQuery.Proofs.Store.Interruption
import MetaQuery.Proofs.Query.Fetching
import MetaQuery.Proofs.Tree.Whole
import MetaQuery.Proofs.Tree.Shown
import MetaQuery.Proofs.Raw.Accepted
import MetaQuery.Proofs.Raw.Literal
import MetaQuery.Proofs.Raw.Segment
import MetaQuery.Proofs.Raw.Unterminated
import MetaQuery.Proofs.Raw.Parentheses
import MetaQuery.Proofs.Raw.Comment
import MetaQuery.Proofs.Raw.Mild
import MetaQuery.Proofs.Query.Simple
import MetaQuery.Proofs.Tree.Partition
import MetaQuery.Proofs.Query.JoinOrder
import MetaQuery.Proofs.Query.Inserting
import MetaQuery.Proofs.Decimal.Integers
import MetaQuery.Proofs.Chain.Arrays
import MetaQuery.Proofs.Tree.WayUp
import MetaQuery.Proofs.Catalog.Types
import MetaQuery.Proofs.Query.Paging
import MetaQuery.Proofs.Service.Pages
import MetaQuery.Proofs.Tree.Ceiling
import MetaQuery.Proofs.Query.Names
import MetaQuery.Proofs.Service.Totals
import MetaQuery.Proofs.Query.Columns
import MetaQuery.Proofs.Request.Partial
import MetaQuery.Proofs.Decimal.Comparison
import MetaQuery.Proofs.Decimal.Rounding
import MetaQuery.Proofs.Request.Ranges
import MetaQuery.Proofs.Query.Updating
import MetaQuery.Proofs.Decimal.Readers
import MetaQuery.Proofs.Request.Numbers
import MetaQuery.Proofs.Service.Defaults
import MetaQuery.Proofs.Store.Failing
import MetaQuery.Proofs.Service.DefaultStops
import MetaQuery.Proofs.Session.Keeping
import MetaQuery.Proofs.Service.Keeping
import MetaQuery.Proofs.Service.Dialects
import MetaQuery.Proofs.Query.Stamping
import MetaQuery.Proofs.Service.Details
import MetaQuery.Proofs.Address.Credentials
import MetaQuery.Proofs.Record.Changes
import MetaQuery.Proofs.Query.OutputNames
import MetaQuery.Proofs.Service.Copies
import MetaQuery.Proofs.Tree.Levels
import MetaQuery.Proofs.Query.Assembly
import MetaQuery.Proofs.Raw.Quotes
import MetaQuery.Proofs.Raw.Scanner
import MetaQuery.Proofs.Tree.KeyTexts
