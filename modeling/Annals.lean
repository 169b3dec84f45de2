import Annals.Config.Basic
import Annals.Config.Reader
import Annals.Database.Basic
import Annals.Database.Cell
import Annals.Database.Changes
import Annals.Database.Connection
import Annals.Database.Numeral
import Annals.Database.Results
import Annals.Failure
import Annals.Identifier
import Annals.Json.Basic
import Annals.Json.Codec
import Annals.Json.Lookup
import Annals.Json.Printer
import Annals.Json.Reader
import Annals.Log
import Annals.Number.Binary64
import Annals.Number.Bounded
import Annals.Number.Extended
import Annals.Number.Fifteen
import Annals.Number.Grid
import Annals.Number.Shortest
import Annals.Proofs.Acceptance
import Annals.Proofs.Additions
import Annals.Proofs.Advances
import Annals.Proofs.Agreement
import Annals.Proofs.Assignment
import Annals.Proofs.Backing
import Annals.Proofs.Batches
import Annals.Proofs.Boundaries
import Annals.Proofs.Changes
import Annals.Proofs.Chronicles
import Annals.Proofs.Codecs
import Annals.Proofs.Collections
import Annals.Proofs.Collisions
import Annals.Proofs.Dates
import Annals.Proofs.Decoding
import Annals.Proofs.Deletions
import Annals.Proofs.Delivery
import Annals.Proofs.Documents
import Annals.Proofs.Draws
import Annals.Proofs.Execution
import Annals.Proofs.Faithfulness
import Annals.Proofs.Families
import Annals.Proofs.Faultless
import Annals.Proofs.Faults
import Annals.Proofs.Fields
import Annals.Proofs.Grouping
import Annals.Proofs.Histories
import Annals.Proofs.Instants
import Annals.Proofs.Integrity
import Annals.Proofs.Iteration
import Annals.Proofs.Lineage
import Annals.Proofs.Loading
import Annals.Proofs.Lookahead
import Annals.Proofs.Lookups
import Annals.Proofs.Membership
import Annals.Proofs.Merging
import Annals.Proofs.Numerals
import Annals.Proofs.Objects
import Annals.Proofs.Outcomes
import Annals.Proofs.Ownership
import Annals.Proofs.Parallels
import Annals.Proofs.Parameters
import Annals.Proofs.Placeholders
import Annals.Proofs.Plans
import Annals.Proofs.Programs
import Annals.Proofs.Provenance
import Annals.Proofs.Reachable
import Annals.Proofs.Readers
import Annals.Proofs.Readings
import Annals.Proofs.Rearrangement
import Annals.Proofs.Relocation
import Annals.Proofs.Rereading
import Annals.Proofs.Rows
import Annals.Proofs.Runs
import Annals.Proofs.Scripts
import Annals.Proofs.Secrecy
import Annals.Proofs.Series
import Annals.Proofs.Slots
import Annals.Proofs.Survival
import Annals.Proofs.Texts
import Annals.Proofs.Timestamps
import Annals.Proofs.Tracing
import Annals.Proofs.Transactions
import Annals.Proofs.Wholeness
import Annals.Proofs.Windows
import Annals.Proofs.Writes
import Annals.Record.Basic
import Annals.Record.Branch
import Annals.Record.Commit
import Annals.Record.Identity
import Annals.Record.Json
import Annals.Record.Layout
import Annals.Redacted
import Annals.Script.Basic
import Annals.Script.Deeds
import Annals.Script.Reader
import Annals.Script.Run
import Annals.Session.Basic
import Annals.Session.Canned
import Annals.Session.Scripted
import Annals.Sql.Dialect
import Annals.Sql.Lookup
import Annals.Sql.Row
import Annals.Sql.Statement
import Annals.Sql.Table
import Annals.Store.Adapter
import Annals.Store.Basic
import Annals.Store.Branches
import Annals.Store.Commits
import Annals.Store.Identities
import Annals.Store.Opening
import Annals.Store.Scan
import Annals.Store.Transaction
import Annals.Stream.Basic
import Annals.Stream.Cursor
import Annals.Stream.Groups
import Annals.Stream.Reading
import Annals.Stream.Rows
import Annals.Text.Blank
import Annals.Text.Digits
import Annals.Text.Hex
import Annals.Text.Quoted
import Annals.Text.Shapeless
import Annals.Text.Utf8
import Annals.Time.Calendar
import Annals.Time.Instant
import Annals.Time.Rfc3339
import Annals.Toml.Basic
import Annals.Toml.Reader
