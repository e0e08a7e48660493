import DoubleEntry.Text.Ranges
import DoubleEntry.Text.Blank
import DoubleEntry.Text.Hex
import DoubleEntry.Text.Unprintable
import DoubleEntry.Text.Quoted
import DoubleEntry.Decimal.Binary
import DoubleEntry.Decimal.Shortest
import DoubleEntry.Decimal.Numeral
import DoubleEntry.Ident.Basic
import DoubleEntry.Ident.Spelling
import DoubleEntry.Commodity.Basic
import DoubleEntry.Commodity.Candidate
import DoubleEntry.Scalar
import DoubleEntry.Fault
import DoubleEntry.Notice
import DoubleEntry.Enforcement
import DoubleEntry.Reconcile
import DoubleEntry.Instant.Calendar
import DoubleEntry.Instant.Basic
import DoubleEntry.Instant.Text
import DoubleEntry.Json.Value
import DoubleEntry.Json.Number
import DoubleEntry.Json.Printer
import DoubleEntry.Json.Reader
import DoubleEntry.Wire.Basic
import DoubleEntry.Journal.Record
import DoubleEntry.Wire.Record
import DoubleEntry.Journal.Basic
import DoubleEntry.Journal.Lines
import DoubleEntry.Table
import DoubleEntry.RunningBalance
import DoubleEntry.Wire.RunningBalance
import DoubleEntry.Split
import DoubleEntry.Transaction
import DoubleEntry.Order
import DoubleEntry.Register
import DoubleEntry.Book
import DoubleEntry.Ledger.Basic
import DoubleEntry.Ledger.Action
import DoubleEntry.Ledger.Valuation
import DoubleEntry.Ledger.Guard
import DoubleEntry.Ledger.Rebalance
import DoubleEntry.Ledger.Edit
import DoubleEntry.Ledger.Membership
import DoubleEntry.Ledger.EditSession
import DoubleEntry.Ledger.Relations
import DoubleEntry.Ledger.Command
import DoubleEntry.Proofs.Action
import DoubleEntry.Proofs.Links
import DoubleEntry.Proofs.Views
import DoubleEntry.Proofs.Relinking
import DoubleEntry.Proofs.Reachable
import DoubleEntry.Proofs.Settling
import DoubleEntry.Proofs.Moving
import DoubleEntry.Proofs.Pairing
import DoubleEntry.Proofs.Preserving
import DoubleEntry.Proofs.Ownership
import DoubleEntry.Proofs.Running
import DoubleEntry.Proofs.Shelter
import DoubleEntry.Proofs.Locality
import DoubleEntry.Proofs.Sealed
import DoubleEntry.Proofs.ScalarLaws
import DoubleEntry.Proofs.Counterpart
import DoubleEntry.Proofs.Membership
import DoubleEntry.Proofs.Reach
import DoubleEntry.Proofs.Noted
import DoubleEntry.Proofs.Marking
import DoubleEntry.Proofs.Valuing
import DoubleEntry.Proofs.Narrowing
import DoubleEntry.Proofs.References
import DoubleEntry.Proofs.Undamaged
import DoubleEntry.Proofs.Figures
import DoubleEntry.Proofs.Overflow
import DoubleEntry.Proofs.Balance
import DoubleEntry.Proofs.Commit
import DoubleEntry.Proofs.Concordance
import DoubleEntry.Proofs.Atomicity
import DoubleEntry.Proofs.Synthesis
import DoubleEntry.Proofs.Idempotence
import DoubleEntry.Proofs.Appending
import DoubleEntry.Proofs.Rejections
import DoubleEntry.Proofs.Intersection
import DoubleEntry.Proofs.Reporting
import DoubleEntry.Proofs.Tallies
import DoubleEntry.Proofs.Deferral
import DoubleEntry.Proofs.Ranking
import DoubleEntry.Proofs.Placing
import DoubleEntry.Proofs.Tidy
import DoubleEntry.Proofs.Shelving
import DoubleEntry.Proofs.Closing
import DoubleEntry.Proofs.Upkeep.Rebalance
import DoubleEntry.Proofs.Upkeep.Edit
import DoubleEntry.Proofs.Upkeep.Membership
import DoubleEntry.Proofs.Upkeep.Session
import DoubleEntry.Proofs.AtRest
import DoubleEntry.Proofs.Numerals
import DoubleEntry.Proofs.JsonText
import DoubleEntry.Proofs.Calendar
import DoubleEntry.Proofs.Spellings
import DoubleEntry.Proofs.WireForm
import DoubleEntry.Proofs.LineLog
import DoubleEntry.Proofs.Refusals
import DoubleEntry.Proofs.Unrecorded
import DoubleEntry.Proofs.Chronicle
import DoubleEntry.Proofs.Turning
import DoubleEntry.Proofs.Recorded
import DoubleEntry.Proofs.MemoryJournal
import DoubleEntry.Proofs.Slips
import DoubleEntry.Proofs.Freshness
import DoubleEntry.Proofs.Destroying
import DoubleEntry.Proofs.Recomputed
import DoubleEntry.Proofs.Retained
import DoubleEntry.Proofs.Redating
import DoubleEntry.Proofs.Sorting
import DoubleEntry.Proofs.Survivors
import DoubleEntry.Proofs.Expressing
import DoubleEntry.Proofs.Restoring
import DoubleEntry.Proofs.Ungated
import DoubleEntry.Proofs.Standing
import DoubleEntry.Proofs.Grammar
import DoubleEntry.Proofs.Posting
import DoubleEntry.Proofs.Rounding
import DoubleEntry.Proofs.Doubles
import DoubleEntry.Proofs.Fewest
import DoubleEntry.Proofs.Significand
import DoubleEntry.Proofs.Closeness
import DoubleEntry.Proofs.Scaling
import DoubleEntry.Proofs.Rereading
