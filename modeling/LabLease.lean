import LabLease.Text
import LabLease.Text.Utf8
import LabLease.KeyMap
import LabLease.Decimal
import LabLease.Binary
import LabLease.Binary.Decimal
import LabLease.Time
import LabLease.Lease
import LabLease.Exporter
import LabLease.Failure.Flaw
import LabLease.Failure.Fault
import LabLease.Failure
import LabLease.Selector
import LabLease.Registry
import LabLease.Json
import LabLease.Json.Quoted
import LabLease.Json.Numeral
import LabLease.Json.Real
import LabLease.Json.Writer
import LabLease.Json.Reader
import LabLease.Json.Record
import LabLease.Settings
import LabLease.Document
import LabLease.Inventory
import LabLease.Store
import LabLease.Store.Cell
import LabLease.Store.Table
import LabLease.Store.FileName
import LabLease.Store.FileContent
import LabLease.Store.FirstPage
import LabLease.Store.DatabaseFiles
import LabLease.Store.Location
import LabLease.Store.Opening
import LabLease.Store.TableFile
import LabLease.Store.Rehearsal
import LabLease.Ledger
import LabLease.Watch
import LabLease.Broker
import LabLease.Command
import LabLease.Command.Answer
import LabLease.Command.Run
import LabLease.Command.Level
import LabLease.Command.Line
import LabLease.Command.Folder
import LabLease.Main
import LabLease.Proofs.Failure.Steps
import LabLease.Proofs.Text.ByteOrder
import LabLease.Proofs.Text.Trimming
import LabLease.Proofs.Selector.Grammar
import LabLease.Proofs.Selector.Spelling
import LabLease.Proofs.Json.Reading
import LabLease.Proofs.Lease.Shown
import LabLease.Proofs.Settings.Bounds
import LabLease.Proofs.Store.Taking
import LabLease.Proofs.Store.Keeping
import LabLease.Proofs.Store.Table
import LabLease.Proofs.Store.Saving
import LabLease.Proofs.Store.Leaving
import LabLease.Proofs.Ledger.Positions
import LabLease.Proofs.Ledger.Consistent
import LabLease.Proofs.Ledger.Loading
import LabLease.Proofs.Store.Reading
import LabLease.Proofs.Ledger.Outcome
import LabLease.Proofs.Ledger.Write
import LabLease.Proofs.Ledger.Run
import LabLease.Proofs.Ledger.History
import LabLease.Proofs.Ledger.Claim
import LabLease.Proofs.Ledger.Term
import LabLease.Proofs.Ledger.Sweeping
import LabLease.Proofs.Ledger.Release
import LabLease.Proofs.Ledger.Pass
import LabLease.Proofs.Ledger.Separation
import LabLease.Proofs.Ledger.Reload
import LabLease.Proofs.Ledger.Restart
import LabLease.Proofs.Watch.Timetable
import LabLease.Proofs.Watch.Task
import LabLease.Proofs.Watch.Schedule
import LabLease.Proofs.Broker.Choice
import LabLease.Proofs.Broker.Reachable
import LabLease.Proofs.Broker.Allocation
import LabLease.Proofs.Broker.FailedAllocation
import LabLease.Proofs.Broker.Deadline
import LabLease.Proofs.Broker.Records
import LabLease.Proofs.Broker.Refinement
import LabLease.Proofs.Broker.Service
import LabLease.Proofs.Broker.Thinning
import LabLease.Proofs.Broker.Reopening
import LabLease.Proofs.Broker.Reports
import LabLease.Proofs.Broker.Bookings
import LabLease.Proofs.Broker.Listing
import LabLease.Proofs.Broker.ListingOrder
import LabLease.Proofs.Registry.History
import LabLease.Proofs.Broker.Views
import LabLease.Proofs.Broker.Sharing
import LabLease.Proofs.Broker.Persistence
import LabLease.Proofs.Command.Documents
import LabLease.Proofs.Document.ReadBack
import LabLease.Proofs.Command.Envelope
import LabLease.Proofs.Command.Minutes
