import Chronicle.Contract.Events
import Chronicle.Contract.ReadModels
import Chronicle.Filter.Document
import Chronicle.Registry.Fault
import Chronicle.Registry.Files
import Chronicle.Request.Backends
import Chronicle.Request.Queries
import Chronicle.Service.Events
import Chronicle.Service.ReadModels
import Chronicle.Proofs.Index
import Chronicle.Proofs.Ledger
import Chronicle.Proofs.LedgerHistory
import Chronicle.Proofs.ReadModelVersions
import Chronicle.Proofs.Spelling
import Chronicle.Proofs.UniqueId
import Chronicle.Proofs.Lines
import Chronicle.Proofs.Directory
import Chronicle.Proofs.EventArchive
import Chronicle.Proofs.EnvelopeLines
import Chronicle.Proofs.Reopening
import Chronicle.Proofs.EventRequests
import Chronicle.Proofs.Rollback
import Chronicle.Proofs.EventSession
import Chronicle.Proofs.LiteralPatterns
import Chronicle.Proofs.FilterForms
import Chronicle.Proofs.PrefixedCombinators
import Chronicle.Proofs.Frames
import Chronicle.Proofs.Isolation
import Chronicle.Proofs.Numerals
import Chronicle.Proofs.Calendar
import Chronicle.Proofs.TimestampText
import Chronicle.Proofs.JsonReading
import Chronicle.Proofs.RecordLines
import Chronicle.Proofs.CollectionFiles
import Chronicle.Proofs.StableSort
import Chronicle.Proofs.ReadModelQueries
import Chronicle.Proofs.ReadModelSession
import Chronicle.Proofs.Journal
import Chronicle.Proofs.EventLog
import Chronicle.Proofs.CreationOrder
import Chronicle.Proofs.Pages
import Chronicle.Proofs.ReadModelPages
import Chronicle.Proofs.ExpectedVersions
import Chronicle.Proofs.Replacement
import Chronicle.Proofs.Selection
import Chronicle.Proofs.Clients
import Chronicle.Proofs.Pile
import Chronicle.Proofs.EventContract
import Chronicle.Proofs.ReadModelContract
import Chronicle.Proofs.Contract
import Chronicle.Proofs.StringOperators
import Chronicle.Proofs.Rounding
import Chronicle.Proofs.ValueOrder
import Chronicle.Proofs.Appending
import Chronicle.Proofs.Resumption
import Chronicle.Proofs.Locations
import Chronicle.Proofs.Fragments
import Chronicle.Proofs.Projections
import Chronicle.Proofs.Provenance
import Chronicle.Proofs.TimestampOrder
import Chronicle.Proofs.EventDeletion
import Chronicle.Proofs.EntityPages
import Chronicle.Proofs.EventArrangement
import Chronicle.Proofs.PageProgress
import Chronicle.Proofs.DocumentOrder
import Chronicle.Proofs.DottedKeys
import Chronicle.Proofs.ValueEquality
import Chronicle.Proofs.FilterEquality
import Chronicle.Proofs.RespelledNumbers
import Chronicle.Proofs.UniqueKeys
import Chronicle.Proofs.PathText
import Chronicle.Proofs.IndexChanges
import Chronicle.Proofs.Comparisons
