import DocStore.Cache.Recorder
import DocStore.Message.Errors
import DocStore.Message.Schemas
import DocStore.Samples.Catalog
import DocStore.Samples.Named
import DocStore.Service
import DocStore.Proofs.Assoc
import DocStore.Proofs.Except
import DocStore.Proofs.Guid
import DocStore.Proofs.DocId
import DocStore.Proofs.Payload
import DocStore.Proofs.Text.Decimal
import DocStore.Proofs.Sql.Truth
import DocStore.Proofs.Sql.Token
import DocStore.Proofs.Sql.Text
import DocStore.Proofs.Sql.Tables
import DocStore.Proofs.Schema.Members
import DocStore.Proofs.Schema.Built
import DocStore.Proofs.Query.Holds
import DocStore.Proofs.Query.Condition
import DocStore.Proofs.Query.Checked
import DocStore.Proofs.Query.Typing
import DocStore.Proofs.Query.Ordering
import DocStore.Proofs.Query.Answer
import DocStore.Proofs.Query.Alike
import DocStore.Proofs.Query.Placeholders
import DocStore.Proofs.Query.Over
import DocStore.Proofs.Query.OwnRows
import DocStore.Proofs.Cache.Entry
import DocStore.Proofs.Cache.Provider
import DocStore.Proofs.Cache.Reading
import DocStore.Proofs.Cache.WriteBack
import DocStore.Proofs.Cache.Keeping
import DocStore.Proofs.Cache.OneEntry
import DocStore.Proofs.Cache.Held
import DocStore.Proofs.Cache.Fetching
import DocStore.Proofs.Cache.Batch
import DocStore.Proofs.Store.Sets
import DocStore.Proofs.Store.Contents
import DocStore.Proofs.Store.Outcomes
import DocStore.Proofs.Store.Writes
import DocStore.Proofs.Store.Shapes
import DocStore.Proofs.Store.Atomic
import DocStore.Proofs.Store.Identities
import DocStore.Proofs.Store.InStep
import DocStore.Proofs.Store.Recorded
import DocStore.Proofs.Session.Texts
import DocStore.Proofs.Session.Prepared
import DocStore.Proofs.Session.Identities
import DocStore.Proofs.Database
import DocStore.Proofs.Service
import DocStore.Proofs.Session.Kept
import DocStore.Proofs.Session.Disposed
import DocStore.Proofs.Coherence.Database
import DocStore.Proofs.Coherence.Session
import DocStore.Proofs.Coherence.Service
import DocStore.Proofs.Documents.Database
import DocStore.Proofs.Documents.Session
import DocStore.Proofs.Documents.Service
import DocStore.Proofs.Recorded.Database
import DocStore.Proofs.Recorded.Service
import DocStore.Proofs.Spared.Database
import DocStore.Proofs.Spared.Service
import DocStore.Proofs.Store.Beside
import DocStore.Proofs.Store.Separation
import DocStore.Proofs.Store.EverySet
import DocStore.Proofs.Store.NewDatabase
import DocStore.Proofs.Store.History
import DocStore.Proofs.Store.Uniqueness
import DocStore.Proofs.Store.StaleRows
import DocStore.Proofs.Session.Serialized
import DocStore.Proofs.Store.Selected
import DocStore.Proofs.Session.Selected
import DocStore.Proofs.Store.Legible
import DocStore.Proofs.Legible.Database
import DocStore.Proofs.Store.Closed
import DocStore.Proofs.Schema.Registered
import DocStore.Proofs.Session.Inserted
import DocStore.Proofs.Legible.Service
import DocStore.Proofs.Schema.Entries
import DocStore.Proofs.Session.Batch
import DocStore.Proofs.Recorded.Batch
import DocStore.Proofs.DocId.Encodings
import DocStore.Proofs.DocId.Order
import DocStore.Proofs.Store.Intervals
import DocStore.Proofs.Time.Calendar
import DocStore.Proofs.Time.ColumnText
import DocStore.Proofs.Query.OneValue
import DocStore.Proofs.Schema.Values
import DocStore.Proofs.Store.OneValue
import DocStore.Proofs.Query.Sought
import DocStore.Proofs.Sql.Compared
import DocStore.Proofs.Query.Renaming
import DocStore.Proofs.Schema.Reached
import DocStore.Proofs.Schema.Fingerprint
import DocStore.Proofs.Cache.Registration
import DocStore.Proofs.Cache.Clearing
import DocStore.Proofs.Sql.Numbers
import DocStore.Proofs.Store.Chunks
import DocStore.Proofs.Session.Stopped
import DocStore.Proofs.Cache.Failures
import DocStore.Proofs.Cache.ItemByItem
import DocStore.Proofs.Sql.Selects
import DocStore.Proofs.Query.Labels
