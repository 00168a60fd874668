import CustomerDedupe.Action
import CustomerDedupe.Calendar.Date
import CustomerDedupe.Calendar.Instant
import CustomerDedupe.Calendar.Reading
import CustomerDedupe.CommandLine.Basic
import CustomerDedupe.CommandLine.Reader
import CustomerDedupe.Config.Basic
import CustomerDedupe.Config.Environment
import CustomerDedupe.Customer.Basic
import CustomerDedupe.Customer.Remote
import CustomerDedupe.Customer.Row
import CustomerDedupe.Customer.Status
import CustomerDedupe.Customer.Store
import CustomerDedupe.Duplicates.Buckets
import CustomerDedupe.Duplicates.Group
import CustomerDedupe.Duplicates.Keys
import CustomerDedupe.Duplicates.Merge
import CustomerDedupe.Duplicates.Scan
import CustomerDedupe.Duplicates.Score
import CustomerDedupe.Duplicates.Service
import CustomerDedupe.Failure
import CustomerDedupe.Json.Decode
import CustomerDedupe.Json.Load
import CustomerDedupe.Json.Outline
import CustomerDedupe.Json.Reader
import CustomerDedupe.Json.Value
import CustomerDedupe.Log.Filter
import CustomerDedupe.Log.Logger
import CustomerDedupe.Main
import CustomerDedupe.Monitor.Evaluation
import CustomerDedupe.Monitor.Loop
import CustomerDedupe.Notification.Basic
import CustomerDedupe.Notification.Cache
import CustomerDedupe.Notification.Feed
import CustomerDedupe.Notification.Realtime
import CustomerDedupe.Number.Binary64
import CustomerDedupe.Number.Decimal
import CustomerDedupe.Number.Total
import CustomerDedupe.Program
import CustomerDedupe.Rest.Client
import CustomerDedupe.Rest.Conversation
import CustomerDedupe.Rest.Request
import CustomerDedupe.Rest.Script
import CustomerDedupe.Rest.Wire
import CustomerDedupe.Settings.Basic
import CustomerDedupe.Settings.CompareField
import CustomerDedupe.Settings.Hub
import CustomerDedupe.Text.Blank
import CustomerDedupe.Text.CaseTable
import CustomerDedupe.Text.EditDistance
import CustomerDedupe.Text.Lowercase
import CustomerDedupe.Text.Numeral
import CustomerDedupe.Text.Quoted
import CustomerDedupe.Text.Split
import CustomerDedupe.Text.Utf8
import CustomerDedupe.Text.VisibleTable
import CustomerDedupe.Toml.Lexical
import CustomerDedupe.Toml.Reader
import CustomerDedupe.Toml.Value
import CustomerDedupe.Url.Basic
import CustomerDedupe.Url.Host
import CustomerDedupe.Url.Percent
import CustomerDedupe.Url.Punycode
import CustomerDedupe.Uuid
import CustomerDedupe.Validation
import CustomerDedupe.Proofs.Duplicates.Buckets
import CustomerDedupe.Proofs.Order.Stable
import CustomerDedupe.Proofs.Duplicates.NewestFirst
import CustomerDedupe.Proofs.Duplicates.Groups
import CustomerDedupe.Proofs.Action
import CustomerDedupe.Proofs.Duplicates.Find
import CustomerDedupe.Proofs.Duplicates.ExactGroups
import CustomerDedupe.Proofs.Duplicates.FuzzyGroups
import CustomerDedupe.Proofs.Duplicates.SharedKey
import CustomerDedupe.Proofs.Customer.Table
import CustomerDedupe.Proofs.Duplicates.DistinctIds
import CustomerDedupe.Proofs.Duplicates.MergeTable
import CustomerDedupe.Proofs.Text.Blank
import CustomerDedupe.Proofs.Text.Lowercase
import CustomerDedupe.Proofs.Duplicates.Notes
import CustomerDedupe.Proofs.Duplicates.MergeAgain
import CustomerDedupe.Proofs.Duplicates.CoveredGroups
import CustomerDedupe.Proofs.Duplicates.RowOrder
import CustomerDedupe.Proofs.Duplicates.Resolved
import CustomerDedupe.Proofs.Rest.Recorded
import CustomerDedupe.Proofs.Duplicates.MergeOnServer
import CustomerDedupe.Proofs.Duplicates.RankedGroups
import CustomerDedupe.Proofs.Duplicates.WiderWindow
import CustomerDedupe.Proofs.Customer.FallibleStore
import CustomerDedupe.Proofs.Duplicates.FailingMerge
import CustomerDedupe.Proofs.Monitor.Recorded
import CustomerDedupe.Proofs.Monitor.Course
import CustomerDedupe.Proofs.Monitor.Steady
import CustomerDedupe.Proofs.Monitor.Passage
import CustomerDedupe.Proofs.Monitor.History
import CustomerDedupe.Proofs.Monitor.Kept
import CustomerDedupe.Proofs.Monitor.Unlogged
import CustomerDedupe.Proofs.Monitor.LastCount
import CustomerDedupe.Proofs.Monitor.FoundCount
import CustomerDedupe.Proofs.Monitor.RunState
import CustomerDedupe.Proofs.Monitor.Interleaving
import CustomerDedupe.Proofs.Monitor.Heeded
import CustomerDedupe.Proofs.Monitor.Parts
import CustomerDedupe.Proofs.Monitor.Schedule
import CustomerDedupe.Proofs.Monitor.Timeline
import CustomerDedupe.Proofs.Notification.Announced
import CustomerDedupe.Proofs.Calendar.Spelling
import CustomerDedupe.Proofs.Json.Written
import CustomerDedupe.Proofs.Notification.Written
import CustomerDedupe.Proofs.Notification.Server
import CustomerDedupe.Proofs.Notification.Mirror
import CustomerDedupe.Proofs.Notification.Changes
import CustomerDedupe.Proofs.Notification.Delivery
import CustomerDedupe.Proofs.Notification.Faithful
import CustomerDedupe.Proofs.Notification.Moves
import CustomerDedupe.Proofs.Notification.Isolation
import CustomerDedupe.Proofs.Notification.UnreadCount
import CustomerDedupe.Proofs.Calendar.DateSpelling
import CustomerDedupe.Proofs.Number.Decimal
import CustomerDedupe.Proofs.Customer.Written
import CustomerDedupe.Proofs.Rest.ReadBack
import CustomerDedupe.Proofs.Notification.MarkedRow
import CustomerDedupe.Proofs.Calendar.SignedYear
import CustomerDedupe.Proofs.Rest.Logged
import CustomerDedupe.Proofs.Notification.Marking
import CustomerDedupe.Proofs.Notification.ReadMessages
import CustomerDedupe.Proofs.Notification.Failing
import CustomerDedupe.Proofs.Duplicates.FilledFields
import CustomerDedupe.Proofs.Duplicates.FirstNotes
import CustomerDedupe.Proofs.Number.Rounding
import CustomerDedupe.Proofs.Number.Total
import CustomerDedupe.Proofs.Settings.Accepted
import CustomerDedupe.Proofs.Duplicates.ScoreParts
import CustomerDedupe.Proofs.Number.Word32
import CustomerDedupe.Proofs.Duplicates.ScoreBounds
import CustomerDedupe.Proofs.Duplicates.FullAgreement
import CustomerDedupe.Proofs.Duplicates.CheckedScore
import CustomerDedupe.Proofs.Duplicates.ReferencePlace
import CustomerDedupe.Proofs.Duplicates.MemberOrder
import CustomerDedupe.Proofs.Text.Edits
import CustomerDedupe.Proofs.Text.EditDistance
import CustomerDedupe.Proofs.Duplicates.MoreAgreement
import CustomerDedupe.Proofs.Duplicates.RelativeWeights
import CustomerDedupe.Proofs.Duplicates.NumberSpelling
import CustomerDedupe.Proofs.Config.Substitution
import CustomerDedupe.Proofs.Toml.Reads
import CustomerDedupe.Proofs.Toml.Words
import CustomerDedupe.Proofs.Toml.Values
import CustomerDedupe.Proofs.Toml.Lines
import CustomerDedupe.Proofs.Toml.Differing
import CustomerDedupe.Proofs.Toml.Place
import CustomerDedupe.Proofs.Config.Secret
import CustomerDedupe.Proofs.Config.Accepted
import CustomerDedupe.Proofs.Url.LongerPath
import CustomerDedupe.Proofs.Url.Form
import CustomerDedupe.Proofs.Rest.Endpoint
import CustomerDedupe.Proofs.Rest.Overheard
import CustomerDedupe.Proofs.Settings.FieldChanges
import CustomerDedupe.Proofs.Duplicates.GroupOnServer
import CustomerDedupe.Proofs.Calendar.ColumnSpelling
import CustomerDedupe.Proofs.Settings.Overlay
import CustomerDedupe.Proofs.Duplicates.SimilarNames
import CustomerDedupe.Proofs.Customer.ContactRequests
import CustomerDedupe.Duplicates.Score32
import CustomerDedupe.Proofs.Duplicates.Score32
