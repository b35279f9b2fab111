import LeaseCatalog.Command.Arguments
import LeaseCatalog.Command.Document
import LeaseCatalog.Command.Host
import LeaseCatalog.Command.Run
import LeaseCatalog.Command.Serve
import LeaseCatalog.Config.Fault
import LeaseCatalog.Config.Layer
import LeaseCatalog.Config.Load
import LeaseCatalog.Config.Settings
import LeaseCatalog.Config.Variable
import LeaseCatalog.Decimal.Binary64
import LeaseCatalog.Decimal.Digits
import LeaseCatalog.Decimal.Shortest
import LeaseCatalog.Error
import LeaseCatalog.Json.Number
import LeaseCatalog.Json.Printer
import LeaseCatalog.Json.Syntax
import LeaseCatalog.Json.Token
import LeaseCatalog.Json.Value
import LeaseCatalog.Key
import LeaseCatalog.Main
import LeaseCatalog.Manager.Basic
import LeaseCatalog.Manager.Call
import LeaseCatalog.Manager.Concurrent
import LeaseCatalog.Manager.Counters
import LeaseCatalog.Manager.Operations
import LeaseCatalog.Manager.Script
import LeaseCatalog.Proofs.AcceptedTimings
import LeaseCatalog.Proofs.Agreement
import LeaseCatalog.Proofs.AlikeTrees
import LeaseCatalog.Proofs.Attempts
import LeaseCatalog.Proofs.Calendar
import LeaseCatalog.Proofs.Calls
import LeaseCatalog.Proofs.CanonicalValues
import LeaseCatalog.Proofs.Configuration
import LeaseCatalog.Proofs.Contending
import LeaseCatalog.Proofs.Courses
import LeaseCatalog.Proofs.Damage
import LeaseCatalog.Proofs.Deliveries
import LeaseCatalog.Proofs.Dialects
import LeaseCatalog.Proofs.Effects
import LeaseCatalog.Proofs.EndedCalls
import LeaseCatalog.Proofs.Exchanges
import LeaseCatalog.Proofs.Exclusion
import LeaseCatalog.Proofs.FailedCalls
import LeaseCatalog.Proofs.Finished
import LeaseCatalog.Proofs.Heartbeats
import LeaseCatalog.Proofs.History
import LeaseCatalog.Proofs.Instants
import LeaseCatalog.Proofs.LeaseMap
import LeaseCatalog.Proofs.Limits
import LeaseCatalog.Proofs.MovedClocks
import LeaseCatalog.Proofs.Observations
import LeaseCatalog.Proofs.OpenKeys
import LeaseCatalog.Proofs.OtherKeys
import LeaseCatalog.Proofs.Outcomes
import LeaseCatalog.Proofs.PrintedLeases
import LeaseCatalog.Proofs.PrintedTokens
import LeaseCatalog.Proofs.Promises
import LeaseCatalog.Proofs.Race
import LeaseCatalog.Proofs.ReachableRows
import LeaseCatalog.Proofs.ReadTrees
import LeaseCatalog.Proofs.Releases
import LeaseCatalog.Proofs.RowOfKey
import LeaseCatalog.Proofs.Rows
import LeaseCatalog.Proofs.StoredLeases
import LeaseCatalog.Proofs.StoredMetadata
import LeaseCatalog.Proofs.StoredTexts
import LeaseCatalog.Proofs.Swaps
import LeaseCatalog.Proofs.Tagging
import LeaseCatalog.Proofs.Timestamps
import LeaseCatalog.Proofs.Turns
import LeaseCatalog.Reservation
import LeaseCatalog.Session
import LeaseCatalog.Store.Access
import LeaseCatalog.Store.Address
import LeaseCatalog.Store.Connection
import LeaseCatalog.Store.Dialect
import LeaseCatalog.Store.Edit
import LeaseCatalog.Store.Failure
import LeaseCatalog.Store.FileUri
import LeaseCatalog.Store.Leases
import LeaseCatalog.Store.Listing
import LeaseCatalog.Store.Request
import LeaseCatalog.Store.Tables
import LeaseCatalog.Store.Tags
import LeaseCatalog.Text.Blank
import LeaseCatalog.Text.Bytes
import LeaseCatalog.Text.Hexadecimal
import LeaseCatalog.Text.Percent
import LeaseCatalog.Text.Printing
import LeaseCatalog.Text.Quoted
import LeaseCatalog.Text.Utf8
import LeaseCatalog.Time.Calendar
import LeaseCatalog.Time.Clock
import LeaseCatalog.Time.Instant
import LeaseCatalog.Time.Timestamp
import LeaseCatalog.Toml.Item
import LeaseCatalog.Toml.Quoted
import LeaseCatalog.Toml.Scalar
import LeaseCatalog.Toml.Syntax
import LeaseCatalog.Toml.Table
