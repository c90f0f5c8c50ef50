import ScopedStore.Account.Client
import ScopedStore.Account.Config
import ScopedStore.Account.Error
import ScopedStore.Account.Http
import ScopedStore.Account.Remote
import ScopedStore.Decimal.Digits
import ScopedStore.Decimal.Shortest
import ScopedStore.Device.Batch
import ScopedStore.Device.Config
import ScopedStore.Device.Database
import ScopedStore.Device.Error
import ScopedStore.Device.Handle
import ScopedStore.Device.Quota
import ScopedStore.Device.Site
import ScopedStore.Device.Table
import ScopedStore.Device.Tampering
import ScopedStore.Device.Transaction
import ScopedStore.Entry
import ScopedStore.Error
import ScopedStore.Json.Basic
import ScopedStore.Json.Decode
import ScopedStore.Json.Numeral
import ScopedStore.Json.Reader
import ScopedStore.Listener.Hub
import ScopedStore.Listener.Session
import ScopedStore.Log
import ScopedStore.Scope
import ScopedStore.Settings.Config
import ScopedStore.Settings.Document
import ScopedStore.Settings.Environment
import ScopedStore.Settings.Error
import ScopedStore.Settings.Files
import ScopedStore.Settings.Filter
import ScopedStore.Settings.Logging
import ScopedStore.Settings.Stores
import ScopedStore.Store.Backend
import ScopedStore.Store.Call
import ScopedStore.Store.Layer
import ScopedStore.Store.Minimal
import ScopedStore.Store.Scripted
import ScopedStore.Text.Base64
import ScopedStore.Text.Blank
import ScopedStore.Text.Utf8
import ScopedStore.Time.Calendar
import ScopedStore.Time.Clock
import ScopedStore.Time.Duration
import ScopedStore.Time.Expiry
import ScopedStore.Time.Timestamp
import ScopedStore.Toml.Quoted
import ScopedStore.Toml.Reader
import ScopedStore.Toml.Scalar
import ScopedStore.Toml.Table
import ScopedStore.Url.Address
import ScopedStore.Url.Basic
import ScopedStore.Url.Host
import ScopedStore.Url.Parse
import ScopedStore.Url.Percent
import ScopedStore.Wire.Contract
import ScopedStore.Wire.Message
import ScopedStore.Wire.Status
import ScopedStore.Proofs.Device.Rows
import ScopedStore.Proofs.Device.Keys
import ScopedStore.Proofs.Device.Soundness
import ScopedStore.Proofs.Device.Views
import ScopedStore.Proofs.Device.Transactions
import ScopedStore.Proofs.Device.Effects
import ScopedStore.Proofs.Device.Reachable
import ScopedStore.Proofs.Device.Atomicity
import ScopedStore.Proofs.Device.Usage
import ScopedStore.Proofs.Device.Answers
import ScopedStore.Proofs.Device.History
import ScopedStore.Proofs.Device.Failures
import ScopedStore.Proofs.Device.Reconnection
import ScopedStore.Proofs.Device.Notices
import ScopedStore.Proofs.Device.LazyExpiry
import ScopedStore.Proofs.Listener.Courses
import ScopedStore.Proofs.Listener.Trails
import ScopedStore.Proofs.Listener.Reentrancy
import ScopedStore.Proofs.Device.CommittedWrites
import ScopedStore.Proofs.Text.ByteOrder
import ScopedStore.Proofs.Device.Inspection
import ScopedStore.Proofs.Device.Weights
import ScopedStore.Proofs.Device.Admission
import ScopedStore.Proofs.Device.Uses
import ScopedStore.Proofs.Device.Logs
import ScopedStore.Proofs.Device.Opening
import ScopedStore.Proofs.Device.AlteredRows
import ScopedStore.Proofs.Device.Refusals
import ScopedStore.Proofs.Decimal.Digits
import ScopedStore.Proofs.Time.Texts
import ScopedStore.Proofs.Text.Utf8
import ScopedStore.Proofs.Json.ReadBack
import ScopedStore.Proofs.Wire.RoundTrip
import ScopedStore.Proofs.Account.Calls
import ScopedStore.Proofs.Account.Discipline
import ScopedStore.Proofs.Account.Lifetimes
import ScopedStore.Proofs.Account.Service
import ScopedStore.Proofs.Url.Hosts
import ScopedStore.Proofs.Account.Token
import ScopedStore.Proofs.Settings.Resolution
import ScopedStore.Proofs.Time.Durations
import ScopedStore.Proofs.Account.Replies
import ScopedStore.Proofs.Url.Addresses
import ScopedStore.Proofs.Url.Names
import ScopedStore.Proofs.Url.Texts
import ScopedStore.Proofs.Account.Endpoints
import ScopedStore.Proofs.Url.Encoding
import ScopedStore.Proofs.Url.Paths
import ScopedStore.Proofs.Url.ReadBack
import ScopedStore.Proofs.Account.Targets
import ScopedStore.Proofs.Time.Grammar
import ScopedStore.Proofs.Time.Words
