import Bearer.Cache.Envelope
import Bearer.Cache.Key
import Bearer.Cache.Local
import Bearer.Cache.Shared
import Bearer.Cache.SharedMemory
import Bearer.Cache.Stats
import Bearer.Cache.Tiered
import Bearer.CommandLine
import Bearer.Crypto.Argon2
import Bearer.Crypto.Blake2b
import Bearer.Crypto.Hmac
import Bearer.Crypto.PasswordHash
import Bearer.Crypto.Sha256
import Bearer.Error
import Bearer.Fleet.Backends
import Bearer.Fleet.Basic
import Bearer.Fleet.Timer
import Bearer.Json.Reader
import Bearer.Json.Value
import Bearer.Json.Writer
import Bearer.Main
import Bearer.Number.Double
import Bearer.Number.Shortest
import Bearer.Prog
import Bearer.Proofs.Cache.Alike
import Bearer.Proofs.Cache.Envelope
import Bearer.Proofs.Cache.Freshness
import Bearer.Proofs.Cache.Key
import Bearer.Proofs.Cache.Prompt
import Bearer.Proofs.Cache.Tiered
import Bearer.Proofs.Cache.Tiers
import Bearer.Proofs.Cache.TimedMap
import Bearer.Proofs.Fleet.Alike
import Bearer.Proofs.Fleet.Amid
import Bearer.Proofs.Fleet.Caches
import Bearer.Proofs.Fleet.Interleaving
import Bearer.Proofs.Fleet.Issue
import Bearer.Proofs.Fleet.Janitor
import Bearer.Proofs.Fleet.Perform
import Bearer.Proofs.Fleet.Run
import Bearer.Proofs.Fleet.Start
import Bearer.Proofs.Fleet.Twins
import Bearer.Proofs.Fleet.Upkeep
import Bearer.Proofs.Json.Members
import Bearer.Proofs.Json.RoundTrip
import Bearer.Proofs.Redis.Invalidate
import Bearer.Proofs.Revocation.Agreement
import Bearer.Proofs.Revocation.Complete
import Bearer.Proofs.Revocation.Cutoff
import Bearer.Proofs.Revocation.Justified
import Bearer.Proofs.Revocation.Permanence
import Bearer.Proofs.Revocation.Spared
import Bearer.Proofs.Revocation.Stale
import Bearer.Proofs.Service.Conduct
import Bearer.Proofs.Service.Facade
import Bearer.Proofs.Service.History
import Bearer.Proofs.Service.Operation
import Bearer.Proofs.Service.Stores
import Bearer.Proofs.Service.Task
import Bearer.Proofs.Session.Chronicle
import Bearer.Proofs.Session.Lookup
import Bearer.Proofs.Session.Redemption
import Bearer.Proofs.Session.Sourced
import Bearer.Proofs.Session.Staleness
import Bearer.Proofs.Session.Transparent
import Bearer.Proofs.Store.Alike
import Bearer.Proofs.Store.Revocation
import Bearer.Proofs.Store.Session
import Bearer.Proofs.Text.Decimal
import Bearer.Proofs.Text.Utf8
import Bearer.Proofs.Time.Instant
import Bearer.Proofs.Time.Rfc3339
import Bearer.Proofs.Token.RoundTrip
import Bearer.Redis.Reply
import Bearer.Redis.Store
import Bearer.Revocation
import Bearer.Server
import Bearer.Service.Auth
import Bearer.Service.Blacklist
import Bearer.Service.Issuer
import Bearer.Service.Janitor
import Bearer.Service.Request
import Bearer.Service.Sessions
import Bearer.Session
import Bearer.Settings.Basic
import Bearer.Settings.Config
import Bearer.Settings.Node
import Bearer.Settings.Text
import Bearer.Sql.Database
import Bearer.Sql.Fault
import Bearer.Sql.Peer
import Bearer.Sql.Row
import Bearer.Sql.Statement
import Bearer.Store.Origin
import Bearer.Store.Revocation
import Bearer.Store.Session
import Bearer.Store.User
import Bearer.Table
import Bearer.Text.Base64
import Bearer.Text.Blank
import Bearer.Text.Decimal
import Bearer.Text.Glob
import Bearer.Text.Hex
import Bearer.Text.Quoted
import Bearer.Text.Sort
import Bearer.Text.Split
import Bearer.Text.Utf8
import Bearer.Text.Visible
import Bearer.Time.Calendar
import Bearer.Time.Duration
import Bearer.Time.Instant
import Bearer.Time.Moment
import Bearer.Time.Rfc3339
import Bearer.Token.Claims
import Bearer.Token.Compact
import Bearer.Token.Config
import Bearer.Token.Id
import Bearer.Token.Payload
import Bearer.Token.Revoked
import Bearer.Token.Verify
import Bearer.Toml.Document
import Bearer.Toml.Scalar
import Bearer.Toml.Text
import Bearer.Toml.Value
import Bearer.User
import Bearer.Proofs.Service.Failures
import Bearer.Proofs.Fleet.Failures
import Bearer.Proofs.Session.Login
import Bearer.Proofs.Service.Refresh
import Bearer.Proofs.Session.Redeemable
import Bearer.Proofs.Session.Winner
import Bearer.Proofs.Session.Course
import Bearer.Proofs.Session.Retry
import Bearer.Proofs.Token.Pair
import Bearer.Proofs.Token.Authentic
import Bearer.Proofs.Fleet.Isolation
import Bearer.Proofs.Revocation.Checks
import Bearer.Proofs.Session.Outcome
import Bearer.Proofs.Text.Glob
import Bearer.Proofs.Store.Identity
import Bearer.Proofs.Cache.Backend
import Bearer.Proofs.Redis.Promotion
import Bearer.Proofs.Revocation.Latest
import Bearer.Proofs.Session.Revival
import Bearer.Proofs.Store.Numbers
import Bearer.Proofs.Cache.Statistics
import Bearer.Proofs.Revocation.Recorded
import Bearer.Proofs.Revocation.Pruning
import Bearer.Proofs.Cache.Eviction
