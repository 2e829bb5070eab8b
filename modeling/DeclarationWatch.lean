import DeclarationWatch.Api.App
import DeclarationWatch.Api.Credentials
import DeclarationWatch.Api.Response
import DeclarationWatch.Api.Route
import DeclarationWatch.Completion
import DeclarationWatch.Cycle
import DeclarationWatch.Decimal.Binary
import DeclarationWatch.Decimal.Layout
import DeclarationWatch.Decimal.Nearest
import DeclarationWatch.Decimal.Shortest
import DeclarationWatch.Failure
import DeclarationWatch.Gmr
import DeclarationWatch.Gmr.Join
import DeclarationWatch.Gmr.SearchAnswer
import DeclarationWatch.Json.Decoder
import DeclarationWatch.Json.Fault
import DeclarationWatch.Json.Node
import DeclarationWatch.Json.Printer
import DeclarationWatch.Json.Reader
import DeclarationWatch.Json.Record
import DeclarationWatch.Json.Value
import DeclarationWatch.Keyed
import DeclarationWatch.Ledger.Item
import DeclarationWatch.Ledger.Store
import DeclarationWatch.Ledger.Token
import DeclarationWatch.Main
import DeclarationWatch.Movement.AccessToken
import DeclarationWatch.Movement.Service
import DeclarationWatch.Movement.StoredToken
import DeclarationWatch.Movement.TokenCache
import DeclarationWatch.Mrn
import DeclarationWatch.Net.Base64
import DeclarationWatch.Net.Charset
import DeclarationWatch.Net.Exchange
import DeclarationWatch.Net.Header
import DeclarationWatch.Net.MediaType
import DeclarationWatch.Net.Percent
import DeclarationWatch.Net.SocketAddress
import DeclarationWatch.Net.Status
import DeclarationWatch.Net.Url
import DeclarationWatch.Net.Url.Host
import DeclarationWatch.Net.Url.Path
import DeclarationWatch.Proofs.Api.Access
import DeclarationWatch.Proofs.Api.Credentials
import DeclarationWatch.Proofs.Api.Hold
import DeclarationWatch.Proofs.Api.Registration
import DeclarationWatch.Proofs.ChangeStream
import DeclarationWatch.Proofs.Completion
import DeclarationWatch.Proofs.Cycle.Change
import DeclarationWatch.Proofs.Cycle.Interleaving
import DeclarationWatch.Proofs.Cycle.Progress
import DeclarationWatch.Proofs.Cycle.Redundancy
import DeclarationWatch.Proofs.Cycle.Respelling
import DeclarationWatch.Proofs.Cycle.Rotation
import DeclarationWatch.Proofs.Cycle.Round
import DeclarationWatch.Proofs.Cycle.StoredTexts
import DeclarationWatch.Proofs.Cycle.Summary
import DeclarationWatch.Proofs.Cycle.Write
import DeclarationWatch.Proofs.Delivery
import DeclarationWatch.Proofs.Gmr.Acceptance
import DeclarationWatch.Proofs.Gmr.Codec
import DeclarationWatch.Proofs.Gmr.Join
import DeclarationWatch.Proofs.Gmr.Reordering
import DeclarationWatch.Proofs.Gmr.RoundTrip
import DeclarationWatch.Proofs.History
import DeclarationWatch.Proofs.Json.Acceptance
import DeclarationWatch.Proofs.Json.Bounds
import DeclarationWatch.Proofs.Json.Decoding
import DeclarationWatch.Proofs.Json.Exactness
import DeclarationWatch.Proofs.Json.Grammar
import DeclarationWatch.Proofs.Json.Lexeme
import DeclarationWatch.Proofs.Json.Reading
import DeclarationWatch.Proofs.Json.Refusal
import DeclarationWatch.Proofs.Json.Reordering
import DeclarationWatch.Proofs.Json.Units
import DeclarationWatch.Proofs.Json.Writing
import DeclarationWatch.Proofs.Keyed
import DeclarationWatch.Proofs.Ledger.Codec
import DeclarationWatch.Proofs.Ledger.Due
import DeclarationWatch.Proofs.Ledger.Order
import DeclarationWatch.Proofs.Ledger.Store
import DeclarationWatch.Proofs.Ledger.Updates
import DeclarationWatch.Proofs.Lifecycle
import DeclarationWatch.Proofs.Movement.Credentials
import DeclarationWatch.Proofs.Movement.Lifetime
import DeclarationWatch.Proofs.Movement.SingleFlight
import DeclarationWatch.Proofs.Mrn
import DeclarationWatch.Proofs.Net.Base64
import DeclarationWatch.Proofs.Net.Percent
import DeclarationWatch.Proofs.Net.Url
import DeclarationWatch.Proofs.Publish.Accounting
import DeclarationWatch.Proofs.Publish.Alone
import DeclarationWatch.Proofs.Publish.Blame
import DeclarationWatch.Proofs.Publish.Cancellation
import DeclarationWatch.Proofs.Publish.Dispatch
import DeclarationWatch.Proofs.Publish.Identity
import DeclarationWatch.Proofs.Publish.Interleaving
import DeclarationWatch.Proofs.Publish.Message
import DeclarationWatch.Proofs.Publish.Rehearsal
import DeclarationWatch.Proofs.Publish.Webhook
import DeclarationWatch.Proofs.Resolution
import DeclarationWatch.Proofs.Schedule.Endurance
import DeclarationWatch.Proofs.Schedule.Fleet
import DeclarationWatch.Proofs.Schedule.Shutdown
import DeclarationWatch.Proofs.Settings.Expiry
import DeclarationWatch.Proofs.Text.Blank
import DeclarationWatch.Proofs.Text.UpperCase
import DeclarationWatch.Proofs.Text.Utf8
import DeclarationWatch.Proofs.Time.Calendar
import DeclarationWatch.Proofs.Time.Order
import DeclarationWatch.Proofs.Time.Reading
import DeclarationWatch.Proofs.Time.Timestamp
import DeclarationWatch.Publish.Chunk
import DeclarationWatch.Publish.Entry
import DeclarationWatch.Publish.Webhook
import DeclarationWatch.Rehearsal.Jobs
import DeclarationWatch.Rehearsal.Program
import DeclarationWatch.Rehearsal.Publication
import DeclarationWatch.Rehearsal.Server
import DeclarationWatch.Rehearsal.Sink
import DeclarationWatch.Schedule.Expression
import DeclarationWatch.Schedule.Job
import DeclarationWatch.Schedule.Next
import DeclarationWatch.Settings.Dotenv
import DeclarationWatch.Settings.Layer
import DeclarationWatch.Settings.Load
import DeclarationWatch.Settings.Model
import DeclarationWatch.Settings.Rules
import DeclarationWatch.Settings.Scalar
import DeclarationWatch.Settings.Shown
import DeclarationWatch.Sighting
import DeclarationWatch.Startup
import DeclarationWatch.Text.Blank
import DeclarationWatch.Text.CaseRun
import DeclarationWatch.Text.DecimalDigit
import DeclarationWatch.Text.LowerCase
import DeclarationWatch.Text.Quoted
import DeclarationWatch.Text.Ranges
import DeclarationWatch.Text.UpperCase
import DeclarationWatch.Text.Utf8
import DeclarationWatch.Time.Calendar
import DeclarationWatch.Time.Instant
import DeclarationWatch.Time.Timestamp
import DeclarationWatch.Width
