import Switchboard.Table
import Switchboard.Wire.Serial.Messages
import Switchboard.Wire.Serial.Catalog
import Switchboard.Scan
import Switchboard.Pending
import Switchboard.Coercion
import Switchboard.Dispatcher
import Switchboard.Services.Core
import Switchboard.Services.Fixture
import Switchboard.Services.Scripted
import Switchboard.Server
import Switchboard.Proofs.Objects.Lookup
import Switchboard.Proofs.Objects.Consistency
import Switchboard.Proofs.Dispatcher.Session
import Switchboard.Proofs.Dispatcher.Transcript
import Switchboard.Proofs.Dispatcher.Finals
import Switchboard.Proofs.RequestLoop.Ledger
import Switchboard.Proofs.RequestLoop.Books
import Switchboard.Proofs.RequestLoop.Tick
import Switchboard.Proofs.RequestLoop.Requests
import Switchboard.Proofs.RequestLoop.Answers
import Switchboard.Proofs.Coercion.Plain
import Switchboard.Proofs.Dispatcher.Course
import Switchboard.Proofs.Dispatcher.Evaluation
import Switchboard.Proofs.RequestLoop.Refinement
import Switchboard.Proofs.Objects.Numbers
import Switchboard.Proofs.Wire.MsgPack.Items
import Switchboard.Proofs.Wire.Records
import Switchboard.Proofs.Wire.Values
import Switchboard.Proofs.Wire.Messages
import Switchboard.Proofs.Scan.CoreEntries
import Switchboard.Proofs.Wire.Catalog
import Switchboard.Proofs.Wire.RoundTrip
import Switchboard.Proofs.Interleaving.Draft
import Switchboard.Proofs.Interleaving.System
import Switchboard.Proofs.Interleaving.Disconnected
import Switchboard.Proofs.Interleaving.Places
import Switchboard.Proofs.Interleaving.Custody
import Switchboard.Proofs.Interleaving.Alone
import Switchboard.Proofs.Wire.Endings
import Switchboard.Proofs.Wire.Json.Text
import Switchboard.Proofs.Wire.Json.Records
import Switchboard.Proofs.Wire.Json.Values
import Switchboard.Proofs.Wire.Json.Messages
import Switchboard.Proofs.Wire.Json.Catalog
import Switchboard.Proofs.Wire.Json.RoundTrip
import Switchboard.Proofs.Scan.Declared
import Switchboard.Proofs.Scan.Acceptance
import Switchboard.Proofs.Scan.Agreement
import Switchboard.Proofs.Coercion.Binding
import Switchboard.Proofs.Scan.Search
import Switchboard.Proofs.Scan.Defaults
import Switchboard.Proofs.Scan.Offers
import Switchboard.Proofs.Coercion.Decoding
import Switchboard.Proofs.Binary.Numbers
import Switchboard.Proofs.Datum.Matching
import Switchboard.Proofs.Datum.Parts
import Switchboard.Proofs.Datum.Equality
import Switchboard.Proofs.Coercion.Runs
import Switchboard.Proofs.Objects.Sharing
import Switchboard.Proofs.Coercion.Echo
import Switchboard.Proofs.Objects.Extension
import Switchboard.Proofs.Coercion.Recovery
import Switchboard.Proofs.Coercion.Sightings
import Switchboard.Proofs.Dispatcher.Provenance
import Switchboard.Proofs.Dispatcher.ClassSafety
import Switchboard.Proofs.Objects.Growth
import Switchboard.Proofs.Coercion.Misfits
import Switchboard.Proofs.Dispatcher.Failures
import Switchboard.Proofs.Server.Shutdown
import Switchboard.Proofs.Dispatcher.Accounts
import Switchboard.Proofs.Coercion.Refusals
import Switchboard.Proofs.Coercion.Arguments
import Switchboard.Proofs.Coercion.Lasting
import Switchboard.Proofs.Datum.Traversal
import Switchboard.Proofs.Coercion.WellTyped
import Switchboard.Proofs.RequestLoop.Lines
import Switchboard.Proofs.RequestLoop.Fairness
import Switchboard.Proofs.Objects.Departure
import Switchboard.Proofs.Dispatcher.Disconnect
import Switchboard.Proofs.Dispatcher.Round
import Switchboard.Proofs.Services.Countdown
import Switchboard.Proofs.Datum.Contents
import Switchboard.Proofs.Coercion.Interchange
import Switchboard.Proofs.Coercion.References
import Switchboard.Proofs.Services.Handlers
import Switchboard.Proofs.Services.Accessors
import Switchboard.Proofs.Services.Memory
import Switchboard.Proofs.Services.ObjectProperty
import Switchboard.Proofs.RequestLoop.Division
import Switchboard.Proofs.Coercion.Building
import Switchboard.Proofs.Services.Increments
import Switchboard.Proofs.Services.Purity
