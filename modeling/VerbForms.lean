import VerbForms.Json.Read
import VerbForms.Json.Print
import VerbForms.Text.Blank
import VerbForms.Text.UpperCase
import VerbForms.Text.Printable
import VerbForms.Text.Encoding
import VerbForms.Schema.Expansion
import VerbForms.Form.Metadata
import VerbForms.Store.Basic
import VerbForms.Store.Session
import VerbForms.Store.Migration
import VerbForms.Remote.Address
import VerbForms.Remote.Gateway
import VerbForms.Remote.Script
import VerbForms.Settings.Basic
import VerbForms.Form.Live
import VerbForms.Form.Copy
import VerbForms.Panel.Loading
import VerbForms.Panel.Saving
import VerbForms.Panel.Submission
import VerbForms.Console.Shown
import VerbForms.Registry.Basic
import VerbForms.Host.Endpoint
import VerbForms.Desk.Run
import VerbForms.Host.Server
import VerbForms.Proofs.Registry.SingleBuild
import VerbForms.Proofs.Json.Position
import VerbForms.Proofs.Schema.Expands
import VerbForms.Proofs.Schema.Document
import VerbForms.Proofs.Schema.ReferenceFree
import VerbForms.Proofs.Schema.Coherence
import VerbForms.Proofs.Schema.BadReference
import VerbForms.Proofs.Schema.Failure
import VerbForms.Proofs.Json.Atom
import VerbForms.Proofs.Json.Quoted
import VerbForms.Proofs.Json.Reading
import VerbForms.Proofs.Json.RoundTrip
import VerbForms.Proofs.Store.LastSaved
import VerbForms.Proofs.Store.Refinement
import VerbForms.Proofs.Store.Atomicity
import VerbForms.Proofs.Registry.Custody
import VerbForms.Proofs.Registry.Handover
import VerbForms.Proofs.Panel.Run
import VerbForms.Proofs.Panel.Unmounted
import VerbForms.Proofs.Registry.Fleet
import VerbForms.Proofs.Panel.Submitting
import VerbForms.Proofs.Panel.Display
import VerbForms.Proofs.Console.Fresh
import VerbForms.Proofs.Console.Activity
import VerbForms.Proofs.Console.Selection
import VerbForms.Proofs.Console.Visible
import VerbForms.Proofs.Console.Startup
import VerbForms.Proofs.Desk.Loading
import VerbForms.Proofs.Decimal.Rounding
import VerbForms.Proofs.Decimal.Shortest
import VerbForms.Proofs.Json.Real
import VerbForms.Proofs.Json.Storable
import VerbForms.Proofs.Panel.Saving
import VerbForms.Proofs.Registry.Calm
import VerbForms.Proofs.Console.Evolution
import VerbForms.Proofs.Console.Keys
import VerbForms.Proofs.Host.Perform
import VerbForms.Proofs.Host.Route
import VerbForms.Proofs.Desk.Frame
import VerbForms.Proofs.Desk.Calls
import VerbForms.Proofs.Desk.World
import VerbForms.Proofs.Desk.Turn
import VerbForms.Proofs.Desk.Visits
import VerbForms.Proofs.Desk.Order
import VerbForms.Proofs.Desk.Values
import VerbForms.Proofs.Panel.AtRest
import VerbForms.Proofs.Panel.History
import VerbForms.Proofs.Schema.Idempotence
import VerbForms.Proofs.Panel.Overlap
import VerbForms.Proofs.Panel.LoadEnds
import VerbForms.Proofs.Panel.Stored
import VerbForms.Proofs.Registry.Passage
import VerbForms.Proofs.Registry.Sharing
import VerbForms.Proofs.Registry.Recency
import VerbForms.Proofs.Registry.LockTable
import VerbForms.Proofs.Remote.Server
import VerbForms.Proofs.Remote.Gateway
import VerbForms.Proofs.Remote.Interpretation
import VerbForms.Proofs.Desk.Requests
import VerbForms.Proofs.Panel.Entry
import VerbForms.Proofs.Console.Agreement
import VerbForms.Proofs.Console.Suite
import VerbForms.Proofs.Registry.Returned
import VerbForms.Proofs.Registry.FailedVisit
import VerbForms.Proofs.Host.Startup
import VerbForms.Proofs.Console.SchemaRequests
import VerbForms.Proofs.Schema.Untouched
import VerbForms.Proofs.Schema.Reordering
import VerbForms.Proofs.Desk.Shown
import VerbForms.Proofs.Desk.Sending
import VerbForms.Proofs.Schema.ReportedCycle
import VerbForms.Proofs.Schema.RootReplaced
import VerbForms.Proofs.Schema.RootDropped
import VerbForms.Proofs.Schema.Nesting
import VerbForms.Proofs.Remote.BasePath
import VerbForms.Proofs.Desk.Below
import VerbForms.Proofs.Settings.Verbs
import VerbForms.Proofs.Form.Emissions
import VerbForms.Proofs.Form.Copy
import VerbForms.Proofs.Host.Canonical
import VerbForms.Proofs.Panel.Options
import VerbForms.Proofs.Store.Migration
import VerbForms.Proofs.Console.Interaction
import VerbForms.Proofs.Schema.LookAhead
import VerbForms.Proofs.Schema.Naming
