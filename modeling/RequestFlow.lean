import RequestFlow.Config.Basic
import RequestFlow.Config.Settings
import RequestFlow.Context
import RequestFlow.Controller
import RequestFlow.Event
import RequestFlow.Failure
import RequestFlow.Handler
import RequestFlow.Hook.Guard
import RequestFlow.Hook.Identity
import RequestFlow.Hook.Layer
import RequestFlow.Hook.Next
import RequestFlow.Hook.Visit
import RequestFlow.Http.Header
import RequestFlow.Http.Request
import RequestFlow.Json.Basic
import RequestFlow.Json.Payload
import RequestFlow.Json.Printer
import RequestFlow.Json.Reader
import RequestFlow.Net.Address
import RequestFlow.Number.Binary64
import RequestFlow.Number.Shortest
import RequestFlow.Number.Text
import RequestFlow.Outcome
import RequestFlow.Query
import RequestFlow.Registry
import RequestFlow.Response.Basic
import RequestFlow.Response.Render
import RequestFlow.Route.Conflict
import RequestFlow.Route.Insert
import RequestFlow.Route.Template
import RequestFlow.Route.Tree
import RequestFlow.Router
import RequestFlow.Run
import RequestFlow.Sample.Hooks
import RequestFlow.Sample.Script
import RequestFlow.Server.Basic
import RequestFlow.Server.Decode
import RequestFlow.Server.Dispatch
import RequestFlow.SortedMap
import RequestFlow.Store
import RequestFlow.Text.Printable
import RequestFlow.Text.Quoted
import RequestFlow.Text.Reader
import RequestFlow.Text.Utf8
import RequestFlow.Toml.Literal
import RequestFlow.Toml.Reader
import RequestFlow.Toml.Value
import RequestFlow.Proofs.Pipeline.Journal
import RequestFlow.Proofs.Pipeline.Nesting
import RequestFlow.Proofs.Pipeline.Guards
import RequestFlow.Proofs.Composition.History
import RequestFlow.Proofs.Composition.Resolution
import RequestFlow.Proofs.Composition.NoBypass
import RequestFlow.Proofs.Composition.Mounting
import RequestFlow.Proofs.Server.Precedence
import RequestFlow.Proofs.Pipeline.Containment
import RequestFlow.Proofs.Server.Dispatch
import RequestFlow.Proofs.Pipeline.Deadlines
import RequestFlow.Proofs.Pipeline.Surroundings
import RequestFlow.Proofs.Pipeline.Observers
import RequestFlow.Proofs.Json.Literal
import RequestFlow.Proofs.Json.RoundTrip
import RequestFlow.Proofs.Config.Validated
import RequestFlow.Proofs.Server.Confidential
import RequestFlow.Proofs.Server.MediaType
import RequestFlow.Proofs.Pipeline.Expiry
import RequestFlow.Proofs.Pipeline.ErrorHandling
import RequestFlow.Proofs.Composition.Inheritance
import RequestFlow.Proofs.Query.Parts
import RequestFlow.Proofs.Query.FormEncoding
import RequestFlow.Proofs.Response.Fields
import RequestFlow.Proofs.Composition.Duplicates
import RequestFlow.Proofs.Composition.SetUp
import RequestFlow.Proofs.Composition.Identity
import RequestFlow.Proofs.Store.Insertions
import RequestFlow.Proofs.Composition.DuplicateReports
import RequestFlow.Proofs.Context.Integers
import RequestFlow.Proofs.Route.Reading
import RequestFlow.Proofs.Route.Contents
import RequestFlow.Proofs.Route.StaticPaths
import RequestFlow.Proofs.Route.Shapes
import RequestFlow.Proofs.Text.Boundaries
import RequestFlow.Proofs.Route.Matching
import RequestFlow.Proofs.Route.Alone
import RequestFlow.Proofs.Route.Registered
import RequestFlow.Proofs.Route.Lookups
import RequestFlow.Proofs.Pipeline.Sites
import RequestFlow.Proofs.Pipeline.Spans
import RequestFlow.Proofs.Hook.TypePath
