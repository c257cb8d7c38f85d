import Dashboard.Binary64.Basic
import Dashboard.Binary64.Shortest
import Dashboard.Board
import Dashboard.Board.View
import Dashboard.Command.Help
import Dashboard.Command.Options
import Dashboard.Command.Program
import Dashboard.Config.Basic
import Dashboard.Config.Directory
import Dashboard.Config.File
import Dashboard.Config.Load
import Dashboard.Config.Printer
import Dashboard.Config.Session
import Dashboard.Config.Variables
import Dashboard.Console
import Dashboard.Endpoint
import Dashboard.Endpoint.Host
import Dashboard.Entries
import Dashboard.Failure
import Dashboard.Fallback
import Dashboard.Gate
import Dashboard.Json.Basic
import Dashboard.Json.Cursor
import Dashboard.Json.Fault
import Dashboard.Json.Printer
import Dashboard.Json.Reader
import Dashboard.Json.Skip
import Dashboard.Json.Token
import Dashboard.Layer.Document
import Dashboard.Layer.Path
import Dashboard.Layer.Tree
import Dashboard.Live
import Dashboard.Main
import Dashboard.Notice
import Dashboard.Producer.Inquiry
import Dashboard.Producer.Relay
import Dashboard.Producer.Sampler
import Dashboard.Proofs.Gate.Passage
import Dashboard.Proofs.Producer.Role
import Dashboard.Proofs.Relay.Event
import Dashboard.Proofs.Relay.Reconciliation
import Dashboard.Proofs.Sampler.Action
import Dashboard.Proofs.Session.Agreement
import Dashboard.Proofs.Session.Custody
import Dashboard.Proofs.Session.Handles
import Dashboard.Proofs.Session.History
import Dashboard.Proofs.Session.Invariant
import Dashboard.Proofs.Session.Run
import Dashboard.Proofs.Session.Start
import Dashboard.Proofs.Source.Conservation
import Dashboard.Proofs.Command.Validation
import Dashboard.Proofs.System.Turn
import Dashboard.Proofs.World.Writing
import Dashboard.Response
import Dashboard.Script.Stage
import Dashboard.Script.Step
import Dashboard.Session
import Dashboard.Setting
import Dashboard.Setting.Responder
import Dashboard.Setting.Store
import Dashboard.Shape.Basic
import Dashboard.Shape.Mismatch
import Dashboard.Shape.OfJson
import Dashboard.Shape.OfLayers
import Dashboard.Shape.OfText
import Dashboard.Shape.OfToml
import Dashboard.Shape.ToJson
import Dashboard.Slot
import Dashboard.Slot.Map
import Dashboard.Source
import Dashboard.Status
import Dashboard.System
import Dashboard.Text.Blank
import Dashboard.Text.Digits
import Dashboard.Text.Duration
import Dashboard.Text.Printable
import Dashboard.Text.Quoted
import Dashboard.Ticker
import Dashboard.Toml.Basic
import Dashboard.Toml.Printer
import Dashboard.Toml.Reader
import Dashboard.Toml.Scalar
import Dashboard.Toml.Table
import Dashboard.Toml.Text
import Dashboard.Word
import Dashboard.World
import Dashboard.Proofs.Gate.Tree
import Dashboard.Proofs.Producer.Calls
import Dashboard.Proofs.Session.Ending
import Dashboard.Proofs.Slot.Lane
import Dashboard.Proofs.Session.Isolation
import Dashboard.Proofs.Toml.Document
import Dashboard.Proofs.Layer.Overlay
import Dashboard.Proofs.Config.RoundTrip
import Dashboard.Proofs.Board.History
import Dashboard.Proofs.Json.Text
import Dashboard.Proofs.Shape.ReadBack
import Dashboard.Proofs.Shape.RoundTrip
import Dashboard.Proofs.Config.Field
import Dashboard.Proofs.Config.Layering
import Dashboard.Proofs.Toml.Keys
import Dashboard.Proofs.Session.Underway
import Dashboard.Proofs.Session.Callers
import Dashboard.Proofs.Console.Display
import Dashboard.Proofs.Sampler.Outcome
import Dashboard.Proofs.Sampler.Pace
import Dashboard.Proofs.Sampler.Streak
import Dashboard.Proofs.Sampler.Count
import Dashboard.Proofs.Session.Schedule
import Dashboard.Proofs.Session.Breaking
import Dashboard.Proofs.Session.Handles
import Dashboard.Proofs.Producer.Load
import Dashboard.Proofs.Session.Waiting
import Dashboard.Proofs.Relay.Delivery
import Dashboard.Proofs.Board.Writers
import Dashboard.Proofs.Response.Label
import Dashboard.Proofs.Response.Table
import Dashboard.Proofs.Endpoint.Joining
import Dashboard.Proofs.Board.Lines
