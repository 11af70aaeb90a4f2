import Folio.Text.Extension
import Folio.Duration
import Folio.Json.Basic
import Folio.Json.Token
import Folio.Json.Term
import Folio.Json.Reader
import Folio.Json.Writer
import Folio.Json.Record
import Folio.Base64
import Folio.Document.Content
import Folio.Document.Model
import Folio.Settings
import Folio.Autosave.Conflict
import Folio.Store.Contract
import Folio.Table
import Folio.Journal.Basic
import Folio.Registry.Entry
import Folio.Registry.Basic
import Folio.Registry.Precedence
import Folio.Store.InMemory
import Folio.Document.Context
import Folio.Document.Operation
import Folio.Autosave.Coordinator
import Folio.Autosave.Attempt
import Folio.Document.Widget
import Folio.Session.Basic
import Folio.Session.Need
import Folio.Session.Stage
import Folio.Session.Conduct
import Folio.Session.Process
import Folio.Host.Lock
import Folio.Host.ScriptedStore
import Folio.Host.Command
import Folio.Host.Catalog
import Folio.Host.World
import Folio.Host.Begin
import Folio.Host.Run
import Folio.Journal.Channel
import Folio.Proofs.Document.RoundTrip
import Folio.Proofs.Document.Encoding
import Folio.Proofs.Session.Steps
import Folio.Proofs.Session.Edits
import Folio.Proofs.Store.Calls
import Folio.Proofs.Store.Times
import Folio.Proofs.Store.Checkpoints
import Folio.Proofs.Store.ReadOnly
import Folio.Proofs.Ensemble.Basic
import Folio.Proofs.Ensemble.Bystander
import Folio.Proofs.Ensemble.Advance
import Folio.Proofs.Ensemble.Owner
import Folio.Proofs.Manager.Paths
import Folio.Proofs.Manager.OneContext
import Folio.Proofs.Manager.Ledger
import Folio.Proofs.Manager.Roster
import Folio.Proofs.Manager.Books
import Folio.Proofs.Manager.Balance
import Folio.Proofs.Autosave.Steps
import Folio.Proofs.Autosave.Commons
import Folio.Proofs.Autosave.Overwriting
import Folio.Proofs.Saving.Exchange
import Folio.Proofs.Saving.Versions
import Folio.Proofs.Saving.Calm
import Folio.Proofs.Saving.LostUpdate
import Folio.Proofs.Registry.Consistency
import Folio.Proofs.Registry.Entries
import Folio.Proofs.Registry.Handles
import Folio.Proofs.Registry.Ranking
import Folio.Proofs.Registry.Changes
import Folio.Proofs.Text.Lower
import Folio.Proofs.Text.Extension
import Folio.Proofs.Text.FileName
import Folio.Proofs.Text.Forms
import Folio.Proofs.Registry.Resolving
import Folio.Proofs.Registry.FileTypes
import Folio.Proofs.Registry.Undoing
import Folio.Proofs.Registry.Choosing
import Folio.Proofs.Traffic.Basic
import Folio.Proofs.Traffic.Course
import Folio.Proofs.Manager.Protocol
import Folio.Proofs.Traffic.Calls
import Folio.Proofs.Traffic.Contents
import Folio.Proofs.Traffic.Saves
import Folio.Proofs.Manager.Live
import Folio.Proofs.Manager.Confirmation
import Folio.Proofs.Manager.CloseWidget
import Folio.Proofs.Manager.RemoveFile
import Folio.Proofs.Manager.Twin
import Folio.Proofs.Manager.Disposal
import Folio.Proofs.Manager.Outcomes
import Folio.Proofs.Manager.Upkeep
import Folio.Proofs.Manager.Standstill
import Folio.Proofs.Manager.Relocation
import Folio.Proofs.Manager.RenameFile
import Folio.Proofs.Autosave.Stopping
import Folio.Proofs.Autosave.Dealing
import Folio.Proofs.Autosave.OwnCalls
import Folio.Proofs.Autosave.OwnFile
import Folio.Proofs.Session.Contexts
import Folio.Proofs.Session.Readiness
import Folio.Proofs.Journal.Receiving
import Folio.Proofs.Session.Announcements
import Folio.Proofs.Session.FirstLoads
import Folio.Proofs.Autosave.Latch
import Folio.Proofs.Autosave.Permission
import Folio.Proofs.Autosave.Loops
import Folio.Proofs.Autosave.Settings
import Folio.Proofs.Manager.Opening
import Folio.Proofs.Manager.Sharing
import Folio.Proofs.Manager.Revealing
import Folio.Proofs.Manager.RevealsOnce
import Folio.Proofs.Json.Tokens
import Folio.Proofs.Json.Terms
import Folio.Proofs.Json.Records
import Folio.Proofs.Locks.Line
import Folio.Proofs.Locks.Turns
import Folio.Proofs.Locks.Progress
import Folio.Proofs.Autosave.Intervals
import Folio.Proofs.Autosave.Recalibration
import Folio.Proofs.Manager.RenameTarget
import Folio.Proofs.Manager.TwoRenames
import Folio.Proofs.Autosave.Changes
import Folio.Proofs.Autosave.InStep
import Folio.Proofs.Autosave.Clockwork
import Folio.Proofs.Autosave.Deadlines
import Folio.Proofs.Autosave.Overlap
import Folio.Proofs.Json.Pretty
import Folio.Proofs.Session.Results
import Folio.Proofs.Traffic.Failures
import Folio.Proofs.Traffic.Closed
import Folio.Proofs.Text.Names
import Folio.Proofs.Manager.Factories
import Folio.Proofs.Manager.ModelNames
import Folio.Proofs.Manager.Departure
import Folio.Proofs.Manager.DeleteFile
