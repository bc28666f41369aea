import HostBridge.Call.Event
import HostBridge.Call.Invoke
import HostBridge.Call.Program
import HostBridge.Call.Script
import HostBridge.Call.Settings
import HostBridge.Call.Statistics
import HostBridge.Call.World
import HostBridge.Config.Decode
import HostBridge.Config.Load
import HostBridge.Config.Settings
import HostBridge.Config.Write
import HostBridge.Conversion.Shape
import HostBridge.Document.Datum
import HostBridge.Document.Draft
import HostBridge.Document.Moment
import HostBridge.Document.Number
import HostBridge.Document.Reader
import HostBridge.Document.Text
import HostBridge.Document.Writer
import HostBridge.Exception.Basic
import HostBridge.Exception.Kind
import HostBridge.Files.Path
import HostBridge.Files.System
import HostBridge.Files.Tree
import HostBridge.Host.HostType
import HostBridge.Host.Method
import HostBridge.Log.Filter
import HostBridge.Log.Line
import HostBridge.Log.Session
import HostBridge.Log.Settings
import HostBridge.Number.Binary64
import HostBridge.Number.Shortest
import HostBridge.Number.Text
import HostBridge.Proofs.Accounting
import HostBridge.Proofs.Contract
import HostBridge.Proofs.Evaluation
import HostBridge.Proofs.Failures
import HostBridge.Proofs.Flattening
import HostBridge.Proofs.History
import HostBridge.Proofs.Inertness
import HostBridge.Proofs.Interleaving
import HostBridge.Proofs.Layers
import HostBridge.Proofs.Machine
import HostBridge.Proofs.Native
import HostBridge.Proofs.Panics
import HostBridge.Proofs.Snapshots
import HostBridge.Proofs.Totals
import HostBridge.Proofs.Trace
import HostBridge.Text.Escaped
import HostBridge.Text.Quoted
import HostBridge.Text.Record
import HostBridge.Text.Shown
import HostBridge.Value.Basic
import HostBridge.Value.Equality
import HostBridge.Value.Keywords
import HostBridge.Value.Text
import HostBridge.Proofs.Spelling
import HostBridge.Proofs.WrittenText
import HostBridge.Proofs.WrittenDocument
import HostBridge.Proofs.SettingsDocument
import HostBridge.Proofs.HostTypes
import HostBridge.Proofs.StaticNatives
import HostBridge.Proofs.Equality
import HostBridge.Proofs.Labels
import HostBridge.Proofs.WholeNumbers
import HostBridge.Proofs.Transitivity
import HostBridge.Proofs.Growth
import HostBridge.Proofs.Sessions
import HostBridge.Proofs.EqualReadings
import HostBridge.Proofs.Reading
import HostBridge.Proofs.ReadBack
import HostBridge.Proofs.DictText
import HostBridge.Proofs.Unambiguous
import HostBridge.Proofs.BoundChains
import HostBridge.Proofs.Interchange
import HostBridge.Proofs.ShortNames
import HostBridge.Proofs.Discovery
import HostBridge.Proofs.DistinctKeys
import HostBridge.Proofs.PartialSettings
import HostBridge.Proofs.KeywordOrder
import HostBridge.Proofs.LogPlaces
