import ScriptBridge.Number.Shortest
import ScriptBridge.Number.Reading
import ScriptBridge.Text.Utf8
import ScriptBridge.Text.CodePage
import ScriptBridge.Text.Encoder
import ScriptBridge.Text.Blank
import ScriptBridge.Signature
import ScriptBridge.Callback
import ScriptBridge.Definition.Callbacks
import ScriptBridge.Definition.Index
import ScriptBridge.Definition.Natives
import ScriptBridge.Memory.Program
import ScriptBridge.Memory.Scratch
import ScriptBridge.Hook.Redirection
import ScriptBridge.Native.Call
import ScriptBridge.Native.Invoke
import ScriptBridge.Provided.Natives
import ScriptBridge.Interception.Interceptor
import ScriptBridge.Server.Publics
import ScriptBridge.Database.Connection
import ScriptBridge.Toml.Document
import ScriptBridge.Settings.Directory
import ScriptBridge.Log.Threads
import ScriptBridge.Bridge.Basic
import ScriptBridge.Bridge.Console
import ScriptBridge.Plugin.Loading
import ScriptBridge.Simulation.Host
import ScriptBridge.Simulation.Plugin
import ScriptBridge.Proofs.History
import ScriptBridge.Proofs.Likeness
import ScriptBridge.Proofs.Capacity
import ScriptBridge.Proofs.WorkerSteps
import ScriptBridge.Proofs.Sessions
import ScriptBridge.Proofs.Delivery
import ScriptBridge.Proofs.Discipline
import ScriptBridge.Proofs.Drain
import ScriptBridge.Proofs.Dispatch
import ScriptBridge.Proofs.Agreement
import ScriptBridge.Proofs.Told
import ScriptBridge.Proofs.Deferral
import ScriptBridge.Proofs.Shutdown
import ScriptBridge.Proofs.SignatureWords
import ScriptBridge.Proofs.PublicIndices
import ScriptBridge.Proofs.HandlerCalls
import ScriptBridge.Proofs.Transcoding
import ScriptBridge.Proofs.Refusals
import ScriptBridge.Proofs.Scopes
import ScriptBridge.Proofs.WriteBack
import ScriptBridge.Proofs.TextRoutes
import ScriptBridge.Proofs.NameBytes
import ScriptBridge.Proofs.NativePlaces
import ScriptBridge.Proofs.Declarations
import ScriptBridge.Proofs.PublicTables
import ScriptBridge.Proofs.Transparency
import ScriptBridge.Proofs.ServerRequests
import ScriptBridge.Proofs.PushedArguments
import ScriptBridge.Proofs.ClosedConnections
import ScriptBridge.Proofs.LogLines
import ScriptBridge.Proofs.LogThreads
import ScriptBridge.Proofs.DefinitionFiles
import ScriptBridge.Proofs.CallbackPositions
import ScriptBridge.Proofs.Loans
import ScriptBridge.Proofs.BoundedReads
import ScriptBridge.Proofs.Regions
import ScriptBridge.Proofs.PushedCells
import ScriptBridge.Proofs.Registrations
import ScriptBridge.Proofs.WordConversions
import ScriptBridge.Proofs.NumberTexts
import ScriptBridge.Proofs.StoredResults
