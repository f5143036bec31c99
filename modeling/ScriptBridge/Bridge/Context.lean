import ScriptBridge.Bridge.Connections
import ScriptBridge.Native.Invoke
import ScriptBridge.Provided.Natives
import ScriptBridge.Server.Publics

/-!
# What a script can do

While it handles an event, a script acts on the server through a context: it calls natives
and public functions, provides natives and uses databases. `HostAction` lists what it may
ask for and `ActionAnswer` what it gets.

What lies outside the bridge is gathered in an `Environment`: the code behind natives and
handlers, the functions of the server, the database drivers and the clock.
-/

namespace ScriptBridge

/-- **What lies outside the bridge**, in a world of type `W`. Natives and handlers are known by
handles of the types `F` and `H`. -/
structure Environment (F H W : Type) where
  native : F → Native W
  handler : H → Handler W
  server : ServerFunctions W
  driver : ConnectionId → DatabaseDriver W
  now : W → Nat

/-- **What a script asks for.** -/
inductive HostAction (H : Type) where
  | invoke (arguments : List ScriptValue)
  | nativeExists (name : String)
  | callPublic (name : String) (arguments : List ArgumentValue)
  | program
  | provide (name signature : String) (handler : H)
  | openConnection (info : ConnectionInfo)
  | query (connection : ConnectionId) (text : String)
  | closeConnection (connection : ConnectionId)

/-- The name of an action. -/
def HostAction.name {H : Type} : HostAction H → String
  | .invoke _ => "invoke"
  | .nativeExists _ => "native_exists"
  | .callPublic _ _ => "call_public"
  | .program => "program"
  | .provide _ _ _ => "provide"
  | .openConnection _ => "open"
  | .query _ _ => "query"
  | .closeConnection _ => "close"

/-- The action with another handler. -/
def HostAction.map {H K : Type} (f : H → K) : HostAction H → HostAction K
  | .invoke arguments => .invoke arguments
  | .nativeExists name => .nativeExists name
  | .callPublic name arguments => .callPublic name arguments
  | .program => .program
  | .provide name signature handler => .provide name signature (f handler)
  | .openConnection info => .openConnection info
  | .query connection text => .query connection text
  | .closeConnection connection => .closeConnection connection

/-- **What a script gets.** -/
inductive ActionAnswer where
  | invoked (result : Except InvokeError ScriptValue)
  | called (result : Except PublicCallError Cell)
  | program (program : Option ProgramId)
  | provided (result : Except ProvideError Unit)
  | opened (result : Except DatabaseError (ConnectionId × RequestId))
  | queried (result : Option (Except DatabaseError RequestId))
  | truth (value : Bool)

/-- **The part of a bridge that a script can use.** -/
structure Context (F H : Type) where
  registry : Registry F
  invoker : Invoker := {}
  provided : ProvidedNatives H
  publics : PublicCaller := {}
  connections : Connections := {}

namespace Context

variable {F H W : Type}

/-- Provide a native. -/
def provide (context : Context F H) (name signature : String) (handler : H) :
    Except ProvideError Unit × Context F H :=
  match context.provided.register name signature handler with
  | .ok provided => (.ok (), { context with provided })
  | .error e => (.error e, context)

/-- **Do what a script asks for.** -/
def perform (env : Environment F H W) (context : Context F H) (action : HostAction H) (w : W) :
    ActionAnswer × Context F H × W :=
  match action with
  | .invoke arguments =>
    let (result, invoker, registry, w) :=
      context.invoker.invoke (Registry.dispatcher env.native) (context.registry, w) arguments
    (.invoked result, { context with invoker, registry }, w)
  | .nativeExists name => (.truth (context.registry.knows name), context, w)
  | .callPublic name arguments =>
    let (result, publics, w) := context.publics.call env.server name arguments w
    (.called result, { context with publics }, w)
  | .program => (.program context.publics.program, context, w)
  | .provide name signature handler =>
    let (result, context) := context.provide name signature handler
    (.provided result, context, w)
  | .openConnection info =>
    let (result, connections) := context.connections.openWith info
    (.opened result, { context with connections }, w)
  | .query id text =>
    let (result, connections) := context.connections.query id text
    (.queried result, { context with connections }, w)
  | .closeConnection id =>
    let (found, connections, w) := context.connections.close env.driver env.now id w
    (.truth found, { context with connections }, w)

end Context

end ScriptBridge
