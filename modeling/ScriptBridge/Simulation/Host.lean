import ScriptBridge.Simulation.Database
import ScriptBridge.Simulation.Execution
import ScriptBridge.Simulation.Natives
import ScriptBridge.Simulation.Server

/-!
# Simulated hosts

A scripted host records every event and then does what the script says, recording what
comes of each action. What connections report is collected apart from that. While somebody
waits for such reports, frames leave no trace.
-/

namespace ScriptBridge.Simulation

/-- Ask for something. A handler is first put into the world. -/
def ask {α : Type} (action : HostAction ScriptedHandler) (next : ActionAnswer → Plan Nat World α) :
    Plan Nat World α :=
  match action with
  | .provide _ _ handler =>
    .look fun w =>
      .change (fun w => (w.addHandler handler).2)
        (.act (action.map fun _ => w.handlers.size) next)
  | action => .act (action.map fun _ => 0) next

/-- **Ask for several things**; the answer holds what came of each. -/
def askAll : List (HostAction ScriptedHandler) → Plan Nat World (List ActionAnswer)
  | [] => .done []
  | action :: rest => ask action fun answer => (askAll rest).map (answer :: ·)

/-- Ask for several things and record what came of each. -/
def askRecorded {α : Type} (last : α) : List (HostAction ScriptedHandler) → Plan Nat World α
  | [] => .done last
  | action :: rest =>
    ask action fun answer =>
      .change (fun w => w.note (.acted action.name answer)) (askRecorded last rest)

/-- Record an event and do what the script says. -/
def recorded (event : HostEvent) (actions : List (HostAction ScriptedHandler)) (answer : Bool) :
    Plan Nat World Bool :=
  .change (fun w => w.note (.told event)) (askRecorded answer actions)

/-- Collect what a connection reports. -/
def collected (id : ConnectionId) (update : ConnectionUpdate) : Plan Nat World Bool :=
  .change (fun w => { w with arrivals := w.arrivals.add id update }) (.done false)

/-- What the script says for a name. -/
def actionsFor (name : String) (table : List (String × List (HostAction ScriptedHandler))) :
    List (HostAction ScriptedHandler) :=
  (table.lookup name).getD []

/-- **A scripted host.** -/
def ScriptedHost.host (script : ScriptedHost) : Host Nat World
  | .programChanged program => recorded (.programChanged program) script.onProgram false
  | .callback callback arguments =>
    recorded (.callback callback arguments) (actionsFor callback.name script.onCallback)
      (script.handled.contains callback.name)
  | .playerUpdate player => recorded (.playerUpdate player) script.onUpdate false
  | .deferred callback arguments =>
    recorded (.deferred callback arguments) (actionsFor callback.name script.onDeferred) false
  | .frame =>
    .look fun w => if w.framesRecorded then recorded .frame script.onFrame false else .done false
  | .attempted id attempt => collected id (.attempted attempt)
  | .succeeded id success => collected id (.succeeded success)
  | .failed id failure => collected id (.failed failure)

/-- **A host that records callbacks** and ignores all else. -/
def minimalHost : Host Nat World
  | .callback callback arguments => recorded (.callback callback arguments) [] false
  | _ => .done false

/-- **The outside of a simulated bridge.** -/
def environment (natives : Array ScriptedNative) (server : ScriptedServer) :
    Environment Nat Nat World where
  native := native natives
  handler := handler
  server := server.functions
  driver _ := driver
  now w := w.clock

/-- **A bridge with natives** that the server registered. It sees executions, and with `exports` it
calls public functions. -/
def bridge (settings : Settings) (callbacks : CallbackTable) (provided : List String)
    (registered : List (String × Nat)) (exports : Bool) : Bridge Nat Nat :=
  let b : Bridge Nat Nat := .new settings callbacks provided
  let b :=
    { b with
      interceptor := { b.interceptor with installed := true }
      context := { b.context with registry := b.context.registry.register registered } }
  if exports then b.setExports else b

/-- **A context by itself.** -/
def context (arrayLengths : List (String × List Nat)) (provided : List String) : Context Nat Nat where
  registry := { arrayLengths := .ofList arrayLengths }
  provided := { known := provided }

end ScriptBridge.Simulation
