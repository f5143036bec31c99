import ScriptBridge.Bridge.Host
import ScriptBridge.Interception.Interceptor
import ScriptBridge.Settings.Settings

/-!
# The bridge

The bridge owns all parts and leads events from one to the other. The interceptor tells it
of programs and calls. Both reach the host at once, except that a deferred callback is
kept, with its arguments, for the next frame and is never suppressed. A frame delivers the
deferred callbacks, then what the connections report, and then tells the host that it is
over.
-/

namespace ScriptBridge

/-- **The bridge.** -/
structure Bridge (F H : Type) where
  interceptor : Interceptor
  context : Context F H
  deferred : List (Callback × Bag) := []

namespace Bridge

variable {F H W : Type}

/-- A bridge for the given callbacks and natives. -/
def new (settings : Settings) (callbacks : CallbackTable) (natives : List String) : Bridge F H where
  interceptor := { callbacks }
  context := {
    registry := { arrayLengths := settings.arrayLengths }
    provided := { known := natives }
    connections := { timing := settings.timing } }

/-- Use the functions of the server. -/
def setExports (b : Bridge F H) : Bridge F H :=
  { b with context := { b.context with publics := b.context.publics.setExports } }

/-- **What events change**: the context, the deferred callbacks and the world. -/
structure Stage (F H W : Type) where
  context : Context F H
  deferred : List (Callback × Bag)
  world : W

/-- Tell the host of an event; the answer is what the host answers. -/
def tell (env : Environment F H W) (host : Host H W) (event : HostEvent) (s : Stage F H W) :
    Bool × Stage F H W :=
  let (answer, context, world) := (host event).run env s.context s.world
  (answer, { s with context, world })

/-- Target a program with calls of public functions and tell the host. -/
def changeProgram (env : Environment F H W) (host : Host H W) (program : Option ProgramId)
    (s : Stage F H W) : Stage F H W :=
  let context := { s.context with publics := s.context.publics.setProgram program }
  (tell env host (.programChanged program) { s with context }).2

/-- **Who the interceptor reports to.** -/
def delegate (env : Environment F H W) (host : Host H W) : Delegate (Stage F H W) where
  programChanged := changeProgram env host
  intercepted callback arguments s :=
    if callback.deferred then (false, { s with deferred := s.deferred ++ [(callback, arguments)] })
    else tell env host (.callback callback arguments) s
  playerUpdate player s := (tell env host (.playerUpdate player) s).2

/-- The bridge and the world after some events. -/
def after (b : Bridge F H) (s : Stage F H W) : Bridge F H × W :=
  ({ b with context := s.context, deferred := s.deferred }, s.world)

/-- The bridge as events find it. -/
def stage (b : Bridge F H) (w : W) : Stage F H W := ⟨b.context, b.deferred, w⟩

/-- **Inspect an execution.** -/
def onExecute (env : Environment F H W) (host : Host H W) (b : Bridge F H) (program : Program)
    (index : Cell) (w : W) : Decision × Bridge F H × W :=
  let (decision, interceptor, s) :=
    b.interceptor.onExecute program index (delegate env host) (b.stage w)
  (decision, { b with interceptor }.after s)

/-- **A list of natives was registered.** -/
def onRegister (b : Bridge F H) (list : Option (List (NativeEntry F))) (number : Cell) : Bridge F H :=
  { b with context := { b.context with registry := b.context.registry.registerList list number } }

/-- **A program is removed.** The host learns of it if it was the one that is followed. -/
def onProgramUnloaded (env : Environment F H W) (host : Host H W) (b : Bridge F H)
    (program : ProgramId) (w : W) : Bridge F H × W :=
  match b.interceptor.forget program with
  | (false, _) => (b, w)
  | (true, interceptor) => { b with interceptor }.after (changeProgram env host none (b.stage w))

/-- Tell the host of events in their order. -/
def tellAll (env : Environment F H W) (host : Host H W) : List HostEvent → Stage F H W → Stage F H W
  | [], s => s
  | event :: rest, s => tellAll env host rest (tell env host event s).2

/-- The events of a frame. -/
def frameEvents (deferred : List (Callback × Bag)) (updates : List (ConnectionId × ConnectionUpdate)) :
    List HostEvent :=
  (deferred.map fun call => .deferred call.1 call.2) ++ updates.map .ofUpdate ++ [.frame]

/-- **Run a frame.** -/
def onFrame (env : Environment F H W) (host : Host H W) (b : Bridge F H) (w : W) : Bridge F H × W :=
  let (updates, connections) := b.context.connections.takeUpdates
  let s : Stage F H W := ⟨{ b.context with connections }, [], w⟩
  b.after (tellAll env host (frameEvents b.deferred updates) s)

/-- **Act in the context** outside of any event. -/
def withContext {α : Type} (env : Environment F H W) (b : Bridge F H) (plan : Plan H W α) (w : W) :
    α × Bridge F H × W :=
  let (answer, context, w) := plan.run env b.context w
  (answer, { b with context }, w)

/-- Act while a provided native is running. -/
def whileBusy {α : Type} (b : Bridge F H) (body : Bridge F H → α × Bridge F H × W) :
    α × Bridge F H × W :=
  let running (value : Bool) (b : Bridge F H) : Bridge F H :=
    { b with context := { b.context with provided := { b.context.provided with running := value } } }
  let (answer, after, w) := body (running true b)
  (answer, running b.context.provided.running after, w)

/-- **Shut the bridge down**: close the connections and let go of the program. -/
def shutdown (env : Environment F H W) (b : Bridge F H) (w : W) : Bridge F H × W :=
  let (connections, w) := b.context.connections.closeAll env.driver env.now w
  let publics := b.context.publics.setProgram none
  ({ b with context := { b.context with connections, publics }, deferred := [] }, w)

/-- **A step of the worker of a connection**, which runs beside all of this. -/
def stepWorker (env : Environment F H W) (b : Bridge F H) (id : ConnectionId) (w : W) :
    Bridge F H × W :=
  let (connections, w) := b.context.connections.step env.driver env.now id w
  ({ b with context := { b.context with connections } }, w)

end Bridge

end ScriptBridge
