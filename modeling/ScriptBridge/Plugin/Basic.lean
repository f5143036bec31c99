import ScriptBridge.Bridge.Basic
import ScriptBridge.Bridge.Console
import ScriptBridge.Plugin.Calls
import ScriptBridge.Provided.Table

/-!
# The plugin

The plugin is the bridge as the server loads it. While it is loaded, two functions of the
server are redirected to it. An execution is first shown to the bridge, which may answer it;
otherwise it goes on to the function of the server, whose code is lent for the
time of the call. A registration is always passed on.

When it is not loaded the plugin has no way to reach the functions of the server. A caller
that has kept the address of a replacement then gets an error.
-/

namespace ScriptBridge

/-- **What lies outside the plugin.** -/
structure PluginEnvironment (F W : Type) where
  bridge : Environment (NativeFunction F) Empty W
  console : Console W
  layout : CodeLayout
  view : ProgramId → W → Program

/-- **What is installed while the plugin is loaded.** -/
structure Installation where
  exec : Redirection
  register : Redirection
  natives : NativeTable

/-- **The plugin**, together with the export table and the code that it changes. `bound` is the
table whose natives can be called. -/
structure Plugin (F : Type) where
  space : HookSpace
  bridge : Option (Bridge (NativeFunction F) Empty) := none
  installation : Option Installation := none
  bound : Option NativeTable := none

namespace Plugin

variable {F W : Type}

/-- **What the server may ask a plugin for**, as flags: the version of the interface, natives, and a
call in every frame. -/
def supports : UInt32 := 0x0200 ||| 0x10000 ||| 0x20000

/-- The host of the bridge. -/
def host (env : PluginEnvironment F W) : Host Empty W := env.console.host

/-- What the bridge decides on an execution. -/
def decide (env : PluginEnvironment F W) (call : ExecCall) (p : Plugin F) (w : W) :
    Decision × Plugin F × W :=
  match p.bridge, call.program with
  | some bridge, some program =>
    let (decision, bridge, w) :=
      bridge.onExecute env.bridge (host env) (env.view program w) call.index w
    (decision, { p with bridge := some bridge }, w)
  | _, _ => (.forward, p, w)

/-- The error that a function of the server cannot be reached. -/
def unavailable (e : Export) (error : HookError) : Log.Event :=
  ⟨.error, s!"Original amx_{e.name} is unavailable", [("error", .plain error.message)]⟩

/-- **Go on to a function of the server** that is redirected. It is lent for the call. -/
def passOn {α : Type} (env : PluginEnvironment F W) (e : Export) (server replacement : Address)
    (hook : Installation → Redirection) (refused : StatusCode → α)
    (original : Plugin F → W → α × Plugin F × W) (p : Plugin F) (w : W) : α × Plugin F × W :=
  match p.installation with
  | none => (refused .general, p, w)
  | some installation =>
    match (hook installation).lend p.space with
    | .error error => (refused .general, p, env.console.log (unavailable e error) w)
    | .ok (address, space) =>
      match space.destination? server replacement address with
      | some .server =>
        let (answer, p, w) := original { p with space } w
        (answer, { p with space := (hook installation).reclaim p.space }, w)
      | _ => (refused .general, p, w)

/-- **Execute through the plugin.** `original` is what the function of the server does. -/
def hookedExec (env : PluginEnvironment F W) (call : ExecCall)
    (original : ExecCall → Plugin F → W → (StatusCode × Option Cell) × Plugin F × W) (p : Plugin F)
    (w : W) : (StatusCode × Option Cell) × Plugin F × W :=
  let (decision, p, w) := decide env call p w
  let forward (slot : Option Cell) (s : Plugin F × W) : StatusCode × Option Cell × Plugin F × W :=
    let ((code, slot), s) := passOn env .exec env.layout.exec env.layout.hookedExec (·.exec)
      (fun code => (code, slot)) (original { call with slot }) s.1 s.2
    (code, slot, s)
  let (code, slot, s) := decision.resolve call.slot forward (p, w)
  ((code, slot), s)

/-- **Register through the plugin.** -/
def hookedRegister (env : PluginEnvironment F W) (call : RegisterCall (NativeFunction F))
    (original : RegisterCall (NativeFunction F) → Plugin F → W → StatusCode × Plugin F × W)
    (p : Plugin F) (w : W) : StatusCode × Plugin F × W :=
  let p := { p with bridge := p.bridge.map fun bridge => bridge.onRegister call.list call.number }
  passOn env .register env.layout.register env.layout.hookedRegister (·.register) id (original call)
    p w

/-- **Execute** what lies at an address. Where there is no function the answer is an error. -/
def execAt (env : PluginEnvironment F W) (address : Option Address) (call : ExecCall)
    (original : ExecCall → Plugin F → W → (StatusCode × Option Cell) × Plugin F × W) (p : Plugin F)
    (w : W) : (StatusCode × Option Cell) × Plugin F × W :=
  match address.bind (p.space.destination? env.layout.exec env.layout.hookedExec) with
  | some .replacement => hookedExec env call original p w
  | some .server => original call p w
  | none => ((.general, call.slot), p, w)

/-- **Register** with what lies at an address. -/
def registerAt (env : PluginEnvironment F W) (address : Option Address)
    (call : RegisterCall (NativeFunction F))
    (original : RegisterCall (NativeFunction F) → Plugin F → W → StatusCode × Plugin F × W)
    (p : Plugin F) (w : W) : StatusCode × Plugin F × W :=
  match address.bind (p.space.destination? env.layout.register env.layout.hookedRegister) with
  | some .replacement => hookedRegister env call original p w
  | some .server => original call p w
  | none => (.general, p, w)

/-- The line about natives that were registered. -/
def registeredEvent (count : Nat) (code : StatusCode) : Log.Event :=
  ⟨.debug, "Registered provided natives",
    [("natives", .number count), ("result", .number code.toInt)]⟩

/-- The call that registers the table of the plugin. -/
def tableCall (table : NativeTable) (program : Option ProgramId) : RegisterCall (NativeFunction F) :=
  ⟨program, some (table.entries .place), Cell.ofSize table.size⟩

/-- **Give a program the provided natives**, if there are any. `original` is what the function of the
server does with a registration. -/
def provide (env : PluginEnvironment F W) (program : Option ProgramId)
    (original : RegisterCall (NativeFunction F) → Plugin F → W → StatusCode × Plugin F × W)
    (p : Plugin F) (w : W) : StatusCode × Plugin F × W :=
  match p.installation, Route.table.address? p.space .register with
  | some installation, some address =>
    let table := installation.natives
    let (code, p, w) :=
      if table.size = 0 then (.success, p, w)
      else registerAt env (some address) (tableCall table program) original p w
    (code, p, env.console.log (registeredEvent table.size code) w)
  | _, _ => (.success, p, w)

/-- **A program is unloaded.** -/
def onProgramUnloaded (env : PluginEnvironment F W) (program : Option ProgramId) (p : Plugin F)
    (w : W) : StatusCode × Plugin F × W :=
  match p.bridge, program with
  | some bridge, some program =>
    let (bridge, w) := bridge.onProgramUnloaded env.bridge (host env) program w
    (.success, { p with bridge := some bridge }, w)
  | _, _ => (.success, p, w)

/-- **A frame of the server.** -/
def onFrame (env : PluginEnvironment F W) (p : Plugin F) (w : W) : Plugin F × W :=
  match p.bridge with
  | some bridge =>
    let (bridge, w) := bridge.onFrame env.bridge (host env) w
    ({ p with bridge := some bridge }, w)
  | none => (p, w)

/-- **Run a function of the server**, with the calls that it makes. -/
def serve (env : PluginEnvironment F W) :
    ServerRun (NativeFunction F) W → Plugin F → W → (StatusCode × Option Cell) × Plugin F × W
  | .finish code slot, p, w => ((code, slot), p, w)
  | .change effect next, p, w => serve env next p (effect w)
  | .look next, p, w => serve env (next w) p w
  | .exec route call reached next, p, w =>
    let original (call : ExecCall) (p : Plugin F) (w : W) :
        (StatusCode × Option Cell) × Plugin F × W := serve env (reached call) p w
    let ((code, slot), p, w) := execAt env (route.address? p.space .exec) call original p w
    serve env (next code slot) p w
  | .register route call reached next, p, w =>
    let original (call : RegisterCall (NativeFunction F)) (p : Plugin F) (w : W) :
        StatusCode × Plugin F × W :=
      let (answer, p, w) := serve env (reached call) p w
      (answer.1, p, w)
    let (code, p, w) := registerAt env (route.address? p.space .register) call original p w
    serve env (next code) p w
  | .programLoaded program reached next, p, w =>
    let original (call : RegisterCall (NativeFunction F)) (p : Plugin F) (w : W) :
        StatusCode × Plugin F × W :=
      let (answer, p, w) := serve env (reached call) p w
      (answer.1, p, w)
    let (code, p, w) := provide env program original p w
    serve env (next code) p w
  | .programUnloaded program next, p, w =>
    let (code, p, w) := onProgramUnloaded env program p w
    serve env (next code) p w
  | .frame next, p, w =>
    let (p, w) := onFrame env p w
    serve env next p w

/-- **The server executes.** `reached` is what its function does. -/
def exec (env : PluginEnvironment F W) (route : Route) (call : ExecCall)
    (reached : ServerRun (NativeFunction F) W) (p : Plugin F) (w : W) :
    (StatusCode × Option Cell) × Plugin F × W :=
  serve env (.exec route call (fun _ => reached) .finish) p w

/-- **The server registers natives.** -/
def register (env : PluginEnvironment F W) (route : Route) (call : RegisterCall (NativeFunction F))
    (reached : ServerRun (NativeFunction F) W) (p : Plugin F) (w : W) : StatusCode × Plugin F × W :=
  let ((code, _), p, w) :=
    serve env (.register route call (fun _ => reached) fun code => .finish code none) p w
  (code, p, w)

/-- **A program was loaded.** `reached` is what the function of the server does with a registration.
-/
def onProgramLoaded (env : PluginEnvironment F W)
    (reached : RegisterCall (NativeFunction F) → ServerRun (NativeFunction F) W)
    (program : Option ProgramId) (p : Plugin F) (w : W) : StatusCode × Plugin F × W :=
  let ((code, _), p, w) :=
    serve env (.programLoaded program reached fun code => .finish code none) p w
  (code, p, w)

/-- **A program calls the native at a place of the table.** -/
def callNative (env : PluginEnvironment F W) (p : Plugin F) (slot : Nat) (parameters : Parameters)
    (m : Machine) (w : W) : Cell × Machine × W :=
  let provided := (p.bridge.map (·.context.provided)).getD { known := [] }
  NativeTable.dispatch p.bound env.console.log provided env.bridge.handler slot parameters m w

end Plugin

end ScriptBridge
