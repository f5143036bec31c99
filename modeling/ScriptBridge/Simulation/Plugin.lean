import ScriptBridge.Plugin.Loading
import ScriptBridge.Simulation.World

/-!
# A simulated server with a plugin

The server executes by recording the index and storing a number derived from it. One index
fails. Another one executes a second index on the way, through the export table.
Registrations are recorded, and the server remembers which place of the plugin's table it got
for a name.
-/

namespace ScriptBridge.Simulation

/-- The natives of the simulation. Those that are not of the plugin have no code. -/
abbrev ServerNative := NativeFunction Unit

/-- The index whose execution fails. -/
def failingIndex : Cell := 99

/-- The index that executes another one on the way. -/
def nestingIndex : Cell := 60

/-- The index that is executed on the way. -/
def nestedIndex : Cell := 2

/-- What the server stores for an index. -/
def storedFor (index : Cell) : Cell := index + 100

/-- An execution that makes no calls. -/
def plainRun (call : ExecCall) : ServerRun ServerNative World :=
  .change (fun w => w.note (.exec call.index))
    (.finish (if call.index = failingIndex then 20 else .success)
      (call.slot.map fun _ => storedFor call.index))

/-- **An execution by the server.** -/
def execRun (call : ExecCall) : ServerRun ServerNative World :=
  if call.index = nestingIndex then
    let inner := { call with index := nestedIndex }
    .change (fun w => w.note (.exec call.index))
      (.exec .table inner plainRun fun code slot =>
        .change (fun w => w.note (.nested code))
          (.finish .success (slot.map fun _ => storedFor call.index)))
  else plainRun call

/-- The natives that the server sees in a registration. A number that is not positive hides all. -/
def seenNatives (call : RegisterCall ServerNative) : List (String × ServerNative) :=
  Registry.upToEnd ((call.list.getD []).take call.number.toInt.toNat)

/-- The place in the table of the plugin that a native is. -/
def placeOf : ServerNative → Option Nat
  | .place slot => some slot
  | .foreign _ => none

/-- **A registration with the server.** It is refused if one of the natives is called `Fail`. -/
def registerRun (call : RegisterCall ServerNative) : ServerRun ServerNative World :=
  let seen := seenNatives call
  let names := seen.map (·.1)
  let places := seen.reverse.map fun native => (native.1, placeOf native.2)
  .change
    (fun w => { w.note (.register names call.number) with registered := places ++ w.registered })
    (.finish (if names.contains "Fail" then .notFound else .success) none)

/-- **Where the code of the simulation lies.** -/
def layout : CodeLayout := ⟨0x10000, 0x20000, 0x30000, 0x40000⟩

/-- The export table and the code of a server, some functions of which may be missing. -/
def serverSpace (missing : List Export) : HookSpace :=
  let entry (e : Export) (address : Address) (table : ExportTable) : ExportTable :=
    if missing.contains e then table else table.store e address
  { table := entry .exec layout.exec (entry .register layout.register (ExportTable.ofList []))
    code := .blank true }

/-- A server without functions for calls of public functions. -/
def noFunctions : ServerFunctions World := ⟨none, none, none, none, none, none⟩

/-- **The outside of a simulated plugin.** -/
def pluginEnvironment : PluginEnvironment Unit World where
  bridge :=
    { native := fun _ m _ w => (0, m, w)
      handler := fun h => nomatch h
      server := noFunctions
      driver := fun _ => .disconnected
      now := fun w => w.clock }
  console := World.consoleHere
  layout := layout
  view program w := (w.machine program).program program

end ScriptBridge.Simulation
