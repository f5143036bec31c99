import ScriptBridge.Hook.Redirection
import ScriptBridge.Interception.Decision
import ScriptBridge.Memory.Program
import ScriptBridge.Native.Registry

/-!
# Calls of the server's functions

Two functions of the server matter to the plugin: the one that executes a program and the
one that registers natives with it. Whoever calls one of them takes its address from the
export table or has kept it from earlier.

What a function does once it is reached is a `ServerRun`: a tree of effects on the
world and of further calls, which may lead back into the plugin. A nested call carries with
it what the server's function does with the arguments that get through to it. What the server asks
of the plugin itself may come in between, so that a whole session is such a tree as well.
-/

namespace ScriptBridge

/-- **A native that a program can be given**: a place in the table of the plugin, or one of somebody
else, known by a handle of type `F`. -/
inductive NativeFunction (F : Type) where
  | place (slot : Nat)
  | foreign (function : F)
  deriving DecidableEq

/-- **A request to execute.** `slot` is the cell for the result, if the caller wants one. -/
structure ExecCall where
  program : Option ProgramId
  index : Cell
  slot : Option Cell
  deriving DecidableEq, Inhabited

/-- **A request to register natives.** -/
structure RegisterCall (F : Type) where
  program : Option ProgramId
  list : Option (List (NativeEntry F))
  number : Cell

/-- **Where a caller takes an address from.** -/
inductive Route where
  | table
  | kept (address : Address)
  deriving DecidableEq, Inhabited

/-- The address that a caller takes for a function. -/
def Route.address? (route : Route) (space : HookSpace) (e : Export) : Option Address :=
  let address :=
    match route with
    | .table => space.table.address e
    | .kept address => address
  if address = 0 then none else some address

/-- **What a function of the server does.** It ends with a code and with what it leaves in the slot
for the result. -/
inductive ServerRun (F W : Type) where
  | finish (code : StatusCode) (slot : Option Cell)
  | change (effect : W → W) (next : ServerRun F W)
  | look (next : W → ServerRun F W)
  | exec (route : Route) (call : ExecCall) (reached : ExecCall → ServerRun F W)
      (next : StatusCode → Option Cell → ServerRun F W)
  | register (route : Route) (call : RegisterCall F) (reached : RegisterCall F → ServerRun F W)
      (next : StatusCode → ServerRun F W)
  | programLoaded (program : Option ProgramId) (reached : RegisterCall F → ServerRun F W)
      (next : StatusCode → ServerRun F W)
  | programUnloaded (program : Option ProgramId) (next : StatusCode → ServerRun F W)
  | frame (next : ServerRun F W)

/-- **Where code lies**: the functions of the server and those of the plugin that replace them. -/
structure CodeLayout where
  exec : Address
  register : Address
  hookedExec : Address
  hookedRegister : Address
  deriving DecidableEq

/-- **What runs at an address.** -/
inductive Destination where
  | server
  | replacement
  deriving DecidableEq

/-- What runs at an address, given where the server's function and its replacement lie. A jump that
is written over the code leads on, unless it is part of the server's function and leads elsewhere. -/
def HookSpace.destination? (space : HookSpace) (server replacement address : Address) :
    Option Destination :=
  let reached := (Jump.target? (space.code.read address Jump.length)).getD address
  if address = replacement ∨ reached = replacement then some .replacement
  else if address = server ∨ reached = server then some .server
  else none

end ScriptBridge
