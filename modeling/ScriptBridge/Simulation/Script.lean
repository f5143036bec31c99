import ScriptBridge.Bridge.Context
import ScriptBridge.Memory.Machine

/-!
# Scripts for simulated partners

A bridge can be run without a server. Each of its partners then follows a script: natives
that read and write memory, handlers that answer what they are told to, a server that
fails when it is told to, and a database. The scripts are plain data.
-/

namespace ScriptBridge.Simulation

/-- **What a native does** with the cells at an address. -/
inductive MemoryAction where
  | write (value : Cell)
  | read
  | double
  | readText
  | writeText (text : List UInt8) (capacity : Option Nat)
  | cells (count : Nat)
  deriving DecidableEq, Inhabited

/-- An action, with its address: that in a parameter, if one is named, and an offset. -/
structure NativeAction where
  action : MemoryAction
  parameter : Option Nat := none
  offset : Cell := 0
  deriving DecidableEq, Inhabited

/-- **A native.** Without a result of its own it answers the sum of its parameters. -/
structure ScriptedNative where
  actions : List NativeAction := []
  result : Option Cell := some 1
  deriving DecidableEq, Inhabited

/-- **A handler.** It answers its arguments, or else the results in their order and then nothing. Its
calls are recorded under a tag that means nothing. -/
structure ScriptedHandler where
  tag : String := ""
  results : List (Option ScriptValue) := []
  echo : Bool := false
  deriving Inhabited

/-- **A server** for calls of public functions. `failures` holds the codes of the next calls of each
function, where zero stands for a call that succeeds. -/
structure ScriptedServer where
  publics : List (String × Cell) := []
  returns : List (Cell × Cell) := []
  missing : List String := []
  failures : List (String × List StatusCode) := []
  heapTop : Cell := 0
  deriving DecidableEq, Inhabited

/-- **How a database answers** queries that start in a certain way. A query with a gate is answered
only once the connection is to be closed. -/
structure QueryRule where
  start : String
  error : Option DriverError := none
  result : Option QueryResult := none
  gate : Bool := false
  deriving Inhabited

/-- **A database**: what comes of the next attempts to connect and of the next signs of life, where
nothing stands for success. -/
structure ScriptedDatabase where
  connects : List (Option DriverError) := []
  pings : List (Option DriverError) := []
  rules : List QueryRule := []
  deriving Inhabited

/-- **A host**: the callbacks that it handles, and what it does in each event. -/
structure ScriptedHost where
  handled : List String := []
  onCallback : List (String × List (HostAction ScriptedHandler)) := []
  onDeferred : List (String × List (HostAction ScriptedHandler)) := []
  onUpdate : List (HostAction ScriptedHandler) := []
  onFrame : List (HostAction ScriptedHandler) := []
  onProgram : List (HostAction ScriptedHandler) := []
  deriving Inhabited

end ScriptBridge.Simulation
