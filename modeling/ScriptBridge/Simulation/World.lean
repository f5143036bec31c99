import ScriptBridge.Bridge.Console
import ScriptBridge.Simulation.Script

/-!
# The simulated world

The world holds what is left of the scripts and a record of everything that happened,
the latest first.
-/

namespace ScriptBridge.Simulation

/-- **What a native saw** when it acted on memory. -/
inductive Observation where
  | truth (value : Bool)
  | cell (value : Option Cell)
  | bytes (value : Option (List UInt8))
  | count (value : Option Nat)
  | cells (values : Option (List Cell))
  deriving DecidableEq, Inhabited

/-- **Something that happened.** A call is inspected by an interceptor without a bridge, and a host
is told of what comes through a bridge. -/
inductive Event where
  | native (index : Nat) (block : List Cell) (seen : List Observation)
  | handler (tag : String) (arguments : List ScriptValue)
  | findPublic (name : String)
  | push (value : Cell)
  | pushArray (values : List Cell)
  | pushText (bytes : List UInt8)
  | exec (index : Cell)
  | release (address : Cell)
  | nested (code : StatusCode)
  | register (names : List String) (number : Cell)
  | inspected (callback : Callback) (arguments : Bag)
  | told (event : HostEvent)
  | acted (name : String) (answer : ActionAnswer)
  | printed (line : Log.Line)

/-- **What the database was asked**, in order. -/
structure DatabaseRecord where
  connects : List ConnectionInfo := []
  executed : List String := []
  closes : Nat := 0
  deriving DecidableEq, Inhabited

/-- **What was reported to the host** by connections. -/
structure Arrivals where
  connects : List (ConnectionId × ConnectionAttempt) := []
  succeeded : List (ConnectionId × QuerySuccess) := []
  failed : List (ConnectionId × QueryFailure) := []
  deriving Inhabited

/-- **The world.** The clock counts milliseconds. -/
structure World where
  events : List Event := []
  clock : Nat := 0
  handlers : Array ScriptedHandler := #[]
  server : ScriptedServer := {}
  database : ScriptedDatabase := {}
  record : DatabaseRecord := {}
  arrivals : Arrivals := {}
  framesRecorded : Bool := true
  console : ConsoleState := {}
  installCalls : Nat := 0
  machines : Array Machine := #[]
  registered : List (String × Option Nat) := []
  deriving Inhabited

namespace World

/-- Record an event. -/
def note (w : World) (event : Event) : World := { w with events := event :: w.events }

/-- What happened, in order. -/
def history (w : World) : List Event := w.events.reverse

/-- The world with an empty record. -/
def cleared (w : World) : World := { w with events := [] }

/-- Print lines to the log. -/
def print (w : World) (lines : List Log.Line) : World :=
  lines.foldl (fun w line => w.note (.printed line)) w

/-- A program of the world. -/
def machine (w : World) (program : ProgramId) : Machine := w.machines.getD program {}

/-- The world with a program changed. -/
def setMachine (w : World) (program : ProgramId) (m : Machine) : World :=
  { w with machines := w.machines.setIfInBounds program m }

/-- The console in this world. -/
def consoleHere : Console World where
  log event w := w.print event.lines
  remember change w := { w with console := change w.console }

/-- A hook that is or is not in place, and that may fail to be installed. -/
def hookPort (installed fails : Bool) : HookPort World where
  isInstalled _ := installed
  install w :=
    (if fails then .error .nullTarget else .ok (), { w with installCalls := w.installCalls + 1 })

end World

end ScriptBridge.Simulation
