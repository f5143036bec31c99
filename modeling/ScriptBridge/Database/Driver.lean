import ScriptBridge.Database.Result

/-!
# Database drivers

A driver is what talks to a database. It connects, keeps a connection alive, runs
statements and closes. Drivers of different databases answer errors of the same form, a
code and a text.
-/

namespace ScriptBridge

/-- **An error of a database.** -/
structure DriverError where
  code : Int32
  message : String
  deriving DecidableEq, Inhabited

namespace DriverError

/-- The error in words. -/
def text (error : DriverError) : String := s!"{error.message} (code {error.code.toInt})"

/-- The code of errors that have none. -/
def genericCode : Int32 := -1

/-- An error without a code. -/
def generic (message : String) : DriverError := ⟨genericCode, message⟩

/-- What a driver answers that has never connected. -/
def notConnected : DriverError := generic "Not connected"

/-- What is answered for a column that a result does not have. -/
def invalidColumn (name : String) : DriverError := generic s!"Invalid column name: {name}"

end DriverError

/-- **Where and how to connect.** A database in a file has its path as name and nothing else. -/
structure ConnectionInfo where
  hostname : String := ""
  username : String := ""
  password : String := ""
  database : String := ""
  port : UInt16 := 0
  deriving DecidableEq, Inhabited

/-- The information for a database file. -/
def ConnectionInfo.file (path : String) : ConnectionInfo := { database := path }

/-- **A driver**, with effects in a world of type `W`. -/
structure DatabaseDriver (W : Type) where
  connect : ConnectionInfo → W → Except DriverError Unit × W
  ping : W → Except DriverError Unit × W
  query : String → W → Except DriverError QueryResult × W
  close : W → W

/-- A driver that is not connected to anything. -/
def DatabaseDriver.disconnected {W : Type} : DatabaseDriver W where
  connect _ w := (.error .notConnected, w)
  ping w := (.error .notConnected, w)
  query _ w := (.error .notConnected, w)
  close w := w

end ScriptBridge
