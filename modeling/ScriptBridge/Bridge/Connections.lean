import ScriptBridge.Database.Connection

/-!
# Open connections

A script may hold several connections at the same time. They are told apart by numbers,
which are given out in order and not used again. What the connections have to report is
taken from all of them in the order of these numbers.
-/

namespace ScriptBridge

/-- The number of a connection. -/
abbrev ConnectionId := UInt32

/-- **The open connections**, by increasing number. -/
structure Connections where
  entries : List (ConnectionId × Connection) := []
  nextId : ConnectionId := 0
  timing : Timing := {}
  deriving Inhabited

namespace Connections

/-- Put a connection under a number, in place of an earlier one. -/
def place (id : ConnectionId) (connection : Connection) :
    List (ConnectionId × Connection) → List (ConnectionId × Connection)
  | [] => [(id, connection)]
  | entry :: rest =>
    if entry.1 = id then (id, connection) :: rest
    else if id < entry.1 then (id, connection) :: entry :: rest
    else entry :: place id connection rest

/-- The connection under a number. -/
def get? (c : Connections) (id : ConnectionId) : Option Connection := c.entries.lookup id

/-- The connections with another one under a number. -/
def set (c : Connections) (id : ConnectionId) (connection : Connection) : Connections :=
  { c with entries := place id connection c.entries }

/-- **Open a connection** and ask it to connect. The answer holds its number and that of the request. -/
def openWith (c : Connections) (info : ConnectionInfo) :
    Except DatabaseError (ConnectionId × RequestId) × Connections :=
  let fresh : Connection := { timing := c.timing }
  match fresh.connect info with
  | (.error e, _) => (.error e, c)
  | (.ok request, connection) =>
    (.ok (c.nextId, request), { c.set c.nextId connection with nextId := c.nextId + 1 })

/-- **Ask a connection to run a query**, if there is such a connection. -/
def query (c : Connections) (id : ConnectionId) (text : String) :
    Option (Except DatabaseError RequestId) × Connections :=
  match c.get? id with
  | none => (none, c)
  | some connection =>
    let (answer, connection) := connection.query text
    (some answer, c.set id connection)

/-- Take what some connections have to report. -/
def takeAll : List (ConnectionId × Connection) →
    List (ConnectionId × ConnectionUpdate) × List (ConnectionId × Connection)
  | [] => ([], [])
  | (id, connection) :: rest =>
    let (updates, connection) := connection.takeUpdates
    let (more, rest) := takeAll rest
    (updates.map (id, ·) ++ more, (id, connection) :: rest)

/-- **Take what the connections have to report**, at most one result of each kind for each of them. -/
def takeUpdates (c : Connections) : List (ConnectionId × ConnectionUpdate) × Connections :=
  let (updates, entries) := takeAll c.entries
  (updates, { c with entries })

variable {W : Type}

/-- **Close a connection**; the answer is whether there was one. -/
def close (driver : ConnectionId → DatabaseDriver W) (now : W → Nat) (c : Connections)
    (id : ConnectionId) (w : W) : Bool × Connections × W :=
  match c.get? id with
  | none => (false, c, w)
  | some connection =>
    let (_, w) := connection.close (driver id) (now w) w
    (true, { c with entries := c.entries.filter fun entry => entry.1 != id }, w)

/-- Close some connections. -/
def closeEach (driver : ConnectionId → DatabaseDriver W) (now : W → Nat) :
    List (ConnectionId × Connection) → W → W
  | [], w => w
  | (id, connection) :: rest, w =>
    let (_, w) := connection.close (driver id) (now w) w
    closeEach driver now rest w

/-- **Close all connections.** -/
def closeAll (driver : ConnectionId → DatabaseDriver W) (now : W → Nat) (c : Connections) (w : W) :
    Connections × W :=
  ({ c with entries := [] }, closeEach driver now c.entries w)

/-- **A step of the worker of a connection.** -/
def step (driver : ConnectionId → DatabaseDriver W) (now : W → Nat) (c : Connections)
    (id : ConnectionId) (w : W) : Connections × W :=
  match c.get? id with
  | none => (c, w)
  | some connection =>
    let (connection, w) := connection.step (driver id) (now w) w
    (c.set id connection, w)

end Connections

end ScriptBridge
