import ScriptBridge.Diagnostic
import ScriptBridge.Database.Worker

/-!
# Connections

A connection as the server's side sees it. Requests never block: they are put into the
mailbox, and what comes of them is taken from there later, at most one result of each kind
at a time. Closing waits for the worker, which ends on its own once it was told to stop.
-/

namespace ScriptBridge

/-- **Why a request is refused.** -/
inductive DatabaseError where
  | closed
  deriving DecidableEq

/-- The name of the cause. -/
def DatabaseError.kind : DatabaseError → String
  | .closed => "Closed"

/-- What is wrong, in words. -/
def DatabaseError.message : DatabaseError → String
  | .closed => "The connection has been closed"

instance : Diagnostic DatabaseError := ⟨DatabaseError.kind, DatabaseError.message⟩

/-- **A result** taken from the mailbox. -/
inductive ConnectionUpdate where
  | attempted (attempt : ConnectionAttempt)
  | succeeded (success : QuerySuccess)
  | failed (failure : QueryFailure)
  deriving DecidableEq

/-- **A connection** with its worker. -/
structure Connection where
  timing : Timing := {}
  worker : Worker := {}
  mailbox : Mailbox := {}
  nextConnect : RequestId := 0
  nextQuery : RequestId := 0
  closed : Bool := false
  deriving Inhabited

namespace Connection

/-- **Ask for a connection.** -/
def connect (c : Connection) (info : ConnectionInfo) : Except DatabaseError RequestId × Connection :=
  if c.closed then (.error .closed, c)
  else
    let request : ConnectRequest := ⟨c.nextConnect, info⟩
    (.ok c.nextConnect,
      { c with
        nextConnect := c.nextConnect + 1
        mailbox := { c.mailbox with connects := c.mailbox.connects ++ [request] } })

/-- **Ask for a query to be run.** -/
def query (c : Connection) (text : String) : Except DatabaseError RequestId × Connection :=
  if c.closed then (.error .closed, c)
  else
    let request : QueryRequest := ⟨c.nextQuery, text⟩
    (.ok c.nextQuery,
      { c with
        nextQuery := c.nextQuery + 1
        mailbox := { c.mailbox with queries := c.mailbox.queries ++ [request] } })

/-- **Take at most one result of each kind**, attempts first and failures last. -/
def takeUpdates (c : Connection) : List ConnectionUpdate × Connection :=
  let m := c.mailbox
  let updates := (m.attempts.take 1).map .attempted ++ (m.succeeded.take 1).map .succeeded ++
    (m.failed.take 1).map .failed
  (updates,
    { c with
      mailbox :=
        { m with
          attempts := m.attempts.drop 1
          succeeded := m.succeeded.drop 1
          failed := m.failed.drop 1 } })

/-- The state that the worker published last. -/
def state (c : Connection) : ConnectionState := c.mailbox.state

/-- Tell the worker to stop, and refuse requests from now on. -/
def requestStop (c : Connection) : Connection :=
  { c with closed := true, mailbox := { c.mailbox with shutdown := true } }

variable {W : Type}

/-- **A step of the worker.** -/
def step (driver : DatabaseDriver W) (now : Nat) (c : Connection) (w : W) : Connection × W :=
  let (worker, mailbox, w) := c.worker.step driver c.timing now c.mailbox w
  ({ c with worker, mailbox }, w)

/-- Steps of the worker at one time. -/
def run (driver : DatabaseDriver W) (now : Nat) : Nat → Connection → W → Connection × W
  | 0, c, w => (c, w)
  | steps + 1, c, w =>
    let (c, w) := c.step driver now w
    run driver now steps c w

/-- A number of steps within which a worker ends that was told to stop: a few to come back to the
head of its loop, two for each query that is left, and two to end. -/
def stepsToEnd (c : Connection) : Nat := 2 * c.mailbox.queries.length + 8

/-- **Close the connection** and wait for the worker. -/
def close (driver : DatabaseDriver W) (now : Nat) (c : Connection) (w : W) : Connection × W :=
  if c.closed then (c, w)
  else c.requestStop.run driver now c.stepsToEnd w

end Connection

end ScriptBridge
