import ScriptBridge.Database.Driver

/-!
# The worker of a connection

Drivers block, so a connection has a worker that runs beside the server. The two sides
share a mailbox: requests go down, results come up, each kind in a queue of its own. The
worker's life is a loop. It waits for the first request to connect, connects, and from then
on keeps the connection alive and runs queries. When a connection cannot be made or is
lost, the worker tries again after a while, always with the same request. When it is told
to stop it runs queries that are left, up to a limit and without reporting them, and closes.

The loop is cut into phases so that each touches the mailbox once. Between any two of them
the other side may act. Some phases wait for the driver: `command?` says what it is asked,
and the answer leads to the next phase.
-/

namespace ScriptBridge

/-- The number of a request. Connections and queries are numbered independently, from zero. -/
abbrev RequestId := UInt32

/-- A request to connect. -/
structure ConnectRequest where
  id : RequestId
  info : ConnectionInfo
  deriving DecidableEq

/-- A request to run a query. -/
structure QueryRequest where
  id : RequestId
  query : String
  deriving DecidableEq

/-- What came of an attempt to connect. -/
structure ConnectionAttempt where
  id : RequestId
  succeeded : Bool
  errorCode : Int32
  errorMessage : String
  deriving DecidableEq

/-- A query that succeeded. -/
structure QuerySuccess where
  id : RequestId
  result : QueryResult
  deriving DecidableEq

/-- A query that failed. -/
structure QueryFailure where
  id : RequestId
  errorCode : Int32
  errorMessage : String
  deriving DecidableEq

/-- **The state of a connection**, as the worker publishes it. -/
inductive ConnectionState where
  | disconnected
  | connecting
  | connected
  | closed
  deriving DecidableEq, Inhabited

/-- The name of a state. -/
def ConnectionState.name : ConnectionState → String
  | .disconnected => "disconnected"
  | .connecting => "connecting"
  | .connected => "connected"
  | .closed => "closed"

/-- **How often a worker acts**, in milliseconds, and how many queries it runs once it was told to stop. -/
structure Timing where
  pollInterval : Nat := 25
  retryInterval : Nat := 5000
  pingInterval : Nat := 5000
  drainLimit : Nat := 50
  deriving DecidableEq, Inhabited

/-- **What both sides share.** -/
structure Mailbox where
  connects : List ConnectRequest := []
  queries : List QueryRequest := []
  attempts : List ConnectionAttempt := []
  succeeded : List QuerySuccess := []
  failed : List QueryFailure := []
  state : ConnectionState := .disconnected
  shutdown : Bool := false
  deriving DecidableEq, Inhabited

/-- **Where a worker is in its loop.** `running` holds the number of queries that were drained before
this one, if it belongs to the drain. -/
inductive WorkerPhase where
  | top
  | awake
  | connecting (request : ConnectRequest)
  | reporting (attempt : ConnectionAttempt)
  | pinging
  | dropping
  | running (query : QueryRequest) (drained : Option Nat)
  | draining (count : Nat)
  | closing
  | exited
  deriving DecidableEq, Inhabited

/-- What a driver is asked. -/
inductive DriverCommand where
  | connect (info : ConnectionInfo)
  | ping
  | query (text : String)
  | close
  deriving DecidableEq

/-- **The worker.** Times are those of the last attempt to connect and of the last sign of life. -/
structure Worker where
  phase : WorkerPhase := .top
  request : Option ConnectRequest := none
  connected : Bool := false
  lastAttempt : Option Nat := none
  lastPing : Option Nat := none
  deriving DecidableEq, Inhabited

namespace Worker

/-- Whether an interval is over since a time. Before the first time it always is. The clock shows whole
milliseconds, and between two looks at it some time has always passed: an interval is over as soon
as the clock shows its length, and one of length zero at every look. -/
def due (last : Option Nat) (interval now : Nat) : Bool :=
  match last with
  | none => true
  | some last => interval ≤ now - last

/-- What the worker asks the driver, if it waits for it. -/
def command? (worker : Worker) : Option DriverCommand :=
  match worker.phase with
  | .connecting request => some (.connect request.info)
  | .pinging => some .ping
  | .dropping => some .close
  | .running query _ => some (.query query.query)
  | .closing => some .close
  | _ => none

/-- Go to a phase. -/
def enter (worker : Worker) (phase : WorkerPhase) : Worker := { worker with phase }

/-- Take the first request to connect. -/
def takeRequest (worker : Worker) (m : Mailbox) : Worker × Mailbox :=
  match m.connects with
  | [] => (worker.enter .top, m)
  | request :: rest =>
    ({ worker with request := some request, phase := .top }, { m with connects := rest })

/-- Take the next query. -/
def takeQuery (worker : Worker) (m : Mailbox) : Worker × Mailbox :=
  match m.queries with
  | [] => (worker.enter .top, m)
  | query :: rest => (worker.enter (.running query none), { m with queries := rest })

/-- One turn of the loop: what the worker does next. -/
def turn (timing : Timing) (now : Nat) (worker : Worker) (m : Mailbox) : Worker × Mailbox :=
  match worker.request with
  | none => worker.takeRequest m
  | some request =>
    if !worker.connected then
      if due worker.lastAttempt timing.retryInterval now then
        (worker.enter (.connecting request), { m with state := .connecting })
      else (worker.enter .top, m)
    else if due worker.lastPing timing.pingInterval now then
      ({ worker with lastPing := some now, phase := .pinging }, m)
    else worker.takeQuery m

/-- The end of the drain. -/
def finish (worker : Worker) (m : Mailbox) : Worker × Mailbox :=
  if worker.connected then (worker.enter .closing, m)
  else (worker.enter .exited, { m with state := .closed })

/-- Drain the next query, or end. -/
def drain (timing : Timing) (count : Nat) (worker : Worker) (m : Mailbox) : Worker × Mailbox :=
  if worker.connected ∧ count < timing.drainLimit then
    match m.queries with
    | [] => worker.finish m
    | query :: rest => (worker.enter (.running query (some count)), { m with queries := rest })
  else worker.finish m

/-- **A step that needs no driver.** -/
def proceed (timing : Timing) (now : Nat) (worker : Worker) (m : Mailbox) : Worker × Mailbox :=
  match worker.phase with
  | .top => (worker.enter (if m.shutdown then .draining 0 else .awake), m)
  | .awake => worker.turn timing now m
  | .reporting attempt =>
    ({ worker with lastAttempt := some now, phase := .top },
      { m with attempts := m.attempts ++ [attempt] })
  | .draining count => worker.drain timing count m
  | _ => (worker, m)

/-- **A connection was attempted.** -/
def attempted (now : Nat) (request : ConnectRequest) (answer : Except DriverError Unit) (worker : Worker)
    (m : Mailbox) : Worker × Mailbox :=
  match answer with
  | .ok () =>
    ({ worker with
        connected := true
        lastPing := some now
        phase := .reporting ⟨request.id, true, 0, ""⟩ },
      { m with state := .connected })
  | .error e =>
    (worker.enter (.reporting ⟨request.id, false, e.code, e.message⟩), { m with state := .disconnected })

/-- **The connection was tried for life.** -/
def pinged (answer : Except DriverError Unit) (worker : Worker) : Worker :=
  match answer with
  | .ok () => worker.enter .top
  | .error _ => worker.enter .dropping

/-- **A lost connection was closed.** -/
def dropped (worker : Worker) (m : Mailbox) : Worker × Mailbox :=
  ({ worker with connected := false, phase := .top }, { m with state := .disconnected })

/-- The mailbox with the answer to a query in it. -/
def reported (query : QueryRequest) (answer : Except DriverError QueryResult) (m : Mailbox) : Mailbox :=
  match answer with
  | .ok result => { m with succeeded := m.succeeded ++ [⟨query.id, result⟩] }
  | .error e => { m with failed := m.failed ++ [⟨query.id, e.code, e.message⟩] }

/-- **A query was run.** The answer is reported unless the query was drained. -/
def ran (query : QueryRequest) (drained : Option Nat) (answer : Except DriverError QueryResult)
    (worker : Worker) (m : Mailbox) : Worker × Mailbox :=
  match drained with
  | none => (worker.enter .top, reported query answer m)
  | some count => (worker.enter (.draining (count + 1)), m)

/-- **The connection was closed at the end.** -/
def ended (worker : Worker) (m : Mailbox) : Worker × Mailbox :=
  (worker.enter .exited, { m with state := .closed })

/-- **A step of the worker.** The driver is asked if the phase waits for it. -/
def step {W : Type} (driver : DatabaseDriver W) (timing : Timing) (now : Nat) (worker : Worker)
    (m : Mailbox) (w : W) : Worker × Mailbox × W :=
  match worker.phase with
  | .connecting request =>
    let (answer, w) := driver.connect request.info w
    let (worker, m) := worker.attempted now request answer m
    (worker, m, w)
  | .pinging =>
    let (answer, w) := driver.ping w
    (worker.pinged answer, m, w)
  | .dropping =>
    let w := driver.close w
    let (worker, m) := worker.dropped m
    (worker, m, w)
  | .running query drained =>
    let (answer, w) := driver.query query.query w
    let (worker, m) := worker.ran query drained answer m
    (worker, m, w)
  | .closing =>
    let w := driver.close w
    let (worker, m) := worker.ended m
    (worker, m, w)
  | _ =>
    let (worker, m) := worker.proceed timing now m
    (worker, m, w)

end Worker

end ScriptBridge
