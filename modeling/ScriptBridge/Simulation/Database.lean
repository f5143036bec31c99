import ScriptBridge.Bridge.Basic
import ScriptBridge.Simulation.World

/-!
# A simulated database and its workers

The workers run when somebody waits, and then until they have nothing left to do at that
time. Time passes only while somebody waits for something that has not come yet, and then
it goes on to the next moment at which a worker acts by itself. A query with a gate stops
its worker until the connection is told to stop. A worker that asks for a sign of life in
every turn does nothing else, and once the script has no more to say about these signs
it is left alone.
-/

namespace ScriptBridge.Simulation

/-- The next of some answers. Success follows the last. -/
def nextAnswer : List (Option DriverError) → Except DriverError Unit × List (Option DriverError)
  | [] => (.ok (), [])
  | none :: rest => (.ok (), rest)
  | some e :: rest => (.error e, rest)

namespace ScriptedDatabase

/-- The rule for a query. -/
def rule? (script : ScriptedDatabase) (query : String) : Option QueryRule :=
  script.rules.find? fun rule => rule.start.toList.isPrefixOf query.toList

/-- What comes of a query. Without a word in the script it changes one row. -/
def answer (script : ScriptedDatabase) (query : String) : Except DriverError QueryResult :=
  let rule := script.rule? query
  match rule.bind (·.error), rule.bind (·.result) with
  | some e, _ => .error e
  | none, some result => .ok result
  | none, none => .ok (QueryResult.ofStatement 1 0)

/-- Whether a query waits at a gate. -/
def isGated (script : ScriptedDatabase) (query : String) : Bool :=
  ((script.rule? query).map (·.gate)).getD false

end ScriptedDatabase

/-- **The driver of the simulated database.** -/
def driver : DatabaseDriver World where
  connect info w :=
    let (answer, connects) := nextAnswer w.database.connects
    (answer,
      { w with
        database := { w.database with connects }
        record := { w.record with connects := w.record.connects ++ [info] } })
  ping w :=
    let (answer, pings) := nextAnswer w.database.pings
    (answer, { w with database := { w.database with pings } })
  query text w :=
    (w.database.answer text,
      { w with record := { w.record with executed := w.record.executed ++ [text] } })
  close w := { w with record := { w.record with closes := w.record.closes + 1 } }

/-! ## One connection -/

/-- Whether the worker stands at a gate. -/
def isBlocked (c : Connection) (w : World) : Bool :=
  match c.worker.phase with
  | .running query _ => w.database.isGated query.query && !c.mailbox.shutdown
  | _ => false

/-- Whether the next turns of the worker would change nothing at this time. -/
def isIdle (c : Connection) (w : World) : Bool :=
  c.worker.phase == .top && !c.mailbox.shutdown &&
    match c.worker.request with
    | none => c.mailbox.connects.isEmpty
    | some _ =>
      if !c.worker.connected then !Worker.due c.worker.lastAttempt c.timing.retryInterval w.clock
      else if c.timing.pingInterval = 0 then w.database.pings.isEmpty
      else !Worker.due c.worker.lastPing c.timing.pingInterval w.clock && c.mailbox.queries.isEmpty

/-- Steps of the worker, until it is idle, blocked or gone. -/
def runSteps : Nat → Connection → World → Connection × World
  | 0, c, w => (c, w)
  | steps + 1, c, w =>
    if isIdle c w || isBlocked c w || c.worker.phase == .exited then (c, w)
    else
      let (c, w) := c.step driver w.clock w
      runSteps steps c w

/-- The number of things that the scripts and the mailbox of a connection hold. -/
def World.ahead (w : World) (c : Connection) : Nat :=
  w.database.connects.length + w.database.pings.length + c.mailbox.queries.length

/-- **Let the worker do what it can** at this time. An attempt to connect and a sign of life take up to
four steps each, a query three, and all else no more than a few. -/
def runNow (c : Connection) (w : World) : Connection × World := runSteps (4 * w.ahead c + 16) c w

/-- The next time at which the worker does something of consequence by itself: signs of life have none
once the script has no more to say about them. -/
def wakeTime? (c : Connection) (w : World) : Option Nat :=
  if c.worker.request.isNone || c.worker.phase == .exited then none
  else if !c.worker.connected then c.worker.lastAttempt.map (· + c.timing.retryInterval)
  else if w.database.pings.isEmpty then none
  else c.worker.lastPing.map (· + c.timing.pingInterval)

/-- The earliest of some times. -/
def earliest? (times : List Nat) : Option Nat := times.min?

/-- Let time pass up to a moment. -/
def World.waitUntil (w : World) (time : Nat) : World := { w with clock := max w.clock time }

/-- **Let some milliseconds pass.** -/
def idle : Nat → Connection → World → Connection × World
  | 0, c, w => runNow c w
  | time + 1, c, w =>
    let (c, w) := runNow c w
    idle time c (w.waitUntil (w.clock + 1))

/-- **Wait until the worker stands at a gate.** The number bounds the waits. -/
def waitForGate : Nat → Connection → World → Connection × World
  | 0, c, w => (c, w)
  | waits + 1, c, w =>
    let (c, w) := runNow c w
    if isBlocked c w then (c, w)
    else
      match wakeTime? c w with
      | none => (c, w)
      | some time => waitForGate waits c (w.waitUntil time)

/-- A record of what a connection reported. -/
def Arrivals.add (a : Arrivals) (id : ConnectionId) : ConnectionUpdate → Arrivals
  | .attempted attempt => { a with connects := a.connects ++ [(id, attempt)] }
  | .succeeded success => { a with succeeded := a.succeeded ++ [(id, success)] }
  | .failed failure => { a with failed := a.failed ++ [(id, failure)] }

/-- Whether enough has been reported. -/
def Arrivals.reaches (a : Arrivals) (connects succeeded failed : Nat) : Bool :=
  connects ≤ a.connects.length && succeeded ≤ a.succeeded.length && failed ≤ a.failed.length

/-- The number of queries and of results that wait in the mailbox. -/
def backlog (c : Connection) : Nat :=
  let m := c.mailbox
  m.queries.length + m.attempts.length + m.succeeded.length + m.failed.length

/-- A number of waits within which everything in the scripts happens, and what waits is delivered. -/
def World.patience (w : World) (wanted waiting : Nat) : Nat :=
  2 * (wanted + waiting + w.database.connects.length + w.database.pings.length) + 16

/-- Whether something waits to be taken from the mailbox. -/
def hasReports (c : Connection) : Bool :=
  !(c.mailbox.attempts.isEmpty && c.mailbox.succeeded.isEmpty && c.mailbox.failed.isEmpty)

/-- Let the worker run, and time pass if it has nothing to report even then. -/
def runUntilReport (c : Connection) (w : World) : Connection × World :=
  let (c, w) := runNow c w
  match wakeTime? c w with
  | some time => if hasReports c then (c, w) else runNow c (w.waitUntil time)
  | none => (c, w)

/-- **Take what a connection reports**, once at least, until enough has come. The number bounds the
waits. -/
def pump (connects succeeded failed : Nat) :
    Nat → Arrivals → Connection → World → Arrivals × Connection × World
  | 0, a, c, w => (a, c, w)
  | waits + 1, a, c, w =>
    let (updates, c) := c.takeUpdates
    let a := updates.foldl (fun a update => a.add 0 update) a
    if a.reaches connects succeeded failed then (a, c, w)
    else
      let (c, w) := runUntilReport c w
      pump connects succeeded failed waits a c w

/-- **Wait for reports** of a connection, as many of each kind as are wanted. -/
def awaitUpdates (connects succeeded failed : Nat) (c : Connection) (w : World) :
    Arrivals × Connection × World :=
  pump connects succeeded failed (w.patience (connects + succeeded + failed) (backlog c)) {} c w

/-- **Wait for the worker to reach a gate.** -/
def awaitGate (c : Connection) (w : World) : Connection × World :=
  waitForGate (w.patience 0 (backlog c)) c w

/-! ## All connections of a bridge -/

/-- Let the workers of some connections do what they can. -/
def runEach : List (ConnectionId × Connection) → World → List (ConnectionId × Connection) × World
  | [], w => ([], w)
  | (id, c) :: rest, w =>
    let (c, w) := runNow c w
    let (rest, w) := runEach rest w
    ((id, c) :: rest, w)

variable {F H : Type}

/-- **Let all workers do what they can.** -/
def runWorkers (b : Bridge F H) (w : World) : Bridge F H × World :=
  let connections := b.context.connections
  let (entries, w) := runEach connections.entries w
  ({ b with context := { b.context with connections := { connections with entries } } }, w)

/-- Let time pass until the next worker acts by itself, if one does. -/
def waitForWorkers (b : Bridge F H) (w : World) : World :=
  match earliest? (b.context.connections.entries.filterMap fun entry => wakeTime? entry.2 w) with
  | some time => w.waitUntil time
  | none => w

/-- The number of queries and of results that wait in all mailboxes. -/
def totalBacklog (b : Bridge F H) : Nat :=
  b.context.connections.entries.foldl (fun total entry => total + backlog entry.2) 0

/-- **Wait until the driver was asked often enough.** The number bounds the waits. -/
def settle (connects executed : Nat) : Nat → Bridge F H → World → Bridge F H × World
  | 0, b, w => (b, w)
  | waits + 1, b, w =>
    let (b, w) := runWorkers b w
    if connects ≤ w.record.connects.length ∧ executed ≤ w.record.executed.length then (b, w)
    else settle connects executed waits b (waitForWorkers b w)

/-- Several frames. -/
def frames (env : Environment F H World) (host : Host H World) :
    Nat → Bridge F H → World → Bridge F H × World
  | 0, b, w => (b, w)
  | count + 1, b, w =>
    let (b, w) := b.onFrame env host w
    frames env host count b w

/-- Let the workers run, and time pass if they have nothing to report even then. -/
def runWorkersUntilReport (b : Bridge F H) (w : World) : Bridge F H × World :=
  let (b, w) := runWorkers b w
  if b.context.connections.entries.any fun entry => hasReports entry.2 then (b, w)
  else runWorkers b (waitForWorkers b w)

/-- **Run frames**, one at least, until the world shows that enough has happened. The number bounds
the frames. -/
def pumpFrames (env : Environment F H World) (host : Host H World) (isEnough : World → Bool) :
    Nat → Bridge F H → World → Bridge F H × World
  | 0, b, w => (b, w)
  | waits + 1, b, w =>
    let (b, w) := b.onFrame env host w
    if isEnough w then (b, w)
    else
      let (b, w) := runWorkersUntilReport b w
      pumpFrames env host isEnough waits b w

/-- **Wait until the driver was asked** for connections and queries, and then run as many frames. -/
def settleAndDeliver (env : Environment F H World) (host : Host H World) (connects executed : Nat)
    (b : Bridge F H) (w : World) : Bridge F H × World :=
  let wanted := connects + executed
  let (b, w) := settle connects executed (w.patience wanted (totalBacklog b)) b w
  frames env host wanted b w

/-- **Wait for reports** of all connections, as many of each kind as are wanted. Meanwhile frames are
not recorded, and afterwards nothing is left of the reports. -/
def awaitReports (env : Environment F H World) (host : Host H World) (connects succeeded failed : Nat)
    (b : Bridge F H) (w : World) : Arrivals × Bridge F H × World :=
  let waits := w.patience (connects + succeeded + failed) (totalBacklog b)
  let (b, w) := pumpFrames env host (·.arrivals.reaches connects succeeded failed) waits b
    { w with framesRecorded := false }
  (w.arrivals, b, { w with framesRecorded := true, arrivals := {} })

/-- Whether an event is a line with one of the given starts. -/
def Event.hasStart (starts : List Log.Line) : Event → Bool
  | .printed line => starts.any (·.isPrefixOf line)
  | _ => false

/-- The lines with one of the given starts, in order. -/
def World.linesWith (w : World) (starts : List Log.Line) : List Event :=
  w.history.filter (·.hasStart starts)

/-- How the lines start that announce reports, by kind. -/
def reportStarts : List (List Log.Line) :=
  [[Console.connected, Console.connectionFailed], [Console.queryFinished], [Console.queryFailed]].map
    (·.flatMap (·.lines))

/-- **Wait for reports on the console**, as many lines of each kind as are wanted. The answer holds the
lines by kind, and they are taken out of the record. -/
def awaitLines (env : Environment F H World) (wanted : List Nat) (b : Bridge F H) (w : World) :
    List (List Event) × Bridge F H × World :=
  let lines := wanted.foldl (· + ·) 0
  let isEnough (w : World) := lines ≤ w.events.length &&
    (reportStarts.zip wanted).all fun (starts, count) => count ≤ (w.linesWith starts).length
  let (b, w) :=
    pumpFrames env World.consoleHere.host isEnough (w.patience lines (totalBacklog b)) b w
  (reportStarts.map w.linesWith, b,
    { w with events := w.events.filter fun event => !event.hasStart reportStarts.flatten })

end ScriptBridge.Simulation
