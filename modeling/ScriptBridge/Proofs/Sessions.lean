import ScriptBridge.Proofs.WorkerSteps

/-!
# The life of a connection

Two sides act on a connection in turn. One asks for connections and queries, takes results and
closes; the other is the worker, a step at a time. A `Session` is a connection together with
everything that happened to it: what was asked, what the driver was called with, what was
delivered. It is led by a list of actions in any order, so every interleaving is one of them.

**Operations that are cut.** Results are taken from three queues, one after the other, and the worker
may act in between. So an action takes from one of them, and `takeUpdates` is three actions.
Closing is cut in two: the action only tells the worker to stop, and what the worker does then are
actions of their own, for which the other side waits.

**Steps.** `Session.Step` lists what an action can do, as `Worker.Moves` does for the worker. An
invariant is proved by showing it of a new session and keeping it over each of these steps.
-/

namespace ScriptBridge

variable {W : Type}

namespace Connection

/-! ## Requests -/

theorem connect_closed {c : Connection} (h : c.closed = true) (info : ConnectionInfo) :
    c.connect info = (.error .closed, c) := if_pos h

theorem query_closed {c : Connection} (h : c.closed = true) (text : String) :
    c.query text = (.error .closed, c) := if_pos h

theorem close_closed {W : Type} {c : Connection} (h : c.closed = true) (driver : DatabaseDriver W)
    (now : Nat) (w : W) : c.close driver now w = (c, w) := if_pos h

theorem connect_open {c : Connection} (h : c.closed = false) (info : ConnectionInfo) :
    c.connect info =
      (.ok c.nextConnect,
        { c with
          nextConnect := c.nextConnect + 1
          mailbox := { c.mailbox with connects := c.mailbox.connects ++ [⟨c.nextConnect, info⟩] } }) :=
  if_neg (by rw [h]; decide)

theorem query_open {c : Connection} (h : c.closed = false) (text : String) :
    c.query text =
      (.ok c.nextQuery,
        { c with
          nextQuery := c.nextQuery + 1
          mailbox := { c.mailbox with queries := c.mailbox.queries ++ [⟨c.nextQuery, text⟩] } }) :=
  if_neg (by rw [h]; decide)

end Connection

/-! ## Results -/

namespace ConnectionUpdate

def attempt? : ConnectionUpdate → Option ConnectionAttempt
  | .attempted attempt => some attempt
  | _ => none

def success? : ConnectionUpdate → Option QuerySuccess
  | .succeeded success => some success
  | _ => none

def failure? : ConnectionUpdate → Option QueryFailure
  | .failed failure => some failure
  | _ => none

end ConnectionUpdate

/-- A queue of results. -/
inductive ResultQueue where
  | attempts
  | succeeded
  | failed

namespace Connection

/-- Take at most one result from one of the queues. -/
def takeFrom (c : Connection) : ResultQueue → List ConnectionUpdate × Connection
  | .attempts =>
    ((c.mailbox.attempts.take 1).map .attempted,
      { c with mailbox := { c.mailbox with attempts := c.mailbox.attempts.drop 1 } })
  | .succeeded =>
    ((c.mailbox.succeeded.take 1).map .succeeded,
      { c with mailbox := { c.mailbox with succeeded := c.mailbox.succeeded.drop 1 } })
  | .failed =>
    ((c.mailbox.failed.take 1).map .failed,
      { c with mailbox := { c.mailbox with failed := c.mailbox.failed.drop 1 } })

/-- **Taking results moves them** from the front of a queue to what is delivered. -/
theorem takeFrom_streams (c : Connection) (queue : ResultQueue) :
    (c.takeFrom queue).1.filterMap (·.attempt?) ++ (c.takeFrom queue).2.mailbox.attempts
        = c.mailbox.attempts
      ∧ (c.takeFrom queue).1.filterMap (·.success?) ++ (c.takeFrom queue).2.mailbox.succeeded
        = c.mailbox.succeeded
      ∧ (c.takeFrom queue).1.filterMap (·.failure?) ++ (c.takeFrom queue).2.mailbox.failed
        = c.mailbox.failed := by
  obtain ⟨_, _, ⟨_, _, attempts, succeeded, failed, _, _⟩, _, _, _⟩ := c
  -- a queue has a first result or has none
  cases queue with
  | attempts => cases attempts <;> exact ⟨rfl, rfl, rfl⟩
  | succeeded => cases succeeded <;> exact ⟨rfl, rfl, rfl⟩
  | failed => cases failed <;> exact ⟨rfl, rfl, rfl⟩

/-- Nothing but the queues is touched. -/
theorem takeFrom_other (c : Connection) (queue : ResultQueue) :
    (c.takeFrom queue).2 =
      { c with
        mailbox :=
          { c.mailbox with
            attempts := (c.takeFrom queue).2.mailbox.attempts
            succeeded := (c.takeFrom queue).2.mailbox.succeeded
            failed := (c.takeFrom queue).2.mailbox.failed } } := by
  cases queue <;> rfl

end Connection

/-! ## Sessions -/

/-- **Something that happens to a connection.** The worker takes its step at some time of the clock. -/
inductive SessionAction where
  | connect (info : ConnectionInfo)
  | query (text : String)
  | take (queue : ResultQueue)
  | close
  | work (now : Nat)

/-- **A connection with its history**, in a world of its driver. -/
structure Session (W : Type) where
  connection : Connection
  world : W
  /-- What the driver was called with. -/
  calls : List DriverCall := []
  /-- The requests that were not refused. -/
  connects : List ConnectRequest := []
  queries : List QueryRequest := []
  delivered : List ConnectionUpdate := []

namespace Session

/-- A session in which nothing has happened. -/
def start (timing : Timing) (w : W) : Session W := { connection := { timing }, world := w }

/-- **What an action does.** -/
def act (driver : DatabaseDriver W) (s : Session W) : SessionAction → Session W
  | .connect info =>
    let (answer, connection) := s.connection.connect info
    { s with connection, connects := s.connects ++ (answer.toOption.map (⟨·, info⟩)).toList }
  | .query text =>
    let (answer, connection) := s.connection.query text
    { s with connection, queries := s.queries ++ (answer.toOption.map (⟨·, text⟩)).toList }
  | .take queue =>
    let (updates, connection) := s.connection.takeFrom queue
    { s with connection, delivered := s.delivered ++ updates }
  | .close =>
    if s.connection.closed then s else { s with connection := s.connection.requestStop }
  | .work now =>
    let (connection, world) := s.connection.step driver now s.world
    { s with
      connection
      world
      calls := s.calls ++ (s.connection.worker.call? driver s.world).toList }

/-- **A session led by actions.** -/
def run (driver : DatabaseDriver W) (actions : List SessionAction) (s : Session W) : Session W :=
  actions.foldl (act driver) s

/-- The actions that take at most one result of each kind. -/
def takeUpdates : List SessionAction := [.take .attempts, .take .succeeded, .take .failed]

/-- **Steps of the worker** and nothing else, each at its time. -/
def work (driver : DatabaseDriver W) (times : List Nat) (s : Session W) : Session W :=
  s.run driver (times.map .work)

theorem act_connect_closed {driver : DatabaseDriver W} {s : Session W}
    (h : s.connection.closed = true) {info : ConnectionInfo} : s.act driver (.connect info) = s := by
  simp [act, Connection.connect_closed h, Except.toOption]

theorem act_connect_open {driver : DatabaseDriver W} {s : Session W}
    (h : s.connection.closed = false) {info : ConnectionInfo} :
    s.act driver (.connect info) =
      { s with
        connection := (s.connection.connect info).2
        connects := s.connects ++ [⟨s.connection.nextConnect, info⟩] } := by
  simp [act, Connection.connect_open h, Except.toOption]

theorem act_query_closed {driver : DatabaseDriver W} {s : Session W}
    (h : s.connection.closed = true) {text : String} : s.act driver (.query text) = s := by
  simp [act, Connection.query_closed h, Except.toOption]

theorem act_query_open {driver : DatabaseDriver W} {s : Session W}
    (h : s.connection.closed = false) {text : String} :
    s.act driver (.query text) =
      { s with
        connection := (s.connection.query text).2
        queries := s.queries ++ [⟨s.connection.nextQuery, text⟩] } := by
  simp [act, Connection.query_open h, Except.toOption]

theorem act_close_closed {driver : DatabaseDriver W} {s : Session W}
    (h : s.connection.closed = true) : s.act driver .close = s := if_pos h

theorem act_close_open {driver : DatabaseDriver W} {s : Session W}
    (h : s.connection.closed = false) :
    s.act driver .close = { s with connection := s.connection.requestStop } :=
  if_neg (by rw [h]; decide)

theorem run_append (driver : DatabaseDriver W) (actions more : List SessionAction)
    (s : Session W) : s.run driver (actions ++ more) = (s.run driver actions).run driver more :=
  List.foldl_append

/-- **Taking results of a session takes those of its connection**, if nothing happens in between. -/
theorem run_takeUpdates (driver : DatabaseDriver W) (s : Session W) :
    s.run driver takeUpdates =
      { s with
        connection := s.connection.takeUpdates.2
        delivered := s.delivered ++ s.connection.takeUpdates.1 } := by
  have hdelivered : s.delivered ++ s.connection.takeUpdates.1 =
      s.delivered ++ (s.connection.mailbox.attempts.take 1).map .attempted
        ++ (s.connection.mailbox.succeeded.take 1).map .succeeded
        ++ (s.connection.mailbox.failed.take 1).map .failed := by
    show s.delivered ++ (_ ++ _ ++ _) = _
    rw [List.append_assoc, List.append_assoc, List.append_assoc]
  rw [hdelivered]
  rfl

theorem work_cons (driver : DatabaseDriver W) (now : Nat) (times : List Nat) (s : Session W) :
    s.work driver (now :: times) = (s.act driver (.work now)).work driver times := rfl

theorem work_append (driver : DatabaseDriver W) (times more : List Nat) (s : Session W) :
    s.work driver (times ++ more) = (s.work driver times).work driver more := by
  unfold work
  rw [List.map_append, run_append]

/-- The history is a record: the connection and the world are the same without it. -/
theorem work_connection (driver : DatabaseDriver W) (now : Nat) : ∀ (steps : Nat) (s : Session W),
    s.connection.run driver now steps s.world =
      ((s.work driver (List.replicate steps now)).connection,
        (s.work driver (List.replicate steps now)).world)
  | 0, _ => rfl
  | steps + 1, s => work_connection driver now steps (s.act driver (.work now))

/-- **Closing a connection** is telling the worker to stop and then waiting for it. -/
theorem close_connection (driver : DatabaseDriver W) (now : Nat) {s : Session W}
    (h : s.connection.closed = false) :
    let closed := (s.act driver .close).work driver (List.replicate s.connection.stepsToEnd now)
    s.connection.close driver now s.world = (closed.connection, closed.world) := by
  intro closed
  unfold Connection.close
  rw [if_neg (by rw [h]; decide)]
  have hclosed : closed = ({ s with connection := s.connection.requestStop } : Session W).work
      driver (List.replicate s.connection.stepsToEnd now) := by
    rw [← act_close_open h]
  rw [hclosed]
  exact work_connection driver now _ { s with connection := s.connection.requestStop }

/-! ## Steps of a session -/

/-- **What an action can do to a session.** -/
inductive Step (s : Session W) : Session W → Prop where
  /-- A closed connection refuses requests, and is not closed again. -/
  | refused : s.connection.closed = true → Step s s
  | connect (info : ConnectionInfo) : s.connection.closed = false →
      Step s
        { s with
          connection := (s.connection.connect info).2
          connects := s.connects ++ [⟨s.connection.nextConnect, info⟩] }
  | query (text : String) : s.connection.closed = false →
      Step s
        { s with
          connection := (s.connection.query text).2
          queries := s.queries ++ [⟨s.connection.nextQuery, text⟩] }
  | take (queue : ResultQueue) :
      Step s
        { s with
          connection := (s.connection.takeFrom queue).2
          delivered := s.delivered ++ (s.connection.takeFrom queue).1 }
  | close : s.connection.closed = false → Step s { s with connection := s.connection.requestStop }
  /-- The worker moves, in whatever way the driver and the clock make it. -/
  | work {call : Option DriverCall} {worker : Worker} {m : Mailbox} (w : W) :
      s.connection.worker.Moves s.connection.timing.drainLimit s.connection.mailbox call worker m →
      Step s
        { s with
          connection := { s.connection with worker, mailbox := m }
          world := w
          calls := s.calls ++ call.toList }

/-- **Every action is one of these steps.** -/
theorem act_step (driver : DatabaseDriver W) (s : Session W) (action : SessionAction) :
    s.Step (s.act driver action) := by
  cases action with
  | connect info =>
      cases hclosed : s.connection.closed with
      | true => rw [act_connect_closed hclosed]; exact .refused hclosed
      | false => rw [act_connect_open hclosed]; exact .connect info hclosed
  | query text =>
      cases hclosed : s.connection.closed with
      | true => rw [act_query_closed hclosed]; exact .refused hclosed
      | false => rw [act_query_open hclosed]; exact .query text hclosed
  | take queue => exact .take queue
  | close =>
      cases hclosed : s.connection.closed with
      | true => rw [act_close_closed hclosed]; exact .refused hclosed
      | false => rw [act_close_open hclosed]; exact .close hclosed
  | work now => exact .work _ (s.connection.worker.step_moves driver s.connection.timing now _ _)

/-- **A step of the worker** is a move, and touches nothing else. -/
theorem act_work (driver : DatabaseDriver W) (s : Session W) (now : Nat) :
    ∃ (call : Option DriverCall) (worker : Worker) (m : Mailbox) (w : W),
      s.connection.worker.Moves s.connection.timing.drainLimit s.connection.mailbox call worker m
        ∧ s.act driver (.work now) =
          { s with
            connection := { s.connection with worker, mailbox := m }
            world := w
            calls := s.calls ++ call.toList } :=
  ⟨_, _, _, _, s.connection.worker.step_moves driver s.connection.timing now _ _, rfl⟩

/-- **What holds at the start and is kept by every step holds in every session.** -/
theorem run_invariant {P : Session W → Prop} (hstep : ∀ {s s' : Session W}, P s → s.Step s' → P s')
    (driver : DatabaseDriver W) : ∀ (actions : List SessionAction) {s : Session W}, P s →
      P (s.run driver actions)
  | [], _, h => h
  | action :: actions, s, h =>
      run_invariant hstep driver actions (hstep h (act_step driver s action))

/-- The timing of a worker never changes, and a connection that was closed stays so. -/
theorem Step.settled {s s' : Session W} (hs : s.Step s') :
    s'.connection.timing = s.connection.timing
      ∧ (s.connection.closed = true → s'.connection.closed = true) := by
  cases hs with
  | refused _ => exact ⟨rfl, id⟩
  | connect info hopen => rw [Connection.connect_open hopen]; exact ⟨rfl, id⟩
  | query text hopen => rw [Connection.query_open hopen]; exact ⟨rfl, id⟩
  | take queue => rw [s.connection.takeFrom_other queue]; exact ⟨rfl, id⟩
  | close _ => exact ⟨rfl, fun _ => rfl⟩
  | work _ _ => exact ⟨rfl, id⟩

theorem run_timing (driver : DatabaseDriver W) (actions : List SessionAction) (s : Session W) :
    (s.run driver actions).connection.timing = s.connection.timing :=
  @run_invariant W (fun s' => s'.connection.timing = s.connection.timing)
    (fun h hs => hs.settled.1.trans h) driver actions s rfl

theorem run_closed (driver : DatabaseDriver W) (actions : List SessionAction) {s : Session W}
    (h : s.connection.closed = true) : (s.run driver actions).connection.closed = true :=
  @run_invariant W (fun s' => s'.connection.closed = true) (fun h hs => hs.settled.2 h) driver
    actions s h

/-- **The calls of a session are those that the driver saw.** -/
theorem run_noted (driver : DatabaseDriver W) : ∀ (actions : List SessionAction)
    {s : Session (W × List DriverCommand)}, s.world.2 = s.calls.map (·.command) →
    (s.run driver.noted actions).world.2 = (s.run driver.noted actions).calls.map (·.command)
  | [], _, h => h
  | action :: actions, s, h => by
      refine run_noted driver actions ?_
      cases action with
      | connect info => exact h
      | query text => exact h
      | take queue => exact h
      | close =>
          cases hclosed : s.connection.closed with
          | true => rw [act_close_closed hclosed]; exact h
          | false => rw [act_close_open hclosed]; exact h
      | work now =>
          have hcall := s.connection.worker.step_noted driver s.connection.timing now
            s.connection.mailbox s.world
          show (s.connection.worker.step driver.noted _ now _ s.world).2.2.2 = _
          rw [hcall, h, ← Worker.call?_command driver.noted _ s.world]
          show _ = (s.calls ++ (s.connection.worker.call? driver.noted s.world).toList).map _
          rw [List.map_append, Option.toList_map]

end Session

end ScriptBridge
