import ScriptBridge.Database.Connection

/-!
# What a worker does in one step

A step of the worker looks at its phase and at the mailbox, and in some phases it asks the driver.
Everything that is proved about workers is about sequences of such steps, taken between whatever
the other side does. So the steps are listed once.

**Driver calls.** A driver sees commands: it is told to run a text, and not for which request.
`DriverCall` is a command with the request behind it and with the answer. `Worker.call?` is the
call of a step. That it is the call the step really makes is checked with a driver that notes its
commands.

**Moves.** `Worker.Moves` has one constructor for each thing a step can do, with the conditions
under which it does that. What a driver answers and what the clock shows are left open there, so a
property that every move keeps holds for all drivers and all clocks.
-/

namespace ScriptBridge

/-! ## Calls of drivers -/

/-- **A call of a driver**: what it was asked, for which request, and what it answered. A query may
belong to the drain. -/
inductive DriverCall where
  | connect (request : ConnectRequest) (answer : Except DriverError Unit)
  | ping (answer : Except DriverError Unit)
  | query (request : QueryRequest) (drained : Bool) (answer : Except DriverError QueryResult)
  | close

/-- What the driver sees of a call. -/
def DriverCall.command : DriverCall → DriverCommand
  | .connect request _ => .connect request.info
  | .ping _ => .ping
  | .query request _ _ => .query request.query
  | .close => .close

variable {W : Type}

/-- A driver that notes what it is asked, the latest last. -/
def DatabaseDriver.noted (driver : DatabaseDriver W) : DatabaseDriver (W × List DriverCommand) where
  connect info w :=
    let (answer, next) := driver.connect info w.1
    (answer, next, w.2 ++ [.connect info])
  ping w :=
    let (answer, next) := driver.ping w.1
    (answer, next, w.2 ++ [.ping])
  query text w :=
    let (answer, next) := driver.query text w.1
    (answer, next, w.2 ++ [.query text])
  close w := (driver.close w.1, w.2 ++ [.close])

namespace Worker

/-- **The call of a step**, if the worker waits for the driver. -/
def call? (driver : DatabaseDriver W) (worker : Worker) (w : W) : Option DriverCall :=
  match worker.phase with
  | .connecting request => some (.connect request (driver.connect request.info w).1)
  | .pinging => some (.ping (driver.ping w).1)
  | .dropping => some .close
  | .running query drained => some (.query query drained.isSome (driver.query query.query w).1)
  | .closing => some .close
  | _ => none

/-- The driver sees the command that the worker waits for. -/
theorem call?_command (driver : DatabaseDriver W) (worker : Worker) (w : W) :
    (worker.call? driver w).map (·.command) = worker.command? := by
  unfold call? command?
  cases worker.phase <;> rfl

/-- **A step asks the driver for what the worker waits for and for nothing else.** -/
theorem step_noted (driver : DatabaseDriver W) (timing : Timing) (now : Nat) (worker : Worker)
    (m : Mailbox) (w : W × List DriverCommand) :
    (worker.step driver.noted timing now m w).2.2.2 = w.2 ++ worker.command?.toList := by
  unfold step command?
  cases worker.phase with
  | connecting request => rfl
  | pinging => rfl
  | dropping => rfl
  | running query drained => rfl
  | closing => rfl
  | _ => exact (List.append_nil _).symm

/-! ## Moves -/

@[simp] theorem enter_phase (worker : Worker) (phase : WorkerPhase) :
    (worker.enter phase).phase = phase := rfl

@[simp] theorem enter_request (worker : Worker) (phase : WorkerPhase) :
    (worker.enter phase).request = worker.request := rfl

@[simp] theorem enter_connected (worker : Worker) (phase : WorkerPhase) :
    (worker.enter phase).connected = worker.connected := rfl

/--
**What a step can do.** `Moves limit worker m call worker' m'` says that a worker that drains at
most `limit` queries can go from `worker` and `m` to `worker'` and `m'` with `call` as its call of
the driver.
-/
inductive Moves (limit : Nat) (worker : Worker) (m : Mailbox) :
    Option DriverCall → Worker → Mailbox → Prop where
  /-- The loop goes on unless the worker was told to stop. -/
  | wake : worker.phase = .top → m.shutdown = false →
      Moves limit worker m none (worker.enter .awake) m
  | stop : worker.phase = .top → m.shutdown = true →
      Moves limit worker m none (worker.enter (.draining 0)) m
  /-- There is nothing to do, or it is not the time for it. -/
  | rest : worker.phase = .awake → Moves limit worker m none (worker.enter .top) m
  | take {request : ConnectRequest} {others : List ConnectRequest} : worker.phase = .awake →
      worker.request = none → m.connects = request :: others →
      Moves limit worker m none { worker with request := some request, phase := .top }
        { m with connects := others }
  | attempt {request : ConnectRequest} : worker.phase = .awake → worker.request = some request →
      worker.connected = false →
      Moves limit worker m none (worker.enter (.connecting request)) { m with state := .connecting }
  | check {now : Nat} : worker.phase = .awake → worker.connected = true →
      Moves limit worker m none { worker with lastPing := some now, phase := .pinging } m
  | pick {query : QueryRequest} {others : List QueryRequest} : worker.phase = .awake →
      worker.connected = true → m.queries = query :: others →
      Moves limit worker m none (worker.enter (.running query none)) { m with queries := others }
  /-- An attempt to connect is answered, and then reported. -/
  | opened {request : ConnectRequest} {now : Nat} : worker.phase = .connecting request →
      Moves limit worker m (some (.connect request (.ok ())))
        { worker with
          connected := true
          lastPing := some now
          phase := .reporting ⟨request.id, true, 0, ""⟩ }
        { m with state := .connected }
  | refused {request : ConnectRequest} {e : DriverError} : worker.phase = .connecting request →
      Moves limit worker m (some (.connect request (.error e)))
        (worker.enter (.reporting ⟨request.id, false, e.code, e.message⟩))
        { m with state := .disconnected }
  | report {attempt : ConnectionAttempt} {now : Nat} : worker.phase = .reporting attempt →
      Moves limit worker m none { worker with lastAttempt := some now, phase := .top }
        { m with attempts := m.attempts ++ [attempt] }
  /-- A connection that does not answer any more is closed. -/
  | alive : worker.phase = .pinging →
      Moves limit worker m (some (.ping (.ok ()))) (worker.enter .top) m
  | lost {e : DriverError} : worker.phase = .pinging →
      Moves limit worker m (some (.ping (.error e))) (worker.enter .dropping) m
  | drop : worker.phase = .dropping →
      Moves limit worker m (some .close) { worker with connected := false, phase := .top }
        { m with state := .disconnected }
  /-- A query is answered. The answer is reported in the loop, and dropped in the drain. -/
  | answered {query : QueryRequest} {answer : Except DriverError QueryResult} :
      worker.phase = .running query none →
      Moves limit worker m (some (.query query false answer)) (worker.enter .top)
        (reported query answer m)
  | silent {query : QueryRequest} {count : Nat} {answer : Except DriverError QueryResult} :
      worker.phase = .running query (some count) →
      Moves limit worker m (some (.query query true answer)) (worker.enter (.draining (count + 1))) m
  /-- The drain goes on while there is a connection, and ends at the limit or with the queries. -/
  | next {query : QueryRequest} {others : List QueryRequest} {count : Nat} :
      worker.phase = .draining count → worker.connected = true → count < limit →
      m.queries = query :: others →
      Moves limit worker m none (worker.enter (.running query (some count)))
        { m with queries := others }
  | finish {count : Nat} : worker.phase = .draining count → worker.connected = true →
      limit ≤ count ∨ m.queries = [] → Moves limit worker m none (worker.enter .closing) m
  | leave {count : Nat} : worker.phase = .draining count → worker.connected = false →
      Moves limit worker m none (worker.enter .exited) { m with state := .closed }
  | close : worker.phase = .closing →
      Moves limit worker m (some .close) (worker.enter .exited) { m with state := .closed }
  | stay : worker.phase = .exited → Moves limit worker m none worker m

theorem turn_moves (timing : Timing) (now : Nat) {worker : Worker} (m : Mailbox)
    (hphase : worker.phase = .awake) :
    worker.Moves timing.drainLimit m none (worker.turn timing now m).1 (worker.turn timing now m).2 := by
  unfold turn
  cases hrequest : worker.request with
  | none =>
      unfold takeRequest
      cases hconnects : m.connects with
      | nil => exact .rest hphase
      | cons request others => exact .take hphase hrequest hconnects
  | some request =>
      dsimp only
      cases hconnected : worker.connected with
      | false =>
          rw [if_pos (by decide)]
          split
          · exact .attempt hphase hrequest hconnected
          · exact .rest hphase
      | true =>
          rw [if_neg (by decide)]
          split
          · rw [← hrequest, ← hconnected]
            exact .check hphase hconnected
          · unfold takeQuery
            cases hqueries : m.queries with
            | nil => exact .rest hphase
            | cons query others => exact .pick hphase hconnected hqueries

theorem drain_moves (timing : Timing) {worker : Worker} (m : Mailbox) {count : Nat}
    (hphase : worker.phase = .draining count) :
    worker.Moves timing.drainLimit m none (worker.drain timing count m).1
      (worker.drain timing count m).2 := by
  unfold drain finish
  cases hconnected : worker.connected with
  | false =>
      rw [if_neg (by simp)]
      exact .leave hphase hconnected
  | true =>
      rw [if_pos rfl]
      by_cases hcount : count < timing.drainLimit
      · rw [if_pos ⟨rfl, hcount⟩]
        cases hqueries : m.queries with
        | nil => exact .finish hphase hconnected (Or.inr hqueries)
        | cons query others => exact .next hphase hconnected hcount hqueries
      · rw [if_neg fun h => hcount h.2]
        exact .finish hphase hconnected (Or.inl (Nat.le_of_not_lt hcount))

/-- **Every step is one of these moves**, whatever the driver answers and whatever the time is. -/
theorem step_moves (driver : DatabaseDriver W) (timing : Timing) (now : Nat) (worker : Worker)
    (m : Mailbox) (w : W) :
    worker.Moves timing.drainLimit m (worker.call? driver w)
      (worker.step driver timing now m w).1 (worker.step driver timing now m w).2.1 := by
  unfold step call?
  cases hphase : worker.phase with
  | top =>
      unfold proceed
      simp only [hphase]
      cases hshutdown : m.shutdown with
      | false => exact .wake hphase hshutdown
      | true => exact .stop hphase hshutdown
  | awake =>
      unfold proceed
      simp only [hphase]
      exact turn_moves timing now m hphase
  | connecting request =>
      dsimp only
      cases (driver.connect request.info w).1 with
      | ok _ => exact .opened hphase
      | error e => exact .refused hphase
  | reporting attempt =>
      unfold proceed
      simp only [hphase]
      exact .report hphase
  | pinging =>
      dsimp only
      cases (driver.ping w).1 with
      | ok _ => exact .alive hphase
      | error e => exact .lost hphase
  | dropping => exact .drop hphase
  | running query drained =>
      cases drained with
      | none => exact .answered hphase
      | some count => exact .silent hphase
  | draining count =>
      unfold proceed
      simp only [hphase]
      exact drain_moves timing m hphase
  | closing => exact .close hphase
  | exited =>
      unfold proceed
      simp only [hphase]
      exact .stay hphase

end Worker

end ScriptBridge
