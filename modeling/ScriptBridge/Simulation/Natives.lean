import ScriptBridge.Simulation.World

/-!
# Simulated natives and handlers
-/

namespace ScriptBridge.Simulation

/-- The address of an action, given the parameters. -/
def NativeAction.address (a : NativeAction) (parameters : List Cell) : Cell :=
  (a.parameter.bind (parameters[·]?)).getD 0 + a.offset

/-- What came of a write. -/
def written (m : Machine) (result : Option Machine) : Observation × Machine :=
  (.truth result.isSome, result.getD m)

/-- **Act on memory.** Doubling takes zero for a cell that cannot be read. -/
def MemoryAction.run (action : MemoryAction) (m : Machine) (address : Cell) : Observation × Machine :=
  match action with
  | .write value => written m (m.write? address value)
  | .read => (.cell (m.read? address), m)
  | .double =>
    let value := (m.read? address).getD 0
    written m (m.write? address (value + value))
  | .readText => (.bytes (m.readBytes? address), m)
  | .writeText text capacity =>
    match m.writeBytes? address capacity text with
    | some (count, m) => (.count (some count), m)
    | none => (.count none, m)
  | .cells count => (.cells ((m.cells? address).map (·.take count)), m)

/-- Act on memory several times. -/
def runActions (parameters : List Cell) : List NativeAction → Machine → List Observation × Machine
  | [], m => ([], m)
  | a :: rest, m =>
    let (seen, m) := a.action.run m (a.address parameters)
    let (more, m) := runActions parameters rest m
    (seen :: more, m)

/-- **A native in the world.** -/
def native (natives : Array ScriptedNative) (index : Nat) : Native World := fun m block w =>
  match natives[index]? with
  | none => (0, m, w)
  | some script =>
    let parameters := block.drop 1
    let (seen, m) := runActions parameters script.actions m
    (script.result.getD (parameters.foldl (· + ·) 0), m, w.note (.native index block seen))

/-- Put a handler into the world; the answer is its handle. -/
def World.addHandler (w : World) (handler : ScriptedHandler) : Nat × World :=
  (w.handlers.size, { w with handlers := w.handlers.push handler })

/-- **A handler in the world.** -/
def handler (index : Nat) : Handler World := fun arguments w =>
  match w.handlers[index]? with
  | none => (none, w)
  | some script =>
    let w := w.note (.handler script.tag arguments)
    if script.echo then (some (.array arguments), w)
    else
      match script.results with
      | [] => (none, w)
      | result :: rest =>
        (result, { w with handlers := w.handlers.setIfInBounds index { script with results := rest } })

end ScriptBridge.Simulation
