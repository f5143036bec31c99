import ScriptBridge.Simulation.World

/-!
# A simulated server for calls of public functions

Memory that is pushed is taken from the heap, whose top moves up by four bytes for each cell,
and giving it back moves the top down.
-/

namespace ScriptBridge.Simulation

namespace World

/-- The next code of a function of the server. -/
def nextFailure (name : String) :
    List (String × List StatusCode) → StatusCode × List (String × List StatusCode)
  | [] => (.success, [])
  | (key, codes) :: rest =>
    if key = name then (codes.headD .success, (key, codes.drop 1) :: rest)
    else
      let (code, rest) := nextFailure name rest
      (code, (key, codes) :: rest)

/-- **Call a function of the server.** It is recorded, and then fails as the script says or succeeds. -/
def serve {α : Type} (name : String) (event : Event) (answer : World → ServerAnswer World α)
    (w : World) : ServerAnswer World α :=
  let (code, failures) := nextFailure name w.server.failures
  let w := { w.note event with server := { w.server with failures } }
  if code = .success then answer w else (.error code, w)

/-- Take cells from the heap; the answer is the address of the first. -/
def take (count : Nat) (w : World) : ServerAnswer World Cell :=
  let top := w.server.heapTop
  (.ok top, { w with server := { w.server with heapTop := top + Cell.ofSize (4 * count) } })

/-- A function, unless the server lacks it. -/
def present {α : Type} (script : ScriptedServer) (name : String) (f : α) : Option α :=
  if script.missing.contains name then none else some f

end World

open World

/-- **The functions of a server.** -/
def ScriptedServer.functions (script : ScriptedServer) : ServerFunctions World where
  findPublic := present script "find_public" fun _ bytes =>
    let name := Utf8.lossy bytes
    serve "find_public" (.findPublic name) fun w =>
      match script.publics.lookup name with
      | some index => (.ok index, w)
      | none => (.error .notFound, w)
  push := present script "push" fun _ value => serve "push" (.push value) fun w => (.ok (), w)
  pushArray := present script "push_array" fun _ values =>
    serve "push_array" (.pushArray values) (take values.length)
  pushText := present script "push_string" fun _ bytes =>
    serve "push_string" (.pushText bytes) (take (bytes.length + 1))
  exec := present script "exec" fun _ index =>
    serve "exec" (.exec index) fun w => (.ok ((script.returns.lookup index).getD 1), w)
  release := present script "release" fun _ address =>
    serve "release" (.release address) fun w =>
      (.ok (), { w with server := { w.server with heapTop := address } })

end ScriptBridge.Simulation
