import ScriptBridge.Interception.Interceptor
import ScriptBridge.Simulation.World

/-!
# Simulated executions

A server that executes pushes the arguments on the stack of the program, has the execution
decided on, and carries the decision out. Its own function answers the code that
was asked for, leaves the slot alone and is counted.

An interceptor by itself is watched: all that it reports goes to the record, and the
callbacks on a list count as handled.
-/

namespace ScriptBridge.Simulation

/-- **An execution that is asked for.** Without a number of its own, as many arguments are noted as
there are on the stack. `slot` is what the slot for the result holds, if there is one. -/
structure Execution where
  program : ProgramId := 0
  index : Cell := 0
  stack : List Cell := []
  pushed : Option Cell := none
  slot : Cell := 0
  original : StatusCode := 0
  withoutSlot : Bool := false
  deriving DecidableEq, Inhabited

/-- **What comes of an execution.** -/
structure ExecutionResult where
  decision : Decision
  code : StatusCode
  slot : Cell
  originalCalls : Nat
  deriving DecidableEq, Inhabited

namespace World

/-- Push the arguments of an execution. -/
def push (w : World) (e : Execution) : World :=
  let count := e.pushed.getD (Cell.ofSize e.stack.length)
  w.setMachine e.program ((w.machine e.program).pushArguments e.stack count)

/-- **Execute**, as `decide` decides. -/
def execute {σ : Type} (w : World) (decide : Program → Cell → World → Decision × σ × World)
    (e : Execution) : ExecutionResult × σ × World :=
  let w := w.push e
  let (decision, s, w) := decide ((w.machine e.program).program e.program) e.index w
  let original (slot : Option Cell) (calls : Nat) : StatusCode × Option Cell × Nat :=
    (e.original, slot, calls + 1)
  let slot := if e.withoutSlot then none else some e.slot
  let (code, slot, originalCalls) := decision.resolve slot original 0
  (⟨decision, code, slot.getD e.slot, originalCalls⟩, s, w)

/-- Let something act on the memory of a program. -/
def onMachine {α : Type} (w : World) (program : ProgramId)
    (act : Machine → World → α × Machine × World) : α × World :=
  let (answer, m, w) := act (w.machine program) w
  (answer, w.setMachine program m)

/-- **Install a hook** and count the attempts. -/
def install {σ : Type} (w : World)
    (hook : HookPort World → World → Except HookError Unit × σ × World) (installed fails : Bool) :
    (Except HookError Unit × Nat) × σ × World :=
  let (result, s, w) := hook (hookPort installed fails) { w with installCalls := 0 }
  ((result, w.installCalls), s, w)

end World

/-- **An interceptor that is watched.** -/
structure Watched where
  interceptor : Interceptor
  handled : List String := []
  quiet : Bool := false

namespace Watched

/-- Where the reports go. A quiet watch leaves the updates of players out. -/
def delegate (s : Watched) : Delegate World where
  programChanged program w := w.note (.told (.programChanged program))
  intercepted callback arguments w :=
    (s.handled.contains callback.name, w.note (.inspected callback arguments))
  playerUpdate player w := if s.quiet then w else w.note (.told (.playerUpdate player))

/-- Inspect an execution. -/
def onExecute (s : Watched) (program : Program) (index : Cell) (w : World) :
    Decision × Watched × World :=
  let (decision, interceptor, w) := s.interceptor.onExecute program index s.delegate w
  (decision, { s with interceptor }, w)

/-- Forget a program. -/
def forget (s : Watched) (program : ProgramId) : Bool × Watched :=
  let (answer, interceptor) := s.interceptor.forget program
  (answer, { s with interceptor })

/-- Install the hook. -/
def install (s : Watched) (port : HookPort World) (w : World) : Except HookError Unit × Watched × World :=
  let (result, interceptor, w) := s.interceptor.install port w
  (result, { s with interceptor }, w)

end Watched

end ScriptBridge.Simulation
