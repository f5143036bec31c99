import ScriptBridge.Definition.Callbacks
import ScriptBridge.Hook.Error
import ScriptBridge.Interception.Decision
import ScriptBridge.Memory.Program

/-!
# The interceptor

Executions are inspected as they are asked for. The execution of the entry point announces
a program: its public functions are looked up among the declared callbacks, and the
indices of those that are declared are kept. From then on an execution of that program at
a kept index is offered to the delegate, with the arguments read off the stack. The
delegate may suppress it if the callback is cancelable.

One public function is recognised by its name without a declaration, because it runs for
every player many times a second. Only its first argument is read, and it always runs.

Only one program is followed at a time. It is followed until another one is announced,
until it runs a callback that unloads it, or until it is forgotten.
-/

namespace ScriptBridge

/-- **Who receives the events of an interceptor**, with a state of type `D`. -/
structure Delegate (D : Type) where
  programChanged : Option ProgramId → D → D
  intercepted : Callback → Bag → D → Bool × D
  playerUpdate : Cell → D → D

/-- **The interceptor.** `intercepted` leads from the index of a public function to the position of
its declaration. `arguments` is the bag that is used for every call. -/
structure Interceptor where
  callbacks : CallbackTable
  program : Option ProgramId := none
  intercepted : List (Cell × Nat) := []
  playerUpdate : Option Cell := none
  arguments : Bag := {}
  installed : Bool := false

namespace Interceptor

/-- The index that stands for the entry point of a program. -/
def entryPoint : Cell := -1

/-- The public function that is recognised without a declaration. -/
def playerUpdateName : String := "OnPlayerUpdate"

/-- The interceptor without a program. -/
def cleared (i : Interceptor) : Interceptor :=
  { i with program := none, intercepted := [], playerUpdate := none }

/-- **Install the hook** that lets the interceptor see executions. -/
def install {W : Type} (i : Interceptor) (port : HookPort W) (w : W) :
    Except HookError Unit × Interceptor × W :=
  match port.ensure w with
  | (.ok (), w) => (.ok (), { i with installed := true }, w)
  | (.error e, w) => (.error e, i, w)

/-- The positions of the declared names among the public functions, by index. -/
def declared (callbacks : CallbackTable) : Nat → List String → List (Cell × Nat)
  | _, [] => []
  | index, name :: names =>
    if name = playerUpdateName then declared callbacks (index + 1) names
    else
      match callbacks.position? name with
      | some position => (Cell.ofSize index, position) :: declared callbacks (index + 1) names
      | none => declared callbacks (index + 1) names

/-- The index of the function that is recognised by name, the last one of the name. -/
def updateIndex : Nat → List String → Option Cell
  | _, [] => none
  | index, name :: names =>
    match updateIndex (index + 1) names with
    | some found => some found
    | none => if name = playerUpdateName then some (Cell.ofSize index) else none

/-- **Follow a program** from now on. -/
def load (i : Interceptor) (program : Program) : Interceptor :=
  { i with
    program := some program.id
    intercepted := declared i.callbacks 0 program.publicNames
    playerUpdate := updateIndex 0 program.publicNames }

/-- **Forget a program**; the answer is whether it was the one that is followed. -/
def forget (i : Interceptor) (program : ProgramId) : Bool × Interceptor :=
  if i.program = some program then (true, i.cleared) else (false, i)

/-- The value of an argument whose cell was read. -/
def argumentValue? (program : Program) (cell : Cell) : ArgumentKind → Option ArgumentValue
  | .integer => some (.integer cell)
  | .float => some (.float (Cell.toSingle cell))
  | .text => (program.readText? cell).map .text

/-- Read arguments off the stack into a bag, from an index on. Reading stops at the first that
cannot be read, and what was read stays in the bag. -/
def fillBag (program : Program) : Nat → List (String × ArgumentKind) → Bag → Bool × Bag
  | _, [], bag => (true, bag)
  | index, (name, kind) :: rest, bag =>
    match (program.argument? index).bind fun cell => argumentValue? program cell kind with
    | some value => fillBag program (index + 1) rest (bag.insert name value)
    | none => (false, bag)

/-- **Read the arguments of a callback.** The bag is left alone if too few were pushed. -/
def readArguments (program : Program) (callback : Callback) (bag : Bag) : Bool × Bag :=
  if program.argumentCount < callback.arguments.length then (false, bag)
  else fillBag program 0 callback.arguments Bag.empty

/-- The callback declared for an index of the program. -/
def callbackAt? (i : Interceptor) (index : Cell) : Option Callback :=
  (i.intercepted.lookup index).bind i.callbacks.get?

/-- What is done with an execution that the delegate answered. -/
def decide (callback : Callback) (answer : Bool) : Decision :=
  if answer && callback.cancelable then .handled callback.returnValue else .forward

variable {D : Type}

/-- Offer an execution to the delegate, and stop following the program if the callback unloads it. -/
def offer (i : Interceptor) (program : Program) (callback : Callback) (delegate : Delegate D) (d : D) :
    Decision × Interceptor × D :=
  match readArguments program callback i.arguments with
  | (false, bag) => (.forward, { i with arguments := bag }, d)
  | (true, bag) =>
    let i := { i with arguments := bag }
    let (answer, d) := delegate.intercepted callback bag d
    let decision := decide callback answer
    if callback.unloadsProgram then (decision, i.cleared, delegate.programChanged none d)
    else (decision, i, d)

/-- **Inspect an execution** of a program at an index. -/
def onExecute (i : Interceptor) (program : Program) (index : Cell) (delegate : Delegate D) (d : D) :
    Decision × Interceptor × D :=
  if !i.installed then (.forward, i, d)
  else if index = entryPoint then
    let i := i.load program
    (.forward, i, delegate.programChanged i.program d)
  else if i.program ≠ some program.id then (.forward, i, d)
  else if i.playerUpdate = some index then
    match program.argument? 0 with
    | some player => (.forward, i, delegate.playerUpdate player d)
    | none => (.forward, i, d)
  else
    match i.callbackAt? index with
    | none => (.forward, i, d)
    | some callback => i.offer program callback delegate d

end Interceptor

end ScriptBridge
