import ScriptBridge.Interception.Decision
import ScriptBridge.Memory.Program

/-!
# Functions of the server

The server lends functions that work on a loaded program: they find its public functions,
push arguments for the next execution, execute, and give memory back. Each may be missing,
which counts as an error without a code of its own.
-/

namespace ScriptBridge

/-- What a function of the server answers in a world of type `W`. -/
abbrev ServerAnswer (W α : Type) := Except StatusCode α × W

/-- **The functions of the server.** Texts are bytes of the code page without zeros. Functions that
allocate answer the address in the memory of the program. -/
structure ServerFunctions (W : Type) where
  findPublic : Option (ProgramId → List UInt8 → W → ServerAnswer W Cell)
  push : Option (ProgramId → Cell → W → ServerAnswer W Unit)
  pushArray : Option (ProgramId → List Cell → W → ServerAnswer W Cell)
  pushText : Option (ProgramId → List UInt8 → W → ServerAnswer W Cell)
  exec : Option (ProgramId → Cell → W → ServerAnswer W Cell)
  release : Option (ProgramId → Cell → W → ServerAnswer W Unit)

namespace ServerFunctions

variable {W α β : Type}

/-- Call a function of one argument, if there is one. -/
def run (f : Option (ProgramId → α → W → ServerAnswer W β)) (program : ProgramId) (a : α) (w : W) :
    ServerAnswer W β :=
  match f with
  | some f => f program a w
  | none => (.error .general, w)

end ServerFunctions

end ScriptBridge
