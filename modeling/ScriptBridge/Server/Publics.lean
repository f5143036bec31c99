import ScriptBridge.Diagnostic
import ScriptBridge.Server.Functions
import ScriptBridge.Text.CodePage
import ScriptBridge.Text.Utf8
import ScriptBridge.Value.Argument

/-!
# Calls of public functions

A public function is called by pushing its arguments in reverse order and executing it.
Texts and arrays take memory of the program, which is given back afterwards: giving back
the first piece gives back all that were taken after it. That is done also when a push or
the execution fails.

The index of a function is asked for once and kept until another program is targeted.
-/

namespace ScriptBridge

/-- **Why a public function could not be called.** -/
inductive PublicCallError where
  | noProgram
  | noExports
  | unknownPublic (name : String)
  | failed (name : String) (code : StatusCode)
  deriving DecidableEq

/-- The name of the cause. -/
def PublicCallError.kind : PublicCallError → String
  | .noProgram => "NoProgram"
  | .noExports => "NoExports"
  | .unknownPublic _ => "UnknownPublic"
  | .failed _ _ => "Runtime"

/-- What is wrong, in words. -/
def PublicCallError.message : PublicCallError → String
  | .noProgram => "No program is loaded"
  | .noExports => "The runtime export table is not available"
  | .unknownPublic name => s!"The program has no public function named {name}"
  | .failed name code => s!"Unable to invoke {name}: runtime error {code.toInt}"

instance : Diagnostic PublicCallError := ⟨PublicCallError.kind, PublicCallError.message⟩

/-- **The caller of public functions.** `hasExports` says whether the functions of the server are known. -/
structure PublicCaller where
  hasExports : Bool := false
  program : Option ProgramId := none
  indices : List (String × Cell) := []
  deriving Inhabited

namespace PublicCaller

variable {W : Type}

/-- **Target a program**, or none. The known indices are dropped if it is another one. -/
def setProgram (caller : PublicCaller) (program : Option ProgramId) : PublicCaller :=
  if caller.program = program then caller else { caller with program, indices := [] }

/-- Use the functions of the server. -/
def setExports (caller : PublicCaller) : PublicCaller := { caller with hasExports := true }

/-- The bytes of a name, unless it holds a zero. -/
def nameBytes? (name : String) : Option (List UInt8) := zeroEnded? (Utf8.encode name)

/-- **Find the index of a function**, and keep it. -/
def findIndex (caller : PublicCaller) (server : ServerFunctions W) (program : ProgramId) (name : String)
    (w : W) : Option Cell × PublicCaller × W :=
  match caller.indices.lookup name with
  | some index => (some index, caller, w)
  | none =>
    match nameBytes? name with
    | none => (none, caller, w)
    | some bytes =>
      match ServerFunctions.run server.findPublic program bytes w with
      | (.ok index, w) => (some index, { caller with indices := (name, index) :: caller.indices }, w)
      | (.error _, w) => (none, caller, w)

/-- A text as the server takes it: in the code page, up to its first zero. Bytes that could not be
handed over would become an empty text. -/
def pushedBytes (text : String) : List UInt8 :=
  (zeroEnded? ((CodePage.encode text).takeWhile (· != 0))).getD []

/-- Push one argument. The answer is the address of memory that was taken for it. -/
def push (server : ServerFunctions W) (program : ProgramId) (argument : ArgumentValue) (w : W) :
    ServerAnswer W (Option Cell) :=
  match argument with
  | .integer value =>
    let (answer, w) := ServerFunctions.run server.push program value w
    (answer.map fun () => none, w)
  | .float value =>
    let (answer, w) := ServerFunctions.run server.push program (Cell.ofSingle value) w
    (answer.map fun () => none, w)
  | .text value =>
    let (answer, w) := ServerFunctions.run server.pushText program (pushedBytes value) w
    (answer.map some, w)
  | .cells values =>
    let cells := values.map fun word => word.toInt32
    let (answer, w) := ServerFunctions.run server.pushArray program cells w
    (answer.map some, w)

/-- Push arguments in the order given, up to the first that fails. The answer holds the address of the
first memory that was taken. -/
def pushAll (server : ServerFunctions W) (program : ProgramId) :
    List ArgumentValue → Option Cell → W → Except StatusCode Unit × Option Cell × W
  | [], first, w => (.ok (), first, w)
  | argument :: rest, first, w =>
    match push server program argument w with
    | (.error code, w) => (.error code, first, w)
    | (.ok taken, w) => pushAll server program rest (first <|> taken) w

/-- Give back the memory that was taken, if any was. Failing to do so changes nothing. -/
def release (server : ServerFunctions W) (program : ProgramId) (first : Option Cell) (w : W) : W :=
  match first with
  | some address => (ServerFunctions.run server.release program address w).2
  | none => w

/-- Push arguments and execute a function. -/
def execute (server : ServerFunctions W) (program : ProgramId) (index : Cell)
    (arguments : List ArgumentValue) (w : W) : ServerAnswer W Cell :=
  match pushAll server program arguments.reverse none w with
  | (.error code, first, w) => (.error code, release server program first w)
  | (.ok (), first, w) =>
    let (answer, w) := ServerFunctions.run server.exec program index w
    (answer, release server program first w)

/-- **Call a public function** of the targeted program. -/
def call (caller : PublicCaller) (server : ServerFunctions W) (name : String)
    (arguments : List ArgumentValue) (w : W) : Except PublicCallError Cell × PublicCaller × W :=
  match caller.program with
  | none => (.error .noProgram, caller, w)
  | some program =>
    if !caller.hasExports then (.error .noExports, caller, w)
    else
      match caller.findIndex server program name w with
      | (none, caller, w) => (.error (.unknownPublic name), caller, w)
      | (some index, caller, w) =>
        match execute server program index arguments w with
        | (.ok value, w) => (.ok value, caller, w)
        | (.error code, w) => (.error (.failed name code), caller, w)

end PublicCaller

end ScriptBridge
