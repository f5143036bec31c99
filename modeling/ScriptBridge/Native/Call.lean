import ScriptBridge.Native.Registry

/-!
# Calls of natives

A native receives a block of cells: the size of the parameters in bytes, then one cell for
each of them. Integers and floats go into the block as they are. Everything else
goes into scratch memory, and its address into the block. After the call the scratch
memory is read back, so that the caller sees what the native wrote.

The arguments are placed in order, and the first that cannot be placed decides the error.
Nothing is called then. Whatever happens, the scratch memory is given back at the end.
-/

namespace ScriptBridge

/-- **A native as code.** It sees a machine and its block of parameters and may change the machine. -/
abbrev Native (W : Type) := Machine → List Cell → W → Cell × Machine × W

/-- **An argument of a native.** References, arrays and buffers hold what the native wrote
once the call is over. A buffer takes a text of the native as bytes with a zero behind them. -/
inductive NativeArgument where
  | integer (value : Cell)
  | float (value : Single)
  | reference (value : Cell)
  | text (value : String)
  | array (values : List Cell)
  | buffer (bytes : List UInt8)
  deriving DecidableEq, Inhabited

/-- The character that describes an argument. -/
def NativeArgument.format : NativeArgument → Char
  | .integer _ => 'i'
  | .float _ => 'f'
  | .reference _ => 'r'
  | .text _ => 's'
  | .array _ => 'a'
  | .buffer _ => 'a'

/-- **Why a native cannot be called.** -/
inductive CallError where
  | unknownFunction (name : String)
  | arrayLength (index lengthIndex : Nat)
  | memory (error : ScratchError)
  deriving DecidableEq

/-- The name of the cause. That of an error of scratch memory stands behind its own. -/
def CallError.kind : CallError → String
  | .unknownFunction _ => "UnknownFunction"
  | .arrayLength _ _ => "ArrayLength"
  | .memory error => "Memory." ++ error.kind

/-- What is wrong, in words. -/
def CallError.message : CallError → String
  | .unknownFunction name => s!"Unknown native function: {name}"
  | .arrayLength index lengthIndex =>
    s!"Argument {index}: the array length at argument {lengthIndex} is invalid"
  | .memory error => error.message

instance : Diagnostic CallError := ⟨CallError.kind, CallError.message⟩

/-- A result of scratch memory as a result of a call. -/
def CallError.ofScratch {α : Type} : Except ScratchError α → Except CallError α
  | .ok a => .ok a
  | .error e => .error (.memory e)

/-- **An argument in its place.** `parameter` is its cell of the block, and `length` the number of
entries of an array that were handed over. -/
structure PlacedArgument where
  argument : NativeArgument
  parameter : Cell
  length : Nat := 0
  deriving Inhabited

/-- **What came of a call.** -/
structure CallOutcome (F W : Type) where
  result : Except CallError Cell
  arguments : List NativeArgument
  registry : Registry F
  world : W

namespace Registry

variable {F : Type}

/-- The length of an array, which is the integer at an index of the arguments. -/
def lengthAt? (arguments : List NativeArgument) (index : Nat) (values : List Cell) : Option Nat :=
  match arguments[index]? with
  | some (.integer length) =>
    if 0 ≤ length ∧ length.toInt.toNat ≤ values.length then some length.toInt.toNat else none
  | _ => none

/-- Place what scratch memory answered for an argument. -/
def placedAt (argument : NativeArgument) (length : Nat) :
    Except ScratchError Cell × Scratch → Except CallError PlacedArgument × Scratch
  | (.ok address, s) => (.ok ⟨argument, address, length⟩, s)
  | (.error e, s) => (.error (.memory e), s)

/-- Place one argument. `lengthIndex` is where its length stands if it is an array. -/
def placeOne (arguments : List NativeArgument) (index lengthIndex : Nat) (argument : NativeArgument)
    (s : Scratch) : Except CallError PlacedArgument × Scratch :=
  match argument with
  | .integer value => (.ok ⟨argument, value, 0⟩, s)
  | .float value => (.ok ⟨argument, Cell.ofSingle value, 0⟩, s)
  | .reference value => placedAt argument 0 (s.pushCell value)
  | .text value => placedAt argument 0 (s.pushText value)
  | .array values =>
    match lengthAt? arguments lengthIndex values with
    | none => (.error (.arrayLength index lengthIndex), s)
    | some length => placedAt argument length (s.pushCells (values.take length))
  | .buffer bytes => placedAt argument 0 (s.pushZeros bytes.length)

/-- Whether an argument is an array. -/
def isArray : NativeArgument → Bool
  | .array _ => true
  | _ => false

/-- **Place arguments** in order. `index` is that of the first of them, and `occurrence` the number of
arrays in front of it. -/
def place (offset : Nat → Nat) (arguments : List NativeArgument) :
    Nat → Nat → List NativeArgument → Scratch → Except CallError (List PlacedArgument) × Scratch
  | _, _, [], s => (.ok [], s)
  | index, occurrence, argument :: rest, s =>
    match placeOne arguments index (index + offset occurrence) argument s with
    | (.error e, s) => (.error e, s)
    | (.ok placed, s) =>
      let occurrence := if isArray argument then occurrence + 1 else occurrence
      match place offset arguments (index + 1) occurrence rest s with
      | (.error e, s) => (.error e, s)
      | (.ok more, s) => (.ok (placed :: more), s)

/-- An argument with what scratch memory holds for it now. -/
def readBackOne (s : Scratch) (placed : PlacedArgument) : Except ScratchError NativeArgument :=
  match placed.argument with
  | .reference _ => (s.readCell placed.parameter).map .reference
  | .array values =>
    (s.readCells placed.parameter placed.length).map fun cells => .array (CellText.overlay cells values)
  | .buffer bytes =>
    (s.readText placed.parameter bytes.length bytes).map fun read => .buffer read.2
  | argument => .ok argument

/-- **Read arguments back** in order. The first that cannot be read ends it, and the rest stay as they were. -/
def readBack (s : Scratch) : List PlacedArgument → Except ScratchError Unit × List NativeArgument
  | [] => (.ok (), [])
  | placed :: rest =>
    match readBackOne s placed with
    | .error e => (.error e, placed.argument :: rest.map (·.argument))
    | .ok argument =>
      let (answer, more) := readBack s rest
      (answer, argument :: more)

/-- The block of parameters of placed arguments. -/
def block (placed : List PlacedArgument) : List Cell :=
  Cell.ofSize (placed.length * Machine.cellSize) :: placed.map (·.parameter)

/-- What the body of a call answers, in the scope of its scratch memory. -/
def callIn {W : Type} (offset : Nat → Nat) (function : Native W) (arguments : List NativeArgument)
    (w : W) (s : Scratch) : (Except CallError Cell × List NativeArgument × W) × Scratch :=
  match place offset arguments 0 0 arguments s with
  | (.error e, s) => ((.error e, arguments, w), s)
  | (.ok placed, s) =>
    let (result, machine, w) := function s.machine (block placed) w
    let s : Scratch := ⟨machine⟩
    let (answer, arguments) := readBack s placed
    ((CallError.ofScratch (answer.map fun () => result), arguments, w), s)

/-- **Call a native by name.** `meaning` gives the code behind a handle. -/
def call {W : Type} (registry : Registry F) (meaning : F → Native W) (name : String)
    (arguments : List NativeArgument) (w : W) : CallOutcome F W :=
  match registry.find? name with
  | none => ⟨.error (.unknownFunction name), arguments, registry, w⟩
  | some handle =>
    let offset := registry.arrayLengths.offset name
    let ((result, arguments, w), scratch) :=
      registry.scratch.inScope (callIn offset (meaning handle) arguments w)
    ⟨result, arguments, { registry with scratch }, w⟩

end Registry

end ScriptBridge
