import ScriptBridge.Memory.Machine

/-!
# Parameters of a native

A program calls a native with a block of cells: the size of the parameters in bytes and
then the parameters. A parameter is a value or the address of something in the memory of
the program. Reading or writing through an address goes no further than the region of memory it
lies in, and an address that cannot be used is left alone.

A program pushes the block on its own stack, so it can lie in the memory that its parameters address.
It is looked at anew for each parameter: what was written into it meanwhile counts.
-/

namespace ScriptBridge

/-- **The block of parameters** of a call, as it is at one time. A null block has no parameters. -/
structure ParameterBlock where
  cells : Option (List Cell)
  deriving DecidableEq, Inhabited

namespace ParameterBlock

/-- A block that holds the given parameters. -/
def ofList (parameters : List Cell) : ParameterBlock :=
  ⟨some (Cell.ofSize (parameters.length * Machine.cellSize) :: parameters)⟩

/-- A block that holds the given parameters behind a size that need not be theirs. -/
def withSize (parameters : List Cell) (size : Option Cell) : ParameterBlock :=
  match size with
  | some size => ⟨some (size :: parameters)⟩
  | none => ofList parameters

/-- The number of parameters, by the size in front of them. -/
def count (block : ParameterBlock) : Nat :=
  match block.cells with
  | some (size :: _) => size.toInt.toNat / Machine.cellSize
  | _ => 0

/-- **The parameter** at an index. -/
def get? (block : ParameterBlock) (index : Nat) : Option Cell :=
  if index < block.count then some (((block.cells.getD []).drop 1).getD index 0) else none

/-- The parameter as a float. -/
def float? (block : ParameterBlock) (index : Nat) : Option Single :=
  (block.get? index).map Cell.toSingle

/-- The text that the parameter addresses. -/
def text? (block : ParameterBlock) (m : Machine) (index : Nat) : Option String :=
  (block.get? index).bind m.readText?

/-- Write the cell that the parameter addresses. -/
def setInteger? (block : ParameterBlock) (m : Machine) (index : Nat) (value : Cell) : Option Machine :=
  (block.get? index).bind fun address => m.write? address value

/-- Write the cell that the parameter addresses, as a float. -/
def setFloat? (block : ParameterBlock) (m : Machine) (index : Nat) (value : Single) : Option Machine :=
  block.setInteger? m index (Cell.ofSingle value)

/-- Write a text to where the parameter points, into no more cells than `capacity`. -/
def setText? (block : ParameterBlock) (m : Machine) (index : Nat) (text : String)
    (capacity : Option Nat) : Option Machine :=
  (block.get? index).bind fun address =>
    (m.writeBytes? address capacity (CodePage.encode text)).map (·.2)

end ParameterBlock

/-- **Where the parameters of a call lie**: apart from the memory of the program, or in it, in the cells
from an index on. -/
inductive Parameters where
  | apart (block : ParameterBlock)
  | inMemory (index : Nat)
  deriving DecidableEq, Inhabited

/-- **The block as it is while the memory is `m`.** -/
def Parameters.block (parameters : Parameters) (m : Machine) : ParameterBlock :=
  match parameters with
  | .apart block => block
  | .inMemory index => ⟨some (m.cells.toList.drop index)⟩

end ScriptBridge
