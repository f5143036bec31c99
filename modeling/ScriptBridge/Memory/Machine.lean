import ScriptBridge.Memory.CellText
import ScriptBridge.Memory.Image
import ScriptBridge.Text.CodePage

/-!
# The memory of a machine

A machine runs one program. Its data is a row of cells, addressed by byte offsets, and
three cursors divide it: the heap reaches from the start up to `heapTop`, the stack
from `stackTop` up to `stackEnd`. Everything else is out of bounds. An address can be used
if it is aligned and lies in one of the two regions, and then the cells from it up to the
end of its region can be used as well, no further. A machine that has lost sight of its data
can use none of it.

Arguments pushed for the next call are read relative to the top of the stack. That read is
checked against the end of the stack alone, so it need not be aligned.
-/

namespace ScriptBridge

/-- **A machine.** The cells of its data can be used only if it knows where they are, and without
an image there are no public functions. -/
structure Machine where
  cells : Array Cell := #[]
  hasData : Bool := false
  heapTop : Cell := 0
  stackTop : Cell := 0
  stackEnd : Cell := 0
  pushed : Cell := 0
  image : Option Image := none
  deriving Inhabited

namespace Machine

/-- The number of bytes of a cell. -/
def cellSize : Nat := 4

/-- **A machine with a number of cells**, all of them zero. The heap takes half of them, and nothing
is on the stack. -/
def ofSize (cells : Nat) (image : Image) : Machine :=
  let size := Cell.ofSize (cells * cellSize)
  { cells := Array.replicate cells 0
    hasData := true
    heapTop := Cell.ofSize (cells * cellSize / 2)
    stackTop := size
    stackEnd := size
    image := some image }

/-- The machine with other cursors, as far as they are given. -/
def withCursors (m : Machine) (heapTop stackTop stackEnd pushed : Option Cell) : Machine :=
  { m with
    heapTop := heapTop.getD m.heapTop
    stackTop := stackTop.getD m.stackTop
    stackEnd := stackEnd.getD m.stackEnd
    pushed := pushed.getD m.pushed }

/-- The machine without a way to its memory. -/
def detached (m : Machine) : Machine := { m with hasData := false, image := none }

/-- The end of the region that holds an address, if one of them does. -/
def regionEnd? (m : Machine) (address : Cell) : Option Cell :=
  if address < m.heapTop then some m.heapTop
  else if m.stackTop ≤ address ∧ address < m.stackEnd then some m.stackEnd
  else none

/-- **The number of cells that can be used from an address on.** -/
def accessibleCells (m : Machine) (address : Cell) : Nat :=
  if address < 0 ∨ address % 4 ≠ 0 then 0
  else
    match m.regionEnd? address with
    | some last => (last.toInt - address.toInt).toNat / cellSize
    | none => 0

/-- The place in the data of the cell at an address, if it can be used. -/
def index? (m : Machine) (address : Cell) : Option Nat :=
  if m.accessibleCells address ≠ 0 ∧ m.hasData then some (address.toInt.toNat / cellSize) else none

/-- A cell of the data. Behind the data lie zeros. -/
def cellAt (m : Machine) (index : Nat) : Cell := m.cells.getD index 0

/-- **Read a cell.** -/
def read? (m : Machine) (address : Cell) : Option Cell :=
  (m.index? address).map m.cellAt

/-- The machine with a cell of its data replaced. -/
def setCell (m : Machine) (index : Nat) (value : Cell) : Machine :=
  { m with cells := m.cells.setIfInBounds index value }

/-- **Write a cell.** -/
def write? (m : Machine) (address value : Cell) : Option Machine :=
  (m.index? address).map fun index => m.setCell index value

/-- `count` cells of the data from an index on. -/
def cellsFrom (m : Machine) (index count : Nat) : List Cell :=
  (List.range count).map fun i => m.cellAt (index + i)

/-- A row of cells with those from an index on replaced. What lies behind the row is dropped. -/
def overwrite (cells : Array Cell) (index : Nat) : List Cell → Array Cell
  | [] => cells
  | value :: values => overwrite (cells.setIfInBounds index value) (index + 1) values

/-- The machine with the cells from an index on replaced. -/
def setCells (m : Machine) (index : Nat) (values : List Cell) : Machine :=
  { m with cells := overwrite m.cells index values }

/-- **The cells that can be used from an address on.** -/
def cells? (m : Machine) (address : Cell) : Option (List Cell) :=
  (m.index? address).map fun index => m.cellsFrom index (m.accessibleCells address)

/-- **Read a text**, in the bytes of the code page. -/
def readBytes? (m : Machine) (address : Cell) : Option (List UInt8) :=
  (m.cells? address).map CellText.decode

/-- Read a text. -/
def readText? (m : Machine) (address : Cell) : Option String :=
  (m.readBytes? address).map CodePage.decode

/-- **Write a text** into at most `limit` of the cells that can be used. The answer is the
number of cells written. -/
def writeBytes? (m : Machine) (address : Cell) (limit : Option Nat) (bytes : List UInt8) :
    Option (Nat × Machine) :=
  (m.index? address).map fun index =>
    let available := m.accessibleCells address
    let cells := m.cellsFrom index (min (limit.getD available) available)
    let (written, cells) := CellText.encode bytes cells
    (written, m.setCells index (cells.take written))

/-- The byte at an offset from the start of the data. Before the data and behind it lie zeros. -/
def byteAt (m : Machine) (offset : Int) : UInt8 :=
  if offset < 0 then 0
  else
    let place := offset.toNat % cellSize
    ((m.cellAt (offset.toNat / cellSize)).toUInt32 >>> (8 * place).toUInt32).toUInt8

/-- The cell at a byte offset that need not be a multiple of four. Its lowest byte comes first. -/
def unalignedCell (m : Machine) (offset : Int) : Cell :=
  let bytes := (List.range cellSize).map fun (i : Nat) => m.byteAt (offset + i)
  (bytes.foldr (fun byte (n : UInt32) => n <<< 8 ||| byte.toUInt32) 0).toInt32

/-- An integer as a cell, unless it is out of range. -/
def checked? (n : Int) : Option Cell :=
  if -0x80000000 ≤ n ∧ n < 0x80000000 then some (Int32.ofInt n) else none

/-- The address of a pushed argument. The index is cut to the width of a cell first. -/
def argumentAddress? (m : Machine) (index : Nat) : Option Cell :=
  (checked? ((Cell.ofSize index).toInt * cellSize)).bind fun offset =>
    checked? (m.stackTop.toInt + offset.toInt)

/-- **Read a pushed argument.** -/
def argument? (m : Machine) (index : Nat) : Option Cell :=
  (m.argumentAddress? index).bind fun address =>
    if address < m.stackEnd ∧ m.hasData then some (m.unalignedCell address.toInt) else none

/-- The machine with a byte of its data replaced. What lies outside the data is dropped. -/
def setByte (m : Machine) (offset : Int) (byte : UInt8) : Machine :=
  if offset < 0 then m
  else
    let index := offset.toNat / cellSize
    let shift := (8 * (offset.toNat % cellSize)).toUInt32
    let others := (m.cellAt index).toUInt32 &&& ~~~((0xFF : UInt32) <<< shift)
    m.setCell index (others ||| byte.toUInt32 <<< shift).toInt32

/-- The machine with the cell at a byte offset replaced, which need not be a multiple of four. -/
def setUnaligned (m : Machine) (offset : Int) (value : Cell) : Machine :=
  (List.range cellSize).foldl (fun m i =>
    m.setByte (offset + (i : Nat)) (value.toUInt32 >>> (8 * i).toUInt32).toUInt8) m

/-- **Put a row of cells** at a byte offset. -/
def store (m : Machine) (offset : Int) (values : List Cell) : Machine :=
  if 0 ≤ offset ∧ offset % 4 = 0 then m.setCells (offset.toNat / cellSize) values
  else
    (values.foldl (fun (m, offset) value => (setUnaligned m offset value, offset + cellSize))
      (m, offset)).1

/-- **Push arguments** for the next execution, the first of them on top of an empty stack. `count` is
what is noted as their number. -/
def pushArguments (m : Machine) (arguments : List Cell) (count : Cell) : Machine :=
  let top := m.stackEnd - Cell.ofSize (arguments.length * cellSize)
  { m.store top.toInt arguments with stackTop := top, pushed := count }

/-- The number of pushed arguments. -/
def argumentCount (m : Machine) : Nat := m.pushed.toInt.toNat

/-- The names of the public functions, by index. -/
def publicNames (m : Machine) : List String := (m.image.map Image.publicNames).getD []

end Machine

end ScriptBridge
