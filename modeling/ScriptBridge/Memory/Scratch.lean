import ScriptBridge.Memory.Machine
import ScriptBridge.Signature

/-!
# Scratch memory

A native can be called while no program is loaded. It still wants a machine whose memory
holds its arguments, so the bridge keeps one of its own: a machine without code, all of
whose memory is heap. Its size is that of the largest call there can be, a full length
text for every argument.

Memory is taken from the heap by moving its top, and it is given back in scopes. Closing
a scope puts the top back where it was when the scope was opened, which frees what was
taken since. Cells keep their contents until they are taken again.
-/

namespace ScriptBridge

/-- The number of cells a text argument can take, its terminator included. -/
def maxTextLength : Nat := 2048

/-- **Why scratch memory cannot be used.** A range whose end is no number of 64 bits is not
answered at all: it stops the caller. -/
inductive ScratchError where
  | outOfMemory (requested available : Nat)
  | invalidAddress (address : Cell) (cells : Nat)
  | rangeOverflow (address : Cell) (cells : Nat)
  deriving DecidableEq

/-- The name of the cause. -/
def ScratchError.kind : ScratchError → String
  | .outOfMemory _ _ => "OutOfMemory"
  | .invalidAddress _ _ => "InvalidAddress"
  | .rangeOverflow _ _ => "RangeOverflow"

/-- What is wrong, in words. -/
def ScratchError.message : ScratchError → String
  | .outOfMemory requested available =>
    s!"Synthetic heap exhausted: {requested} cells requested, {available} available"
  | .invalidAddress address cells =>
    s!"Invalid synthetic address {address.toInt} for {cells} cells"
  | .rangeOverflow address cells =>
    s!"The range of {cells} cells at {address.toInt} does not end"

instance : Diagnostic ScratchError := ⟨ScratchError.kind, ScratchError.message⟩

/-- **Scratch memory.** -/
structure Scratch where
  machine : Machine
  deriving Inhabited

namespace Scratch

/-- The number of cells of the heap. -/
def capacity : Nat := Signature.maxSlots * maxTextLength

/-- Scratch memory with an empty heap. -/
def new : Scratch :=
  let last := Cell.ofSize (capacity * Machine.cellSize)
  ⟨{ cells := Array.replicate capacity 0, hasData := true, stackTop := last, stackEnd := last }⟩

/-- The top of the heap, in bytes. -/
def heapTop (s : Scratch) : Cell := s.machine.heapTop

/-- The scratch memory with another heap top. -/
def setHeapTop (s : Scratch) (top : Cell) : Scratch :=
  ⟨{ s.machine with heapTop := top }⟩

/-- The number of cells that can still be taken. -/
def availableCells (s : Scratch) : Nat :=
  Cell.toSize (s.machine.stackTop - s.machine.heapTop) / Machine.cellSize

/-- **Close a scope** that was opened in an earlier state. Cells keep their contents. -/
def closeScope (s opened : Scratch) : Scratch := s.setHeapTop opened.heapTop

/-- **Run in a scope**: whatever happens, the heap top is the same afterwards. -/
def inScope {α : Type} (s : Scratch) (body : Scratch → α × Scratch) : α × Scratch :=
  let (answer, after) := body s
  (answer, after.closeScope s)

/-- Take cells from the heap; the answer is the address of the first. -/
def allocate (s : Scratch) (count : Nat) : Except ScratchError Cell × Scratch :=
  if s.availableCells < count then (.error (.outOfMemory count s.availableCells), s)
  else
    (.ok s.heapTop, s.setHeapTop (s.heapTop + Cell.ofSize (count * Machine.cellSize)))

/-- The index of the first of `count` cells that lie wholly below the heap top. The end of the cells is
checked for overflow. A build without that check lets it wrap around to a number below `start`, and goes on
to call the address invalid if that is still above the heap top. -/
def range (s : Scratch) (address : Cell) (count : Nat) : Except ScratchError Nat :=
  if address < 0 ∨ address % 4 ≠ 0 then .error (.invalidAddress address count)
  else
    let start := address.toInt.toNat / Machine.cellSize
    if UInt64.size ≤ start + count then .error (.rangeOverflow address count)
    else if Cell.toSize s.heapTop / Machine.cellSize < start + count then
      .error (.invalidAddress address count)
    else .ok start

/-- Take cells and fill them. -/
def push (s : Scratch) (values : List Cell) : Except ScratchError Cell × Scratch :=
  match s.allocate values.length with
  | (.error e, s) => (.error e, s)
  | (.ok address, s) =>
    match s.range address values.length with
    | .error e => (.error e, s)
    | .ok start => (.ok address, ⟨s.machine.setCells start values⟩)

/-- **Take a cell** and put a value in it. -/
def pushCell (s : Scratch) (value : Cell) : Except ScratchError Cell × Scratch :=
  s.push [value]

/-- **Take cells for a copy** of a row of cells. -/
def pushCells (s : Scratch) (values : List Cell) : Except ScratchError Cell × Scratch :=
  s.push values

/-- **Take cells** that hold zero. The number is checked before the cells are made. -/
def pushZeros (s : Scratch) (count : Nat) : Except ScratchError Cell × Scratch :=
  if s.availableCells < count then (.error (.outOfMemory count s.availableCells), s)
  else s.push (List.replicate count 0)

/-- **Take cells for a text**, unpacked and with its terminator. -/
def pushText (s : Scratch) (text : String) : Except ScratchError Cell × Scratch :=
  s.push (CellText.unpackedCells (CodePage.encode text))

/-- **Read a cell.** -/
def readCell (s : Scratch) (address : Cell) : Except ScratchError Cell :=
  (s.range address 1).map s.machine.cellAt

/-- **Read cells.** -/
def readCells (s : Scratch) (address : Cell) (count : Nat) : Except ScratchError (List Cell) :=
  (s.range address count).map fun start => s.machine.cellsFrom start count

/-- Bytes put in front of a buffer, cut to leave room for a zero behind them. -/
def terminated (bytes output : List UInt8) : Nat × List UInt8 :=
  let kept := bytes.take (output.length - 1)
  (kept.length, kept ++ (0 :: output.drop (kept.length + 1)).take (output.length - kept.length))

/-- **Read a text** that is stored in `count` cells, into a buffer of bytes. The answer is the
number of bytes and the buffer afterwards. -/
def readText (s : Scratch) (address : Cell) (count : Nat) (output : List UInt8) :
    Except ScratchError (Nat × List UInt8) :=
  (s.range address count).map fun start =>
    terminated (CellText.decode (s.machine.cellsFrom start count)) output

end Scratch

end ScriptBridge
