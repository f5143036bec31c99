import ScriptBridge.Number.Binary

/-!
# Cells

A cell is the only kind of value the bytecode machine has: a signed word of 32 bits.
Addresses are cells too, byte offsets into the data of a program. A cell can hold the
bits of a single precision number, and the machine never knows which cells do.
-/

namespace ScriptBridge

/-- **A cell of program memory.** -/
abbrev Cell := Int32

namespace Cell

/-- The number whose bits the cell holds. -/
def toSingle (c : Cell) : Single := ⟨c.toUInt32⟩

/-- The cell that holds the bits of a number. -/
def ofSingle (x : Single) : Cell := x.bits.toInt32

/-- The cell as a size of 64 bits. A negative cell becomes a size near the top of the range. -/
def toSize (c : Cell) : Nat := c.toInt64.toUInt64.toNat

/-- A size cut to the width of a cell. -/
def ofSize (n : Nat) : Cell := Int32.ofNat n

end Cell

end ScriptBridge
