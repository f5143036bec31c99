import ScriptBridge.Value.Cell

/-!
# Texts in cells

A text in program memory is a row of cells that ends with a zero. It is stored in one of
two layouts. Unpacked, each cell holds one byte. Packed, each cell holds four bytes, the
first of them in the highest place. The first cell tells the layouts apart: in a packed
text its highest byte is not zero, and an unpacked cell is never that large.

The library writes only unpacked texts and reads both kinds. Reading stops at the
terminator or at the end of the row.
-/

namespace ScriptBridge.CellText

/-- The cell of one byte. -/
def ofByte (b : UInt8) : Cell := b.toUInt32.toInt32

/-- The byte in the lowest place of a cell. -/
def toByte (c : Cell) : UInt8 := c.toUInt32.toUInt8

/-- Whether a text that starts with this cell is packed. -/
def isPacked (first : Cell) : Bool := 0x00FFFFFF < first.toUInt32

/-- The four bytes of a packed cell, the highest first. -/
def packedBytes (c : Cell) : List UInt8 :=
  let word := c.toUInt32
  [(word >>> 24).toUInt8, (word >>> 16).toUInt8, (word >>> 8).toUInt8, word.toUInt8]

/-- The cell of four bytes, the first of them in the highest place. -/
def ofBytes (a b c d : UInt8) : Cell :=
  ((a.toUInt32 <<< 24) ||| (b.toUInt32 <<< 16) ||| (c.toUInt32 <<< 8) ||| d.toUInt32).toInt32

/-- **A text in unpacked cells**, with its terminator. -/
def unpackedCells (bytes : List UInt8) : List Cell := bytes.map ofByte ++ [0]

/-- **A text in packed cells**, with its terminator and with zeros up to a whole cell. -/
def packedCells : List UInt8 → List Cell
  | [] => [0]
  | [a] => [ofBytes a 0 0 0]
  | [a, b] => [ofBytes a b 0 0]
  | [a, b, c] => [ofBytes a b c 0]
  | a :: b :: c :: d :: rest => ofBytes a b c d :: packedCells rest

/-- Cells written in front of others: what was there stays behind them. -/
def overlay (written cells : List Cell) : List Cell := written ++ cells.drop written.length

/-- **Write a text** into a row of cells, cut to what fits in front of its terminator. The
answer is the number of cells written and the row afterwards. A row without cells takes nothing. -/
def encode (bytes : List UInt8) (cells : List Cell) : Nat × List Cell :=
  match cells with
  | [] => (0, [])
  | _ :: _ =>
    let written := unpackedCells (bytes.take (cells.length - 1))
    (written.length, overlay written cells)

/-- Append the bytes of unpacked cells up to the terminator. -/
def unpackedOnto (output : Array UInt8) : List Cell → Array UInt8
  | [] => output
  | c :: cs => if c = 0 then output else unpackedOnto (output.push (toByte c)) cs

/-- Append bytes up to the terminator. In packed cells it may be any byte of a cell. -/
def bytesOnto (output : Array UInt8) : List UInt8 → Array UInt8
  | [] => output
  | b :: bs => if b = 0 then output else bytesOnto (output.push b) bs

/-- **Read a text** from a row of cells and append it to an output. -/
def decodeOnto (output : Array UInt8) (cells : List Cell) : Array UInt8 :=
  match cells with
  | [] => output
  | first :: _ =>
    if isPacked first then bytesOnto output (cells.flatMap packedBytes)
    else unpackedOnto output cells

/-- Read a text from a row of cells. -/
def decode (cells : List Cell) : List UInt8 := (decodeOnto #[] cells).toList

end ScriptBridge.CellText
