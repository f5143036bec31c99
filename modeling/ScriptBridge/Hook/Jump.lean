import ScriptBridge.Hook.Exports

/-!
# Jumps

A function is redirected by a jump written over its first bytes. The short jump holds the
distance from its own end to the destination in 32 signed bits and so reaches only two
gigabytes in either direction. The long jump is followed by the destination itself and
reaches everything, which is why hooks use that one.
-/

namespace ScriptBridge.Jump

/-- The bytes of a word, the lowest first. -/
def wordBytes (word : UInt64) (count : Nat) : List UInt8 :=
  (List.range count).map fun i => (word >>> (8 * UInt64.ofNat i)).toUInt8

/-- The distance from the end of a short jump to its destination, modulo the address space. -/
def displacement (source target : Address) : Int64 := (target - (source + 5)).toInt64

/-- **The short jump**, if it reaches the destination. -/
def relative? (source target : Address) : Option (List UInt8) :=
  let distance := displacement source target
  if -0x80000000 ≤ distance.toInt ∧ distance.toInt < 0x80000000 then
    some (0xE9 :: wordBytes distance.toUInt64 4)
  else none

/-- **The long jump.** -/
def absolute (target : Address) : List UInt8 :=
  [0xFF, 0x25, 0, 0, 0, 0] ++ wordBytes target 8

/-- The number of bytes of the long jump. -/
def length : Nat := 14

/-- The word that eight bytes make, the lowest first. -/
def wordOfBytes : List UInt8 → UInt64
  | [] => 0
  | b :: bytes => b.toUInt64 ||| (wordOfBytes bytes <<< 8)

/-- The destination of the long jump that some code starts with, if it starts with one. -/
def target? (code : List UInt8) : Option Address :=
  if code.take 6 = [0xFF, 0x25, 0, 0, 0, 0] ∧ length ≤ code.length then
    some (wordOfBytes ((code.drop 6).take 8))
  else none

end ScriptBridge.Jump
