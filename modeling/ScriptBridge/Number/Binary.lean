import ScriptBridge.Number.Format

/-!
# Single and double precision numbers

`Single` is what a cell of program memory can hold; `Double` is the only kind of
number a script knows. Both are words together with the value `BinaryFormat.meaning`
gives them. Numbers are read, converted, compared and written; what is computed with
them is left to `Number.Arithmetic`.

Widening is exact. Narrowing rounds to the nearest number. A NaN keeps its sign and
the leading bits of its payload in either direction, and comes out quiet.
-/

namespace ScriptBridge

/-- **A number of 32 bits.** -/
structure Single where
  bits : UInt32
  deriving DecidableEq, Inhabited

/-- **A number of 64 bits.** -/
structure Double where
  bits : UInt64
  deriving DecidableEq, Inhabited

namespace Single

/-- What the number is. -/
def meaning (x : Single) : BinaryFormat.Meaning :=
  BinaryFormat.single.meaning x.bits.toNat

/-- Equality of numbers: a NaN differs from everything, and the two zeros are equal. -/
def sameNumber (x y : Single) : Bool :=
  match x.meaning, y.meaning with
  | .nan, _ => false
  | _, .nan => false
  | .finite _ 0 _, .finite _ 0 _ => true
  | _, _ => x.bits == y.bits

/-- The number minus one. -/
def minusOne : Single := ⟨0xBF800000⟩

end Single

namespace Double

/-- What the number is. -/
def meaning (x : Double) : BinaryFormat.Meaning :=
  BinaryFormat.double.meaning x.bits.toNat

/-- The number nearest to `± num / den`. -/
def nearest (negative : Bool) (num den : Nat) : Double :=
  ⟨UInt64.ofNat (BinaryFormat.double.nearest negative num den)⟩

/-- The number nearest to an integer. -/
def ofInt (n : Int) : Double := nearest (decide (n < 0)) n.natAbs 1

/-- Zero without a sign. -/
def zero : Double := ⟨0⟩

/-- Infinity with the given sign. -/
def infinity (negative : Bool) : Double :=
  ⟨UInt64.ofNat (BinaryFormat.double.signed negative BinaryFormat.double.infinityBits)⟩

/-- The quiet NaN without a payload, with the given sign. -/
def quietNaN (negative : Bool) : Double :=
  ⟨if negative then 0xFFF8000000000000 else 0x7FF8000000000000⟩

/-- Equality of numbers: a NaN differs from everything, and the two zeros are equal. -/
def sameNumber (x y : Double) : Bool :=
  match x.meaning, y.meaning with
  | .nan, _ => false
  | _, .nan => false
  | .finite _ 0 _, .finite _ 0 _ => true
  | _, _ => x.bits == y.bits

/-- Truncate `significand * 2 ^ exponent` toward zero. -/
def wholePart (significand : Nat) (exponent : Int) : Nat :=
  if 0 ≤ exponent then significand * Nat.pow 2 exponent.toNat
  else significand / Nat.pow 2 (-exponent).toNat

/-- The number truncated toward zero, if it is finite. -/
def truncated? (x : Double) : Option Int :=
  match x.meaning with
  | .finite negative m e => some (if negative then -(wholePart m e : Int) else wholePart m e)
  | _ => none

/-- The integer that the number is, if it is one. -/
def integer? (x : Double) : Option Int :=
  match x.meaning with
  | .finite negative m e =>
    if 0 ≤ e ∨ m % Nat.pow 2 (-e).toNat = 0 then
      some (if negative then -(wholePart m e : Int) else wholePart m e)
    else none
  | _ => none

/-- The integer that the number stands for without doubt: one of no more than fifty-three bits, or
the power behind them. Negative zero is not one. -/
def plainInteger? (x : Double) : Option Int :=
  x.integer?.filter fun n => n.natAbs ≤ Nat.pow 2 53 && x.bits != 0x8000000000000000

/-- The number truncated toward zero and held between two integers. A NaN becomes zero. -/
def held (low high : Int) (x : Double) : Int :=
  match x.meaning with
  | .nan => 0
  | .infinite true => low
  | .infinite false => high
  | .finite _ _ _ => max low (min high (x.truncated?.getD 0))

/-- The integer of 64 signed bits. -/
def toInt64 (x : Double) : Int := x.held (-0x8000000000000000) 0x7FFFFFFFFFFFFFFF

/-- The nearest number of 32 bits. -/
def toSingle (x : Double) : Single :=
  match x.meaning with
  | .nan =>
    let sign := ((x.bits >>> 63) <<< 31).toUInt32
    let payload := ((x.bits >>> 29) &&& 0x3FFFFF).toUInt32
    ⟨sign ||| 0x7FC00000 ||| payload⟩
  | .infinite negative =>
    ⟨UInt32.ofNat (BinaryFormat.single.signed negative BinaryFormat.single.infinityBits)⟩
  | .finite negative m e =>
    ⟨UInt32.ofNat (BinaryFormat.single.nearestScaled negative m e)⟩

end Double

namespace Single

/-- The same number in 64 bits. -/
def toDouble (x : Single) : Double :=
  match x.meaning with
  | .nan =>
    let sign := (x.bits.toUInt64 >>> 31) <<< 63
    let payload := (x.bits.toUInt64 &&& 0x3FFFFF) <<< 29
    ⟨sign ||| 0x7FF8000000000000 ||| payload⟩
  | .infinite negative => Double.infinity negative
  | .finite negative m e =>
    ⟨UInt64.ofNat (BinaryFormat.double.nearestScaled negative m e)⟩

end Single

end ScriptBridge
