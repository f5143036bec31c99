import ScriptBridge.Number.Binary

/-!
# Arithmetic of double precision numbers

The operations on the way from a number to a cell. Each reads its operands as exact fractions and answers
with the number nearest to the exact result, so what is lost is lost in `Double.nearestTo` alone. An
operation that has no result answers with a NaN; which one is of no account, since such a result is only
ever compared.

A remainder has the sign of the number that is divided. The Euclidean one has none: it takes one more
operation, which adds the divisor to a remainder below zero.
-/

namespace ScriptBridge

/-- Cut a fraction to an integer, toward zero. -/
def towardZero (q : Rat) : Int := if q < 0 then q.ceil else q.floor

namespace BinaryFormat

/-- The number `± significand * 2 ^ exponent`, exactly. -/
def scaled (negative : Bool) (significand : Nat) (exponent : Int) : Rat :=
  if negative then -(significand * 2 ^ exponent) else significand * 2 ^ exponent

namespace Meaning

/-- The exact value, if there is one. -/
def value? : Meaning → Option Rat
  | .finite negative m e => some (scaled negative m e)
  | _ => none

/-- The other sign. -/
def negated : Meaning → Meaning
  | .nan => .nan
  | .infinite negative => .infinite !negative
  | .finite negative m e => .finite (!negative) m e

/-- The same without a sign. -/
def magnitude : Meaning → Meaning
  | .nan => .nan
  | .infinite _ => .infinite false
  | .finite _ m e => .finite false m e

/-- The place in the order of numbers: the infinities lie on either side of all values. -/
def place? : Meaning → Option (Int × Rat)
  | .nan => none
  | .infinite negative => some (if negative then -1 else 1, 0)
  | .finite negative m e => some (0, scaled negative m e)

end Meaning

end BinaryFormat

namespace Double

open BinaryFormat

/-- The exact value, if the number is finite. -/
def value? (x : Double) : Option Rat := x.meaning.value?

/-- Whether the number is neither infinite nor a NaN. -/
def isFinite (x : Double) : Bool := x.value?.isSome

/-- The number nearest to a fraction. A zero has the sign that is given. -/
def nearestTo (zeroSign : Bool) (q : Rat) : Double :=
  nearest (if q = 0 then zeroSign else decide (q < 0)) q.num.natAbs q.den

/-- Truncate toward zero. The sign stays, also that of a number that becomes zero. -/
def truncate (x : Double) : Double :=
  match x.meaning with
  | .finite negative m e => nearestTo negative (towardZero (scaled negative m e))
  | _ => x

/-- **The sum of two numbers.** A sum of zero has no sign, unless both numbers have one. -/
def sum : Meaning → Meaning → Double
  | .finite a m e, .finite b n d => nearestTo (a && b) (scaled a m e + scaled b n d)
  | .finite _ _ _, .infinite b => infinity b
  | .infinite a, .finite _ _ _ => infinity a
  | .infinite a, .infinite b => if a = b then infinity a else quietNaN false
  | _, _ => quietNaN false

/-- What truncating takes away. -/
def fraction (x : Double) : Double := sum x.meaning x.truncate.meaning.negated

/-- **The remainder of a division** whose quotient is truncated. -/
def remainder (x y : Double) : Double :=
  match x.meaning, y.meaning with
  | .finite _ _ _, .finite _ 0 _ => quietNaN false
  | .finite a m e, .finite b n d =>
    nearestTo a (scaled a m e - scaled b n d * towardZero (scaled a m e / scaled b n d))
  | .finite _ _ _, .infinite _ => x
  | _, _ => quietNaN false

/-- The order of two numbers, unless one is a NaN. -/
def order? (x y : Double) : Option Ordering := do
  let p ← x.meaning.place?
  let q ← y.meaning.place?
  return (compareOfLessAndEq p.1 q.1).then (compareOfLessAndEq p.2 q.2)

/-- Whether a number is less than another one. -/
def less (x y : Double) : Bool := x.order? y == some .lt

/-- Whether a number is no more than another one. -/
def atMost (x y : Double) : Bool := (x.order? y).any Ordering.isLE

/-- **The remainder that is not negative.** -/
def euclideanRemainder (x y : Double) : Double :=
  let r := x.remainder y
  if r.less zero then sum r.meaning y.meaning.magnitude else r

end Double

end ScriptBridge
