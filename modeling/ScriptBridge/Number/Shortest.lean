import ScriptBridge.Number.Binary

/-!
# The shortest decimal that reads back

A number is written with as few digits as will still be read as the same number.
The numbers that round to `m * 2 ^ q` form an interval around it, and a grid of
multiples of `10 ^ k` either has a member in that interval or not. Grids are tried
from the coarsest on. The members of a grid worth trying are the two neighbours of
the number itself: if any member lies in the interval, one of these does. Of two
that fit the nearer is taken, and the larger of two equally near ones.

Numbers are written in positional notation, however many zeros that takes.
-/

namespace ScriptBridge

/-- **A decimal.** The number `digits * 10 ^ exponent`. -/
structure Decimal where
  digits : Nat
  exponent : Int
  deriving DecidableEq

namespace Decimal

/-- **The interval of a number.** A quarter of its unit is the measure: `value`, `low` and `high`
are multiples of `2 ^ exponent`, and the ends belong to it if `closed` holds. -/
structure Interval where
  value : Nat
  low : Nat
  high : Nat
  exponent : Int
  closed : Bool

/-- The numbers that round to `m * 2 ^ q`. Below a power of two the numbers of the format lie
twice as dense, so there the lower half of the interval is half as wide. -/
def intervalOf (f : BinaryFormat) (m : Nat) (q : Int) : Interval :=
  let narrow := m = Nat.pow 2 f.fractionBits ∧ f.leastExponent < q
  { value := 4 * m
    low := if narrow then 4 * m - 1 else 4 * m - 2
    high := 4 * m + 2
    exponent := q - 2
    closed := m % 2 == 0 }

/-- The factors that put multiples of `2 ^ e` and of `10 ^ k` on a common scale. -/
def commonScale (e k : Int) : Nat × Nat :=
  (Nat.pow 2 e.toNat * Nat.pow 10 (-k).toNat, Nat.pow 10 k.toNat * Nat.pow 2 (-e).toNat)

/-- The member of the grid `10 ^ k` that stands for the interval, if there is one. -/
def onGrid? (i : Interval) (k : Int) : Option Nat :=
  let (binary, decimal) := commonScale i.exponent k
  let value := i.value * binary
  let fits (d : Nat) : Bool :=
    if i.closed then i.low * binary ≤ d * decimal && d * decimal ≤ i.high * binary
    else i.low * binary < d * decimal && d * decimal < i.high * binary
  let below := value / decimal
  let above := below + 1
  match fits below, fits above with
  | true, false => some below
  | false, true => some above
  | true, true =>
    if value - below * decimal < above * decimal - value then some below else some above
  | false, false => none

/-- Try the grids `10 ^ k`, `10 ^ (k - 1)` and so on. -/
def firstGrid (i : Interval) : Nat → Int → Decimal
  | 0, k => ⟨0, k⟩
  | tries + 1, k =>
    match onGrid? i k with
    | some d => ⟨d, k⟩
    | none => firstGrid i tries (k - 1)

/-- An exponent of ten above every member of the interval. -/
def coarsest (i : Interval) : Int :=
  (Nat.log2 i.high + i.exponent + 1) * 30103 / 100000 + 1

/-- The shortest decimal that reads back as `m * 2 ^ q`. Seventeen digits are enough for
either format, and the coarsest grid is at most two places above the first of them. -/
def shortest (f : BinaryFormat) (m : Nat) (q : Int) : Decimal :=
  let i := intervalOf f m q
  firstGrid i 24 (coarsest i)

/-- Positional notation, without a point if the number is whole. -/
def positional (d : Decimal) : List Char :=
  let digits := Nat.toDigits 10 d.digits
  let places := (-d.exponent).toNat
  if 0 ≤ d.exponent then digits ++ List.replicate d.exponent.toNat '0'
  else if places < digits.length then
    digits.take (digits.length - places) ++ '.' :: digits.drop (digits.length - places)
  else '0' :: '.' :: List.replicate (places - digits.length) '0' ++ digits

end Decimal

/-- **How numbers that are not finite are spelled.** -/
structure NonFinite where
  nan : String
  infinity : String

/-- The spelling used for stored numbers. -/
def NonFinite.short : NonFinite := ⟨"NaN", "inf"⟩

/-- The spelling scripts use. -/
def NonFinite.long : NonFinite := ⟨"NaN", "Infinity"⟩

namespace BinaryFormat

/-- Write a number: its sign, then the shortest positional decimal. Zero keeps its sign and a
NaN loses it. -/
def write (f : BinaryFormat) (names : NonFinite) : Meaning → String
  | .nan => names.nan
  | .infinite negative => if negative then "-" ++ names.infinity else names.infinity
  | .finite negative m e =>
    let digits := if m = 0 then ['0'] else (Decimal.shortest f m e).positional
    String.ofList (if negative then '-' :: digits else digits)

end BinaryFormat

/-- The number as text, such as `-0.5`, `1000000` or `inf`. -/
def Single.text (x : Single) : String :=
  BinaryFormat.single.write .short x.meaning

/-- The number as text, such as `-0.5`, `1000000` or `inf`. -/
def Double.text (x : Double) : String :=
  BinaryFormat.double.write .short x.meaning

end ScriptBridge
