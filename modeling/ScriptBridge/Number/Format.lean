/-!
# Binary interchange formats

A floating point number reaches this library as a word: a sign bit, a biased
exponent and a fraction. This module says what such a word stands for, and which
word stands nearest to a given fraction of two natural numbers. Both directions
work on exact integers, so nothing here depends on the arithmetic of a machine.

Every finite number of a format is `± significand * 2 ^ exponent` with an exponent
no smaller than `leastExponent`. Numbers are rounded to the nearest word, and a
number halfway between two words goes to the one with the even fraction.
-/

namespace ScriptBridge

/-- **A binary format.** The widths of the stored fraction and of the exponent. -/
structure BinaryFormat where
  fractionBits : Nat
  exponentBits : Nat

namespace BinaryFormat

/-- The format of 32 bits. -/
def single : BinaryFormat := ⟨23, 8⟩

/-- The format of 64 bits. -/
def double : BinaryFormat := ⟨52, 11⟩

/-- The exponent of the smallest positive number. -/
def leastExponent (f : BinaryFormat) : Int :=
  2 - Nat.pow 2 (f.exponentBits - 1) - f.fractionBits

/-- The magnitude bits of infinity: all exponent bits set and an empty fraction. -/
def infinityBits (f : BinaryFormat) : Nat :=
  (Nat.pow 2 f.exponentBits - 1) * Nat.pow 2 f.fractionBits

/-- The place of the sign bit. -/
def signPlace (f : BinaryFormat) : Nat :=
  Nat.pow 2 (f.exponentBits + f.fractionBits)

/-- **What a word stands for.** -/
inductive Meaning where
  | nan
  | infinite (negative : Bool)
  | finite (negative : Bool) (significand : Nat) (exponent : Int)
  deriving DecidableEq

/-- Read a word. A word with an empty exponent field is subnormal: it has no hidden bit. -/
def meaning (f : BinaryFormat) (bits : Nat) : Meaning :=
  let negative := decide (f.signPlace ≤ bits)
  let magnitude := bits % f.signPlace
  let biased := magnitude / Nat.pow 2 f.fractionBits
  let fraction := magnitude % Nat.pow 2 f.fractionBits
  if magnitude = f.infinityBits then .infinite negative
  else if f.infinityBits < magnitude then .nan
  else if biased = 0 then .finite negative fraction f.leastExponent
  else
    .finite negative (Nat.pow 2 f.fractionBits + fraction) (f.leastExponent + (biased - 1))

/-- The fraction `num / den` in units of `2 ^ e`, again as a fraction. -/
def inUnits (num den : Nat) (e : Int) : Nat × Nat :=
  if 0 ≤ e then (num, den * Nat.pow 2 e.toNat) else (num * Nat.pow 2 (-e).toNat, den)

/-- Round a fraction to a whole number; a half goes to the even neighbour. -/
def roundToEven (num den : Nat) : Nat :=
  let quotient := num / den
  let twice := 2 * (num % den)
  if den < twice then quotient + 1
  else if twice = den then quotient + quotient % 2
  else quotient

/-- The exponent of the unit in which `num / den` has exactly `fractionBits + 1` whole
bits, or the least exponent if that is larger. -/
def unitExponent (f : BinaryFormat) (num den : Nat) : Int :=
  let guess : Int := Nat.log2 num - Nat.log2 den - f.fractionBits
  let (n, d) := inUnits num den guess
  let exact := if n / d < Nat.pow 2 f.fractionBits then guess - 1 else guess
  max exact f.leastExponent

/-- The magnitude bits nearest to `num / den`. Rounding up to the next power of two
carries into the exponent by itself, and past the largest finite number it gives infinity. -/
def nearestMagnitude (f : BinaryFormat) (num den : Nat) : Nat :=
  if num = 0 then 0
  else
    let e := f.unitExponent num den
    let (n, d) := inUnits num den e
    let magnitude := (e - f.leastExponent).toNat * Nat.pow 2 f.fractionBits + roundToEven n d
    min magnitude f.infinityBits

/-- Put the sign in front of a magnitude. -/
def signed (f : BinaryFormat) (negative : Bool) (magnitude : Nat) : Nat :=
  if negative then f.signPlace + magnitude else magnitude

/-- The word nearest to `± num / den`. -/
def nearest (f : BinaryFormat) (negative : Bool) (num den : Nat) : Nat :=
  f.signed negative (f.nearestMagnitude num den)

/-- The word nearest to `± significand * 2 ^ exponent`. -/
def nearestScaled (f : BinaryFormat) (negative : Bool) (significand : Nat) (exponent : Int) : Nat :=
  if 0 ≤ exponent then f.nearest negative (significand * Nat.pow 2 exponent.toNat) 1
  else f.nearest negative significand (Nat.pow 2 (-exponent).toNat)

end BinaryFormat

end ScriptBridge
