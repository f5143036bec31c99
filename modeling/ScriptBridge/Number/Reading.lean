import ScriptBridge.Number.Binary

/-!
# Numbers in text

The two notations in which a database may hand over a number as text. Both must
be matched by the whole text: blanks, separators and trailing words are refused,
and callers trim first.

An integer is an optional sign and decimal digits, within 64 signed bits. A number
is an optional sign followed by `inf`, `infinity` or `nan` in any case, or by digits
with an optional point and an optional exponent; a digit is needed on at least one
side of the point, and after the exponent mark.
-/

namespace ScriptBridge.Reading

/-- The value of a decimal digit. -/
def digit? (c : Char) : Option Nat :=
  if '0' ≤ c ∧ c ≤ '9' then some (c.toNat - '0'.toNat) else none

/-- The leading digits of a text, and the rest of it. -/
def digits : List Char → List Nat × List Char
  | [] => ([], [])
  | c :: cs =>
    match digit? c with
    | some d => let (ds, rest) := digits cs; (d :: ds, rest)
    | none => ([], c :: cs)

/-- The number that digits denote. -/
def ofDigits (ds : List Nat) : Nat := ds.foldl (fun n d => 10 * n + d) 0

/-- Take an optional sign off a text; `true` is minus. -/
def sign : List Char → Bool × List Char
  | '-' :: cs => (true, cs)
  | '+' :: cs => (false, cs)
  | cs => (false, cs)

/-- Digits and nothing else. -/
def onlyDigits? (cs : List Char) : Option Nat :=
  match digits cs with
  | (d :: ds, []) => some (ofDigits (d :: ds))
  | _ => none

/-- An integer with an optional sign. -/
def integer? (cs : List Char) : Option Int :=
  let (negative, rest) := sign cs
  (onlyDigits? rest).map fun n => if negative then -(n : Int) else n

/-- **A 64 bit integer.** -/
def int64? (cs : List Char) : Option Int :=
  match integer? cs with
  | some n => if -0x8000000000000000 ≤ n ∧ n < 0x8000000000000000 then some n else none
  | none => none

/-- From here on the digits of an exponent are passed over. -/
def exponentLimit : Nat := 65536

/-- The exponent that digits denote. Digits behind those that reach the limit add nothing. -/
def ofExponentDigits (ds : List Nat) : Nat :=
  ds.foldl (fun n d => if n < exponentLimit then 10 * n + d else n) 0

/-- The exponent at the end of a number; none at all counts as zero. -/
def exponent? : List Char → Option Int
  | [] => some 0
  | c :: cs =>
    if c = 'e' ∨ c = 'E' then
      let (negative, rest) := sign cs
      match digits rest with
      | (d :: ds, []) =>
        let n := ofExponentDigits (d :: ds)
        some (if negative then -(n : Int) else n)
      | _ => none
    else none

/-- Digits with an optional point: all digits, the number of them behind the point, and the rest. -/
def mantissa (cs : List Char) : List Nat × Nat × List Char :=
  match digits cs with
  | (whole, '.' :: rest) =>
    let (fraction, rest) := digits rest
    (whole ++ fraction, fraction.length, rest)
  | (whole, rest) => (whole, 0, rest)

/-- The double nearest to `± n * 10 ^ e`, where `n` is the number that digits denote. Magnitudes that
are surely infinite or zero are answered without raising ten to the exponent. -/
def decimal (negative : Bool) (ds : List Nat) (e : Int) : Double :=
  let significant := ds.dropWhile (· = 0)
  let n := ofDigits significant
  let magnitude : Int := significant.length + e
  if significant.isEmpty then Double.nearest negative 0 1
  else if 310 < magnitude then Double.infinity negative
  else if magnitude < -326 then Double.nearest negative 0 1
  else if 0 ≤ e then Double.nearest negative (n * Nat.pow 10 e.toNat) 1
  else Double.nearest negative n (Nat.pow 10 (-e).toNat)

/-- The lower case of a letter of the basic alphabet. -/
def lower (c : Char) : Char :=
  if 'A' ≤ c ∧ c ≤ 'Z' then Char.ofNat (c.toNat + 32) else c

/-- A number that is not finite, by its name. -/
def nonFinite? (negative : Bool) (cs : List Char) : Option Double :=
  let name := cs.map lower
  if name = "inf".toList ∨ name = "infinity".toList then some (Double.infinity negative)
  else if name = "nan".toList then some (Double.quietNaN negative)
  else none

/-- **A double.** -/
def double? (cs : List Char) : Option Double :=
  let (negative, rest) := sign cs
  match mantissa rest with
  | ([], _, _) => nonFinite? negative rest
  | (ds, places, tail) =>
    (exponent? tail).map fun e => decimal negative ds (e - places)

end ScriptBridge.Reading
