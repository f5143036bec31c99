import ScriptBridge.Number.Reading
import ScriptBridge.Toml.Character
import ScriptBridge.Toml.Value

/-!
# Plain values of configuration documents

Numbers, truth values and dates are written without quotes. Such a value reaches as far as
its characters do, and is then recognised as a whole. Digits may be grouped by underscores,
each between two digits. Integers lie within 64 bits, and those in other bases have no sign.
-/

namespace ScriptBridge.Toml

/-- Whether a character may stand in a plain value. -/
def isPlainChar (c : Char) : Bool := c.isAlphanum || c = '_' || c = '+' || c = '-' || c = '.' || c = ':'

/-- Digits without the underscores between them, if these stand between digits only. -/
def ungrouped? (isDigit : Char → Bool) : List Char → Option (List Char)
  | [] => none
  | c :: cs => if isDigit c then (go cs).map (c :: ·) else none
where
  /-- What follows a digit. -/
  go : List Char → Option (List Char)
    | [] => some []
    | '_' :: c :: cs => if isDigit c then (go cs).map (c :: ·) else none
    | c :: cs => if isDigit c then (go cs).map (c :: ·) else none

/-- Whether a character is a decimal digit. -/
def isDigit (c : Char) : Bool := c.isDigit

/-- Whether a character is a digit of a base up to sixteen. -/
def isDigitOf (base : Nat) (c : Char) : Bool :=
  if c.isDigit then c.toNat - 48 < base
  else base = 16 && (('a' ≤ c && c ≤ 'f') || ('A' ≤ c && c ≤ 'F'))

/-- The value of a digit. -/
def digitValue (c : Char) : Nat :=
  if c.isDigit then c.toNat - 48 else if 'a' ≤ c then c.toNat - 87 else c.toNat - 55

/-- An integer that fits in 64 bits. -/
def bounded? (n : Int) : Option Value :=
  if -0x8000000000000000 ≤ n ∧ n < 0x8000000000000000 then some (.integer n) else none

/-- An integer in another base, behind the mark of the base. -/
def based? (base : Nat) (cs : List Char) : Option Value :=
  (ungrouped? (isDigitOf base) cs).bind fun digits =>
    bounded? (digits.foldl (fun n c => base * n + digitValue c) 0 : Nat)

/-- A sign and what follows it. -/
def signed (cs : List Char) : Bool × List Char :=
  match cs with
  | '-' :: rest => (true, rest)
  | '+' :: rest => (false, rest)
  | _ => (false, cs)

/-- The digits of a decimal integer: no zero in front of others. -/
def decimalDigits? (cs : List Char) : Option (List Char) :=
  match ungrouped? isDigit cs with
  | some ('0' :: _ :: _) => none
  | digits => digits

/-- **An integer.** -/
def integer? (cs : List Char) : Option Value :=
  match cs with
  | '0' :: 'x' :: rest => based? 16 rest
  | '0' :: 'o' :: rest => based? 8 rest
  | '0' :: 'b' :: rest => based? 2 rest
  | _ =>
    let (negative, rest) := signed cs
    (decimalDigits? rest).bind fun digits =>
      let n := (Reading.ofDigits (digits.map digitValue) : Int)
      bounded? (if negative then -n else n)

/-- The parts of a number with a fraction or an exponent: whole digits, the fraction, the exponent. -/
def floatParts (cs : List Char) : List Char × Option (List Char) × Option (List Char) :=
  let isMark := fun c : Char => c = 'e' || c = 'E'
  let mantissa := cs.takeWhile fun c => !isMark c
  let exponent := (cs.dropWhile fun c => !isMark c).tail?
  let whole := mantissa.takeWhile (· != '.')
  (whole, (mantissa.dropWhile (· != '.')).tail?, exponent)

/-- Whether a part of a number is made of digits, or is not there. -/
def isDigits (part : Option (List Char)) : Bool :=
  match part with
  | none => true
  | some cs => (ungrouped? isDigit cs).isSome

/-- Whether a number is too large for a double. -/
def isTooLarge (cs : List Char) : Bool :=
  match Reading.double? (cs.filter (· != '_')) with
  | some x => x == Double.infinity false
  | none => false

/-- **A number with a fraction or an exponent.** -/
def float? (cs : List Char) : Option Value :=
  let (_, rest) := signed cs
  if rest = "inf".toList ∨ rest = "nan".toList then some .float
  else
    let (whole, fraction, exponent) := floatParts rest
    if (fraction.isSome ∨ exponent.isSome) ∧ (decimalDigits? whole).isSome ∧ isDigits fraction ∧
        isDigits (exponent.map fun e => (signed e).2) ∧ !isTooLarge cs then
      some .float
    else none

/-- A number of two digits within bounds, and what follows it. -/
def twoDigits? (least greatest : Nat) (cs : List Char) : Option (Nat × List Char) :=
  match cs with
  | a :: b :: rest =>
    let n := 10 * digitValue a + digitValue b
    if a.isDigit ∧ b.isDigit ∧ least ≤ n ∧ n ≤ greatest then some (n, rest) else none
  | _ => none

/-- What follows a character. -/
def after? (c : Char) (cs : List Char) : Option (List Char) :=
  match cs with
  | d :: rest => if d = c then some rest else none
  | [] => none

/-- Whether a year has a day more. -/
def isLeapYear (year : Nat) : Bool := (year % 4 = 0 && year % 100 ≠ 0) || year % 400 = 0

/-- The number of days of a month. -/
def daysOf (year month : Nat) : Nat :=
  if month = 2 then if isLeapYear year then 29 else 28
  else if month = 4 ∨ month = 6 ∨ month = 9 ∨ month = 11 then 30
  else 31

/-- What follows a date. -/
def dayOfYear? (cs : List Char) : Option (List Char) :=
  let year := cs.take 4
  if year.length = 4 ∧ year.all (·.isDigit) then
    (after? '-' (cs.drop 4)).bind fun rest =>
      (twoDigits? 1 12 rest).bind fun month =>
        (after? '-' month.2).bind fun rest =>
          let days := daysOf (Reading.ofDigits (year.map digitValue)) month.1
          (twoDigits? 1 days rest).map (·.2)
  else none

/-- What follows the fraction of a second, if there is one. -/
def secondFraction? (cs : List Char) : Option (List Char) :=
  match cs with
  | '.' :: c :: rest => if c.isDigit then some (rest.dropWhile (·.isDigit)) else none
  | '.' :: [] => none
  | _ => some cs

/-- What follows a time of day. -/
def timeOfDay? (cs : List Char) : Option (List Char) :=
  (twoDigits? 0 23 cs).bind fun hour =>
    (after? ':' hour.2).bind fun rest =>
      (twoDigits? 0 59 rest).bind fun minute =>
        (after? ':' minute.2).bind fun rest =>
          (twoDigits? 0 60 rest).bind fun second => secondFraction? second.2

/-- Whether what is left is the distance from universal time, or nothing. -/
def isOffset (cs : List Char) : Bool :=
  match cs with
  | [] => true
  | c :: rest =>
    if c = 'Z' ∨ c = 'z' then rest.isEmpty
    else if c = '+' ∨ c = '-' then
      match (twoDigits? 0 23 rest).bind fun hour => (after? ':' hour.2).bind (twoDigits? 0 59) with
      | some (_, []) => true
      | _ => false
    else false

/-- **A date, a time, or both.** -/
def date? (cs : List Char) : Option Value :=
  match dayOfYear? cs with
  | none => if timeOfDay? cs = some [] then some .date else none
  | some [] => some .date
  | some (c :: rest) =>
    if c = 'T' ∨ c = 't' ∨ c = ' ' then
      match timeOfDay? rest with
      | some rest => if isOffset rest then some .date else none
      | none => none
    else none

/-- A truth value. -/
def boolean? (cs : List Char) : Option Value :=
  if cs = "true".toList then some (.boolean true)
  else if cs = "false".toList then some (.boolean false)
  else none

/-- The characters of a plain value. A date may have a time behind a space. -/
def plainChars (cs : List Char) : List Char × List Char :=
  let plain := cs.takeWhile isPlainChar
  let rest := cs.dropWhile isPlainChar
  match rest with
  | ' ' :: c :: more =>
    if c.isDigit ∧ dayOfYear? plain = some [] then
      (plain ++ ' ' :: (c :: more).takeWhile isPlainChar, (c :: more).dropWhile isPlainChar)
    else (plain, rest)
  | _ => (plain, rest)

/-- **A plain value** and what follows it. -/
def scalar? (cs : List Char) : Option (Value × List Char) :=
  let (plain, rest) := plainChars cs
  (boolean? plain <|> date? plain <|> float? plain <|> integer? plain).map fun value => (value, rest)

end ScriptBridge.Toml
