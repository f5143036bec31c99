import ScriptBridge.Toml.Character

/-!
# Texts of configuration documents

A text stands between double quotes, where a backslash introduces an escape, or between
single quotes, where every character stands for itself. Three quotes enclose a text of
several lines. Its first line ending is dropped if it comes right behind the quotes, and
every line ending counts as a line feed.

All readers answer the text and what follows its closing quotes. Where an escape or a line
ending is read at once, a second text that is no shorter than the first bounds the steps.
-/

namespace ScriptBridge.Toml

/-- A text and what follows it. -/
abbrev TextRead := Option (List Char × List Char)

/-- A text read further, with a character in front of it. -/
def TextRead.cons (c : Char) (read : TextRead) : TextRead := read.map fun r => (c :: r.1, r.2)

/-- The value of a hexadecimal digit. -/
def hexDigit? (c : Char) : Option Nat :=
  if '0' ≤ c ∧ c ≤ '9' then some (c.toNat - 48)
  else if 'a' ≤ c ∧ c ≤ 'f' then some (c.toNat - 87)
  else if 'A' ≤ c ∧ c ≤ 'F' then some (c.toNat - 55)
  else none

/-- The character with the number that hexadecimal digits denote. -/
def numbered? (digits : List Char) : Option Char :=
  match digits.mapM hexDigit? with
  | none => none
  | some values =>
    let n := values.foldl (fun n d => 16 * n + d) 0
    if n.isValidChar then some (Char.ofNat n) else none

/-- The character that an escape of one letter stands for. -/
def escaped? : Char → Option Char
  | 'b' => some '\x08'
  | 't' => some '\t'
  | 'n' => some '\n'
  | 'f' => some '\x0c'
  | 'r' => some '\r'
  | '"' => some '"'
  | '\\' => some '\\'
  | _ => none

/-- **An escape**, behind its backslash. -/
def escape? (cs : List Char) : Option (Char × List Char) :=
  match cs with
  | [] => none
  | c :: rest =>
    let digits := if c = 'u' then 4 else 8
    if c = 'u' ∨ c = 'U' then
      let found := rest.take digits
      if found.length < digits then none else (numbered? found).map fun c => (c, rest.drop digits)
    else (escaped? c).map fun c => (c, rest)

/-- **The rest of a text between double quotes.** -/
def basicText : List Char → List Char → TextRead
  | [], _ => none
  | _, [] => none
  | _ :: fuel, c :: cs =>
    if c = '"' then some ([], cs)
    else if c = '\\' then (escape? cs).bind fun e => (basicText fuel e.2).cons e.1
    else if isTextChar c then (basicText fuel cs).cons c
    else none

/-- **The rest of a text between single quotes.** -/
def literalText : List Char → TextRead
  | [] => none
  | c :: cs =>
    if c = '\'' then some ([], cs)
    else if isTextChar c then (literalText cs).cons c
    else none

/-- The end of a text of several lines: up to two more quotes belong to the text. -/
def closing (quote : Char) (cs : List Char) : TextRead :=
  match cs with
  | a :: b :: rest =>
    if a = quote then if b = quote then some ([a, b], rest) else some ([a], b :: rest)
    else some ([], cs)
  | [a] => if a = quote then some ([a], []) else some ([], cs)
  | [] => some ([], [])

/-- What follows three quotes. -/
def threeQuotes? (quote : Char) : List Char → Option (List Char)
  | a :: b :: c :: rest => if a = quote ∧ b = quote ∧ c = quote then some rest else none
  | _ => none

/-- What follows a backslash at the end of a line: blanks and line endings up to the next text. -/
def continued? (cs : List Char) : Option (List Char) :=
  (lineEnd? (skipSpaces cs)).map fun rest =>
    let rec skip : List Char → List Char → List Char
      | [], cs => cs
      | _ :: lines, cs =>
        match lineEnd? (skipSpaces cs) with
        | some cs => skip lines cs
        | none => skipSpaces cs
    skip rest rest

/-- **The rest of a text of several lines** between double quotes. -/
def basicLines : List Char → List Char → TextRead
  | [], _ => none
  | _, [] => none
  | _ :: fuel, c :: cs =>
    match threeQuotes? '"' (c :: cs), lineEnd? (c :: cs) with
    | some rest, _ => closing '"' rest
    | none, some rest => (basicLines fuel rest).cons '\n'
    | none, none =>
      if c = '\\' then
        match continued? cs with
        | some rest => basicLines fuel rest
        | none => (escape? cs).bind fun e => (basicLines fuel e.2).cons e.1
      else if isTextChar c then (basicLines fuel cs).cons c
      else none

/-- **The rest of a text of several lines** between single quotes. -/
def literalLines : List Char → List Char → TextRead
  | [], _ => none
  | _, [] => none
  | _ :: fuel, c :: cs =>
    match threeQuotes? '\'' (c :: cs), lineEnd? (c :: cs) with
    | some rest, _ => closing '\'' rest
    | none, some rest => (literalLines fuel rest).cons '\n'
    | none, none => if isTextChar c then (literalLines fuel cs).cons c else none

/-- What a text of several lines starts with, without a line ending right behind the quotes. -/
def afterOpening (cs : List Char) : List Char := (lineEnd? cs).getD cs

/-- **A text on one line**, with its quotes. -/
def lineText? (cs : List Char) : TextRead :=
  match cs with
  | '"' :: rest => basicText rest rest
  | '\'' :: rest => literalText rest
  | _ => none

/-- **A text**, with its quotes. -/
def text? (cs : List Char) : TextRead :=
  match threeQuotes? '"' cs, threeQuotes? '\'' cs with
  | some rest, _ => basicLines rest (afterOpening rest)
  | none, some rest => literalLines rest (afterOpening rest)
  | none, none => lineText? cs

end ScriptBridge.Toml
