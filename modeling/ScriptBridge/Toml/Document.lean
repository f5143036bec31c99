import ScriptBridge.Toml.Scalar
import ScriptBridge.Toml.Table
import ScriptBridge.Toml.Text

/-!
# Configuration documents

A document is made of lines. A line gives a name a value, or it is the heading of a table,
to which the names of the lines below it belong, or it holds nothing. Arrays may go over
several lines and end with a comma; tables written as values may not. Values are nested
only so far, and names have only so many parts.
-/

namespace ScriptBridge.Toml

/-- How many arrays and tables may enclose a value, and how many parts a name may have. -/
def maxDepth : Nat := 79

/-- One part of a name, and what follows it. -/
def namePart? (cs : List Char) : Option (String × List Char) :=
  match cs with
  | '"' :: _ => (lineText? cs).map fun r => (String.ofList r.1, r.2)
  | '\'' :: _ => (lineText? cs).map fun r => (String.ofList r.1, r.2)
  | _ =>
    let bare := cs.takeWhile isBareChar
    if bare.isEmpty then none else some (String.ofList bare, cs.dropWhile isBareChar)

/-- The parts of a name, and what follows them and spaces. The number bounds the parts. -/
def nameParts : Nat → List Char → Option (List String × List Char)
  | 0, _ => none
  | parts + 1, cs =>
    match namePart? (skipSpaces cs) with
    | none => none
    | some (part, rest) =>
      match skipSpaces rest with
      | '.' :: more => (nameParts parts more).map fun r => (part :: r.1, r.2)
      | rest => some ([part], rest)

/-- **A name**: the parts in front of the last, the last, and what follows. -/
def name? (cs : List Char) : Option (List String × String × List Char) :=
  match nameParts maxDepth cs with
  | some (parts, rest) => parts.getLast?.map fun last => (parts.dropLast, last, rest)
  | none => none

/-- A value and what follows it. -/
abbrev ValueRead := Option (Value × List Char)

/-- **The entries of an array**, behind its bracket. `item` reads one, and a text that is no shorter than
the one to read bounds them. -/
def arrayItems (item : List Char → ValueRead) : List Char → List Char → Option (List Value × List Char)
  | [], _ => none
  | _ :: fuel, cs =>
    match skipTrivia cs with
    | ']' :: rest => some ([], rest)
    | cs =>
      match item cs with
      | none => none
      | some (value, rest) =>
        match skipTrivia rest with
        | ']' :: rest => some ([value], rest)
        | ',' :: rest => (arrayItems item fuel rest).map fun r => (value :: r.1, r.2)
        | _ => none

/-- **The entries of a table written as a value**, behind its brace, given those in front. -/
def tableItems (item : List Char → ValueRead) :
    List Char → Entries → List Char → Option (Entries × List Char)
  | [], _, _ => none
  | _ :: fuel, entries, cs =>
    match name? cs with
    | none => none
    | some (path, name, rest) =>
      match rest with
      | '=' :: rest =>
        match item (skipSpaces rest) with
        | none => none
        | some (value, rest) =>
          match entries.defineDotted name value path with
          | none => none
          | some entries =>
            match skipSpaces rest with
            | '\x7d' :: rest => some (entries, rest)
            | ',' :: rest => tableItems item fuel entries rest
            | _ => none
      | _ => none

/-- A value that holds no others. -/
def simple? (cs : List Char) : ValueRead :=
  if cs.head? = some '"' ∨ cs.head? = some '\'' then
    (text? cs).map fun r => (.text (String.ofList r.1), r.2)
  else scalar? cs

/-- **A value.** The number bounds how far arrays and tables are nested in it. -/
def value? : Nat → List Char → ValueRead
  | 0, cs => simple? cs
  | depth + 1, cs =>
    match cs with
    | '[' :: rest =>
      (arrayItems (value? depth) rest rest).map fun r => (.array r.1, r.2)
    | '\x7b' :: rest =>
      match skipSpaces rest with
      | '\x7d' :: rest => some (.table [], rest)
      | rest =>
        (tableItems (value? depth) rest [] rest).map fun r =>
          (.table (finishEntries r.1), r.2)
    | _ => simple? cs

/-- **A document under construction**: its tables, and the heading that the next lines belong to. -/
structure Draft where
  entries : Entries := []
  heading : List String := []

/-- Give a value a name under the heading. -/
def Draft.define (draft : Draft) (path : List String) (name : String) (value : Value) : Option Draft :=
  (draft.entries.underHeading (fun entries => entries.defineDotted name value path) draft.heading).map
    fun entries => { draft with entries }

/-- Begin a table, or an element of an array of tables. -/
def Draft.begin (draft : Draft) (start : String → Entries → Option Entries) (path : List String)
    (name : String) : Option Draft :=
  (draft.entries.underHeading (start name) path).map fun entries => ⟨entries, path ++ [name]⟩

/-- A heading, behind its first bracket, and what follows its line. -/
def heading? (draft : Draft) (cs : List Char) : Option (Draft × List Char) :=
  match cs with
  | '[' :: rest =>
    match name? rest with
    | some (path, name, ']' :: ']' :: rest) =>
      (draft.begin Entries.startElement path name).bind fun draft =>
        (restOfLine? rest).map fun rest => (draft, rest)
    | _ => none
  | _ =>
    match name? cs with
    | some (path, name, ']' :: rest) =>
      (draft.begin Entries.startTable path name).bind fun draft =>
        (restOfLine? rest).map fun rest => (draft, rest)
    | _ => none

/-- A line that gives a name a value, and what follows the line. -/
def assignment? (draft : Draft) (cs : List Char) : Option (Draft × List Char) :=
  match name? cs with
  | some (path, name, '=' :: rest) =>
    (value? maxDepth (skipSpaces rest)).bind fun read =>
      (draft.define path name read.1).bind fun draft =>
        (restOfLine? read.2).map fun rest => (draft, rest)
  | _ => none

/-- The lines of a document. The number bounds them. -/
def readLines : Nat → Draft → List Char → Option Draft
  | 0, _, _ => none
  | lines + 1, draft, cs =>
    match skipSpaces cs with
    | [] => some draft
    | '[' :: rest =>
      match heading? draft rest with
      | some (draft, rest) => readLines lines draft rest
      | none => none
    | c :: rest =>
      if c = '#' ∨ c = '\n' ∨ c = '\r' then
        match restOfLine? (c :: rest) with
        | some rest => readLines lines draft rest
        | none => none
      else
        match assignment? draft (c :: rest) with
        | some (draft, rest) => readLines lines draft rest
        | none => none

/-- The mark that may stand in front of a document. -/
def byteOrderMark : Char := '\ufeff'

/-- **Read a document.** -/
def parse? (text : String) : Option (List (String × Value)) :=
  let cs := text.toList
  let cs := if cs.head? = some byteOrderMark then cs.tail else cs
  (readLines (cs.length + 1) {} cs).map fun draft => finishEntries draft.entries

end ScriptBridge.Toml
