import ScriptBridge.Callback
import ScriptBridge.Definition.Line
import ScriptBridge.Text.Split

/-!
# Callback declarations

A declaration reads

    [Cancelable, ReturnOne] forward OnPlayerText(playerid, text[]);

with any blanks between its parts. The annotations in front, the semicolon at the end and
the arguments may be missing. An argument with the tag `Float` is a float, one with
brackets is a text, and every other one is an integer, whatever its tag says.

A table holds callbacks in the order of their declarations. No two of them share a name,
so a position stands for the same callback as long as the table lives.
-/

namespace ScriptBridge

/-- **The declared callbacks.** -/
structure CallbackTable where
  callbacks : List Callback := []
  deriving Inhabited

namespace CallbackTable

/-- A table without callbacks. -/
def empty : CallbackTable := {}

/-- The position of the callback with a name. -/
def position? (table : CallbackTable) (name : String) : Option Nat :=
  table.callbacks.findIdx? fun callback => callback.name == name

/-- The callback at a position. -/
def get? (table : CallbackTable) (position : Nat) : Option Callback :=
  table.callbacks[position]?

/-- The callback with a name. -/
def find? (table : CallbackTable) (name : String) : Option Callback :=
  (table.position? name).bind table.get?

/-- The number of callbacks. -/
def size (table : CallbackTable) : Nat := table.callbacks.length

/-- Add a callback at the end, unless its name is taken. -/
def insert? (table : CallbackTable) (callback : Callback) : Option CallbackTable :=
  if (table.position? callback.name).isSome then none
  else some ⟨table.callbacks ++ [callback]⟩

/-- **Add callbacks** in their order; the answer says of each whether it was added. -/
def insertAll (table : CallbackTable) : List Callback → List Bool × CallbackTable
  | [] => ([], table)
  | callback :: rest =>
    let added := table.insert? callback
    let (answers, table) := (added.getD table).insertAll rest
    (added.isSome :: answers, table)

end CallbackTable

namespace Declaration

open Text

/-- Note one annotation. Unknown ones mean nothing. -/
def annotate (callback : Callback) (mark : List Char) : Callback :=
  match String.ofList (trim mark) with
  | "Cancelable" => { callback with cancelable := true }
  | "ReturnOne" => { callback with returnValue := 1 }
  | "Deferred" => { callback with deferred := true }
  | "Unload" => { callback with unloadsProgram := true }
  | _ => callback

/-- Take the annotations off a line: a callback that carries them, and the rest of the line. -/
def annotations (line : List Char) : Except DeclarationProblem (Callback × List Char) :=
  match line with
  | '[' :: rest =>
    match splitOnce? ']' rest with
    | none => .error .annotations
    | some (inside, rest) =>
      .ok ((splitAll ',' inside).foldl annotate { name := "" }, trimStart rest)
  | _ => .ok ({ name := "" }, line)

/-- Take the keyword and the blanks behind it off a line. -/
def keyword (line : List Char) : Except DeclarationProblem (List Char) :=
  match after? "forward".toList line with
  | some (c :: rest) => if isBlank c then .ok (trimStart rest) else .error .keyword
  | _ => .error .keyword

/-- Whether a text holds a character. -/
def holds (c : Char) (cs : List Char) : Bool := cs.any (· == c)

/-- The kind that a tag stands for. -/
def kindOfTag (tag : List Char) : ArgumentKind :=
  if trim tag = "Float".toList then .float else .integer

/-- An argument name, which may not be empty. -/
def named (name : List Char) (kind : ArgumentKind) :
    Except DeclarationProblem (String × ArgumentKind) :=
  if name.isEmpty then .error .argumentNameMissing else .ok (String.ofList name, kind)

/-- An argument behind its tag; brackets make it a text. -/
def untagged (argument : List Char) (kind : ArgumentKind) :
    Except DeclarationProblem (String × ArgumentKind) :=
  match splitOnce? '[' argument with
  | none => named argument kind
  | some (name, brackets) =>
    if !holds ']' brackets then .error .textOpen
    else if kind ≠ .integer then .error .floatText
    else named (trim name) .text

/-- **One argument.** -/
def argument (text : List Char) : Except DeclarationProblem (String × ArgumentKind) :=
  let text := trim text
  match splitOnce? ':' text with
  | some (tag, name) => untagged (trim name) (kindOfTag tag)
  | none => untagged text .integer

/-- The arguments between the parentheses. -/
def arguments (inside : List Char) : Except DeclarationProblem (List (String × ArgumentKind)) :=
  if inside.isEmpty then .ok [] else (splitAll ',' inside).mapM argument

/-- What stands between the parentheses, given what follows the opening one. -/
def inside (rest : List Char) : Except DeclarationProblem (List Char) :=
  let rest := trimEnd rest
  let rest := trimEnd ((before? ';' rest).getD rest)
  match before? ')' rest with
  | some rest => .ok (trim rest)
  | none => .error .argumentsOpen

/-- **One declaration.** -/
def parse (line : List Char) : Except DeclarationProblem Callback :=
  match annotations (trim line) with
  | .error e => .error e
  | .ok (callback, rest) =>
  match keyword rest with
  | .error e => .error e
  | .ok rest =>
  match splitOnce? '(' rest with
  | none => .error .argumentsMissing
  | some (name, rest) =>
    let name := trim name
    if name.isEmpty then .error .nameMissing
    else
      match inside rest with
      | .error e => .error e
      | .ok rest =>
      match arguments rest with
      | .error e => .error e
      | .ok arguments => .ok { callback with name := String.ofList name, arguments := arguments }

end Declaration

namespace CallbackTable

/-- Add the declarations of content lines, up to the first that is refused. -/
def addLines (table : CallbackTable) :
    List (Nat × List Char) → Except DefinitionError CallbackTable
  | [] => .ok table
  | (number, line) :: lines =>
    match Declaration.parse line with
    | .error problem => .error (.malformed number problem (String.ofList line))
    | .ok callback =>
      match table.insert? callback with
      | none => .error (.duplicate callback.name number)
      | some table => addLines table lines

/-- **Read a callback file.** -/
def parse (text : String) : Except DefinitionError CallbackTable :=
  addLines empty (Definition.contentLines text.toList)

/-- Read a callback file from its bytes. -/
def ofFile (path : String) (file : Except FileProblem (List UInt8)) :
    Except DefinitionError CallbackTable :=
  match Definition.readText path file with
  | .ok text => parse text
  | .error e => .error e

end CallbackTable

end ScriptBridge
