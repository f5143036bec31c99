import ScriptBridge.Native.Staging

/-!
# Calls of natives by scripts

A script names a native and says with a signature how its values are to be handed over.
The values are checked against the signature and staged, then the native is called, and
then the slots that it wrote are read. A native that writes nothing answers its result,
one that writes a single value answers that value, and one that writes several answers
the list of them.

A value may stand in for each thing the native writes, to make the call look like that of
the native itself. Such values are not looked at.

Who calls the native in the end is left open: a `Dispatcher` is anything that knows
names and can call them.
-/

namespace ScriptBridge

/-- **Why a call is refused, or what came of it.** -/
inductive InvokeError where
  | missingName
  | emptyName
  | unknownFunction (name : String)
  | signatureNotText
  | signature (error : SignatureError)
  | tooManyArguments (count limit : Nat)
  | argumentCount (expected provided : Nat)
  | typeMismatch (index : Nat) (expected found : String)
  | textOverflow (index : Nat)
  | arrayOverflow (index : Nat)
  | noSlot (place : Nat)
  | call (error : CallError)
  deriving DecidableEq

/-- The name of the cause, with that of an error inside behind it. -/
def InvokeError.kind : InvokeError → String
  | .missingName => "MissingName"
  | .emptyName => "EmptyName"
  | .unknownFunction _ => "UnknownFunction"
  | .signatureNotText => "SignatureNotString"
  | .signature error => "Signature." ++ error.kind
  | .tooManyArguments _ _ => "TooManyArguments"
  | .argumentCount _ _ => "ArgumentCount"
  | .typeMismatch _ _ _ => "TypeMismatch"
  | .textOverflow _ => "StringOverflow"
  | .arrayOverflow _ => "ArrayOverflow"
  | .noSlot _ => "NoSlot"
  | .call error => "Call." ++ error.kind

/-- What is wrong, in words. -/
def InvokeError.message : InvokeError → String
  | .missingName => "Expected the function name as argument 0"
  | .emptyName => "The function name must not be empty"
  | .unknownFunction name => s!"Unknown native function: {name}"
  | .signatureNotText => "Expected a string for argument 1"
  | .signature error => s!"Cannot parse the signature: {error.message}"
  | .tooManyArguments count limit =>
    s!"The signature needs {count} arguments, at most {limit} are supported"
  | .argumentCount expected provided =>
    s!"{expected} arguments required, but {provided} provided"
  | .typeMismatch index expected found =>
    s!"Type mismatch for argument {index}: expected {expected}, found {found}"
  | .textOverflow index => s!"String overflow for argument {index}"
  | .arrayOverflow index => s!"Too many array values for argument {index}"
  | .noSlot place => s!"There is no slot {place} for the argument"
  | .call error => error.message

instance : Diagnostic InvokeError := ⟨InvokeError.kind, InvokeError.message⟩

/-- **Something that calls natives by name**, with a state of type `S`. The answer of a call holds
the arguments as the native left them. -/
structure Dispatcher (S : Type) where
  knows : S → String → Bool
  call : S → String → List NativeArgument → Except CallError Cell × List NativeArgument × S

/-- The registry as a dispatcher. -/
def Registry.dispatcher {F W : Type} (meaning : F → Native W) : Dispatcher (Registry F × W) where
  knows s name := s.1.knows name
  call s name arguments :=
    let outcome := s.1.call meaning name arguments s.2
    (outcome.result, outcome.arguments, outcome.registry, outcome.world)

namespace Staging

/-- A staging area and whether loading it went well. -/
abbrev Loaded := Except InvokeError Unit × Staging

/-- Load one slot. -/
def load1 (staging : Staging) (place : Nat) (change : StagedSlot → StagedSlot) : Loaded :=
  match staging.update? place change with
  | some staging => (.ok (), staging)
  | none => (.error (.noSlot place), staging)

/-- The entries of an array as cells, up to the first that is no number, and that one's type. -/
def arrayCells : List ScriptValue → List Cell × Option String
  | [] => ([], none)
  | entry :: entries =>
    match entry.wrappedCell? with
    | none => ([], some entry.typeName)
    | some cell =>
      let (cells, wrong) := arrayCells entries
      (cell :: cells, wrong)

/-- Load an array. What is converted before an entry turns out to be no number stays in the slot. -/
def loadArray (staging : Staging) (place index : Nat) (value : ScriptValue) : Loaded :=
  match value.entries? with
  | none => (.error (.typeMismatch index "array" value.typeName), staging)
  | some entries =>
    if maxArrayLength < entries.length then (.error (.arrayOverflow index), staging)
    else
      match arrayCells entries with
      | (cells, none) => staging.load1 place (StagedSlot.loadArray cells)
      | (cells, some found) =>
        let partly := staging.load1 place fun slot => { slot with array := StagedSlot.padded cells }
        (.error (.typeMismatch index "array of numbers" found), partly.2)

/-- Load a value that the script supplies. -/
def loadValue (staging : Staging) (place index : Nat) (type : SlotType) (value : ScriptValue) :
    Loaded :=
  match type with
  | .int =>
    match value.wrappedCell? with
    | some cell => staging.load1 place (StagedSlot.loadInteger cell)
    | none => (.error (.typeMismatch index "number" value.typeName), staging)
  | .float =>
    match value.number? with
    | some number => staging.load1 place (StagedSlot.loadFloat number.toSingle)
    | none => (.error (.typeMismatch index "number" value.typeName), staging)
  | .text =>
    let text := value.toText
    if maxTextLength ≤ text.utf8ByteSize then (.error (.textOverflow index), staging)
    else staging.load1 place (StagedSlot.loadText text)
  | .array => staging.loadArray place index value
  | _ => (.ok (), staging)

/-- What a slot of the given type expects, in words. -/
def expectation : SlotType → String
  | .int => "number"
  | .float => "number"
  | .text => "string"
  | .array => "array"
  | _ => "nothing"

/-- Load the slots of something that the native writes. A text takes a second slot, for its size. -/
def loadReference (staging : Staging) (place : Nat) (type : SlotType) : Loaded :=
  match type with
  | .intRef => staging.load1 place (StagedSlot.loadReference .intRef)
  | .floatRef => staging.load1 place (StagedSlot.loadReference .floatRef)
  | _ =>
    match staging.load1 place StagedSlot.loadBuffer with
    | (.error e, staging) => (.error e, staging)
    | (.ok (), staging) =>
      staging.load1 (place + 1) (StagedSlot.loadInteger (Cell.ofSize maxTextLength))

/-- The number of slots that a type takes. -/
def width : SlotType → Nat
  | .textRef => 2
  | _ => 1

/-- **Check values against a signature and stage them.** `place` is the next free slot and `index`
the place of the next value among the arguments of the script. -/
def load (staging : Staging) : List SlotType → List ScriptValue → Nat → Nat → Loaded
  | [], _, _, _ => (.ok (), staging)
  | type :: types, values, place, index =>
    if type.isReference then
      match staging.loadReference place type with
      | (.error e, staging) => (.error e, staging)
      | (.ok (), staging) => staging.load types values (place + width type) index
    else
      match values with
      | [] => (.error (.typeMismatch 2 (expectation type) "nothing"), staging)
      | value :: values =>
        match staging.loadValue place index type value with
        | (.error e, staging) => (.error e, staging)
        | (.ok (), staging) => staging.load types values (place + width type) (index + 1)

end Staging

/-- **The caller of natives.** -/
structure Invoker where
  staging : Staging := {}
  deriving Inhabited

namespace Invoker

variable {S : Type}

/-- The number of arguments in front of the values: the name and the signature. -/
def leading : Nat := 2

/-- The signature of a call, if it suits the number of arguments. -/
def checkedSignature (arguments : List ScriptValue) (signature : ScriptValue) :
    Except InvokeError Signature :=
  match signature.text? with
  | none => .error .signatureNotText
  | some text =>
    match Signature.parse text with
    | .error e => .error (.signature e)
    | .ok signature =>
      let expected := signature.argumentCount + leading
      if Signature.maxSlots < signature.physicalCount then
        .error (.tooManyArguments signature.physicalCount Signature.maxSlots)
      else if arguments.length ≠ expected ∧
          arguments.length ≠ expected + signature.referenceCount then
        .error (.argumentCount expected arguments.length)
      else .ok signature

/-- What a script gets for a call. -/
def answer (signature : Signature) (result : Cell) (results : List ScriptValue) : ScriptValue :=
  if signature.referenceCount = 0 then .ofCell result
  else
    match results with
    | [value] => value
    | values => .array values

/-- Call a native with staged arguments. -/
def callStaged (invoker : Invoker) (dispatcher : Dispatcher S) (s : S) (name : String)
    (signature : Signature) : Except InvokeError ScriptValue × Invoker × S :=
  let count := signature.physicalCount
  let (result, arguments, s) := dispatcher.call s name (invoker.staging.arguments count)
  let staging := invoker.staging.receive arguments
  match result with
  | .error e => (.error (.call e), ⟨staging⟩, s)
  | .ok result => (.ok (answer signature result (staging.results count)), ⟨staging⟩, s)

/-- Call a native with the values of a script. -/
def callWith (invoker : Invoker) (dispatcher : Dispatcher S) (s : S) (name : String)
    (arguments : List ScriptValue) (signature : ScriptValue) :
    Except InvokeError ScriptValue × Invoker × S :=
  match checkedSignature arguments signature with
  | .error e => (.error e, invoker, s)
  | .ok signature =>
    let values := (arguments.drop leading).take signature.argumentCount
    match invoker.staging.load signature.slots values 0 leading with
    | (.error e, staging) => (.error e, ⟨staging⟩, s)
    | (.ok (), staging) => callStaged ⟨staging⟩ dispatcher s name signature

/-- Call a native without arguments. -/
def callBare (invoker : Invoker) (dispatcher : Dispatcher S) (s : S) (name : String) :
    Except InvokeError ScriptValue × Invoker × S :=
  let (result, _, s) := dispatcher.call s name []
  match result with
  | .error e => (.error (.call e), invoker, s)
  | .ok result => (.ok (.ofCell result), invoker, s)

/-- **Call a native for a script**: a name, a signature, and the values. -/
def invoke (invoker : Invoker) (dispatcher : Dispatcher S) (s : S) (arguments : List ScriptValue) :
    Except InvokeError ScriptValue × Invoker × S :=
  match arguments.head?.bind (·.text?) with
  | none => (.error .missingName, invoker, s)
  | some name =>
    if name.isEmpty then (.error .emptyName, invoker, s)
    else if !dispatcher.knows s name then (.error (.unknownFunction name), invoker, s)
    else
      match arguments[1]? with
      | none => callBare invoker dispatcher s name
      | some signature => callWith invoker dispatcher s name arguments signature

end Invoker

end ScriptBridge
