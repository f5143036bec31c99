import ScriptBridge.Provided.Parameters
import ScriptBridge.Signature
import ScriptBridge.Value.Script

/-!
# Provided natives

A script can provide natives that programs call. Their names are listed beforehand,
because a program binds its natives when it is loaded. The script then gives a signature
and a handler for a name, and may do so again later.

The characters of the signature describe the parameters at their places. The handler
receives those that the caller supplies, and if the signature has references it answers a
list with a value for each of them. A call with parameters missing or unreadable is
answered by zero, and the handler does not run.

While a handler runs no native can be provided and none can be called.
-/

namespace ScriptBridge

/-- **A handler as code.** It may have effects on the world and need not answer anything. -/
abbrev Handler (W : Type) := List ScriptValue → W → Option ScriptValue × W

/-- A native with the signature and the handler it was given. -/
structure ProvidedNative (H : Type) where
  signature : Signature
  handler : H

/-- **The provided natives.** A handler is a handle of type `H`. -/
structure ProvidedNatives (H : Type) where
  known : List String
  natives : List (String × ProvidedNative H) := []
  running : Bool := false

/-- **Why a native cannot be provided.** -/
inductive ProvideError where
  | unknownNative (name : String)
  | signature (error : SignatureError)
  | busy
  deriving DecidableEq

/-- The name of the cause, with that of an error inside behind it. -/
def ProvideError.kind : ProvideError → String
  | .unknownNative _ => "UnknownNative"
  | .signature error => "Signature." ++ error.kind
  | .busy => "Busy"

/-- What is wrong, in words. -/
def ProvideError.message : ProvideError → String
  | .unknownNative name => s!"The native {name} is not listed in the natives file"
  | .signature error => s!"Invalid native signature: {error.message}"
  | .busy => "Natives cannot be provided while a provided native is running"

instance : Diagnostic ProvideError := ⟨ProvideError.kind, ProvideError.message⟩

namespace ProvidedNatives

variable {H : Type}

/-- Whether a name is listed. -/
def isKnown (provided : ProvidedNatives H) (name : String) : Bool := provided.known.contains name

/-- The native under a name. -/
def find? (provided : ProvidedNatives H) (name : String) : Option (ProvidedNative H) :=
  provided.natives.lookup name

/-- Whether a name has a handler. -/
def isProvided (provided : ProvidedNatives H) (name : String) : Bool := (provided.find? name).isSome

/-- Put a native under a name into a list of them. -/
def store (name : String) (native : ProvidedNative H) :
    List (String × ProvidedNative H) → List (String × ProvidedNative H)
  | [] => [(name, native)]
  | entry :: rest =>
    if entry.1 = name then (name, native) :: rest else entry :: store name native rest

/-- **Provide a native**, in place of an earlier one of the name. -/
def register (provided : ProvidedNatives H) (name signature : String) (handler : H) :
    Except ProvideError (ProvidedNatives H) :=
  if provided.running then .error .busy
  else if !provided.isKnown name then .error (.unknownNative name)
  else
    match Signature.parseProvided signature with
    | .error e => .error (.signature e)
    | .ok signature =>
      .ok { provided with natives := store name ⟨signature, handler⟩ provided.natives }

/-- A parameter as the handler sees it, read at its own place. -/
def argument? (block : ParameterBlock) (m : Machine) (index : Nat) : SlotType → Option ScriptValue
  | .int => (block.get? index).map .ofCell
  | .float => (block.float? index).map fun value => .number value.toDouble
  | .text => (block.text? m index).map .text
  | _ => none

/-- **The arguments of a handler**, unless one of them cannot be read. `index` is the place of the first type. -/
def arguments? (block : ParameterBlock) (m : Machine) : Nat → List SlotType → Option (List ScriptValue)
  | _, [] => some []
  | index, type :: types =>
    if type.isReference then arguments? block m (index + 1) types
    else
      match argument? block m index type with
      | none => none
      | some value => (arguments? block m (index + 1) types).map (value :: ·)

/-- The number of cells that a text may take. The parameter behind the last place of the signature
gives it, if there is one. -/
def textCapacity (block : ParameterBlock) (signature : Signature) (index : Nat) : Option Nat :=
  if index + 1 < signature.slots.length then none
  else
    match block.get? (index + 1) with
    | some size => if 0 < size then some size.toInt.toNat else none
    | none => none

/-- Write one value that a handler answered. A place that cannot be written is skipped. -/
def writeOne (block : ParameterBlock) (signature : Signature) (m : Machine) (index : Nat)
    (type : SlotType) (value : ScriptValue) : Machine :=
  let written :=
    match type with
    | .intRef => block.setInteger? m index (value.exactCell?.getD (-1))
    | .floatRef =>
      block.setFloat? m index ((value.number?.map Double.toSingle).getD Single.minusOne)
    | .textRef =>
      block.setText? m index (value.text?.getD "") (textCapacity block signature index)
    | _ => none
  written.getD m

/-- **Write the values** that a handler answered, in the order of the signature. The parameters are looked
at for each of them. -/
def writeBack (parameters : Parameters) (signature : Signature) :
    Nat → List SlotType → List ScriptValue → Machine → Machine
  | _, [], _, m => m
  | _, _, [], m => m
  | index, type :: types, value :: values, m =>
    if type.isReference then
      let m := writeOne (parameters.block m) signature m index type value
      writeBack parameters signature (index + 1) types values m
    else writeBack parameters signature (index + 1) types (value :: values) m

/-- What a native without references answers for the answer of its handler. -/
def plainResult : Option ScriptValue → Cell
  | none => 0
  | some value => value.exactCell?.getD 1

/-- The values for the references, if the handler answered the right number of them. -/
def outputs? (signature : Signature) (answer : Option ScriptValue) : Option (List ScriptValue) :=
  match answer.bind (·.entries?) with
  | some values => if values.length = signature.referenceCount then some values else none
  | none => none

/-- What a call answers and does to memory, once the handler has answered. -/
def finish (parameters : Parameters) (signature : Signature) (m : Machine)
    (answer : Option ScriptValue) : Cell × Machine :=
  if signature.referenceCount = 0 then (plainResult answer, m)
  else
    match outputs? signature answer with
    | some values => (1, writeBack parameters signature 0 signature.slots values m)
    | none => (-1, m)

/-- **Call a provided native.** `meaning` gives the code behind a handle. -/
def call {W : Type} (provided : ProvidedNatives H) (meaning : H → Handler W) (name : String)
    (parameters : Parameters) (m : Machine) (w : W) : Cell × Machine × W :=
  match provided.find? name with
  | none => (0, m, w)
  | some native =>
    let block := parameters.block m
    if block.count < native.signature.argumentCount then (0, m, w)
    else
      match arguments? block m 0 native.signature.slots with
      | none => (0, m, w)
      | some arguments =>
        let (answer, w) := meaning native.handler arguments w
        let (result, m) := finish parameters native.signature m answer
        (result, m, w)

end ProvidedNatives

end ScriptBridge
