import ScriptBridge.Native.Call
import ScriptBridge.Value.Script

/-!
# The staging area of calls

Before a native is called, the values of the script are converted and put into a staging
area, a slot for each argument of the native. A slot has room for whatever an argument may
be: a number, a text, an array and the bytes of a text to be written. The area belongs
to the caller and is used again for the next call, so a slot may hold what an
earlier call left there. Loading a slot overwrites what the new argument makes visible.
-/

namespace ScriptBridge

/-- The largest number of entries of an array argument. -/
def maxArrayLength : Nat := 144

/-- **What a staged slot stands for.** -/
inductive SlotKind where
  | integer
  | float
  | intRef
  | floatRef
  | text
  | array
  | buffer
  deriving DecidableEq, Inhabited

/-- **A slot of the staging area.** Numbers of either kind are kept as cells. -/
structure StagedSlot where
  kind : SlotKind := .integer
  number : Cell := 0
  text : String := ""
  output : List UInt8 := List.replicate maxTextLength 0
  array : List Cell := List.replicate maxArrayLength 0
  deriving Inhabited

namespace StagedSlot

/-- A slot with an integer. -/
def loadInteger (value : Cell) (slot : StagedSlot) : StagedSlot :=
  { slot with kind := .integer, number := value }

/-- A slot with a float. -/
def loadFloat (value : Single) (slot : StagedSlot) : StagedSlot :=
  { slot with kind := .float, number := Cell.ofSingle value }

/-- A slot with a text. -/
def loadText (value : String) (slot : StagedSlot) : StagedSlot :=
  { slot with kind := .text, text := value }

/-- The entries of an array, with zeros behind them. -/
def padded (values : List Cell) : List Cell :=
  values ++ List.replicate (maxArrayLength - values.length) 0

/-- A slot with an array. -/
def loadArray (values : List Cell) (slot : StagedSlot) : StagedSlot :=
  { slot with kind := .array, array := padded values }

/-- A slot for an integer or a float that the native writes. -/
def loadReference (kind : SlotKind) (slot : StagedSlot) : StagedSlot :=
  { slot with kind, number := 0 }

/-- A slot for a text that the native writes. -/
def loadBuffer (slot : StagedSlot) : StagedSlot :=
  { slot with kind := .buffer, output := 0 :: slot.output.drop 1 }

/-- The argument that a slot stands for. -/
def argument (slot : StagedSlot) : NativeArgument :=
  match slot.kind with
  | .integer => .integer slot.number
  | .float => .float (Cell.toSingle slot.number)
  | .intRef => .reference slot.number
  | .floatRef => .reference slot.number
  | .text => .text slot.text
  | .array => .array slot.array
  | .buffer => .buffer slot.output

/-- A slot after the native wrote to its argument. -/
def receive (slot : StagedSlot) : NativeArgument → StagedSlot
  | .reference value => { slot with number := value }
  | .array values => { slot with array := values }
  | .buffer bytes => { slot with output := bytes }
  | _ => slot

/-- The value of a slot that the native wrote. -/
def result? (slot : StagedSlot) : Option ScriptValue :=
  match slot.kind with
  | .intRef => some (.ofCell slot.number)
  | .floatRef => some (.number (Cell.toSingle slot.number).toDouble)
  | .buffer => some (.text (CodePage.decode (slot.output.takeWhile (· != 0))))
  | _ => none

end StagedSlot

/-- **The staging area.** -/
structure Staging where
  slots : List StagedSlot := List.replicate Signature.maxSlots {}
  deriving Inhabited

namespace Staging

/-- Change a slot, if there is one at the place. -/
def update? (staging : Staging) (place : Nat) (change : StagedSlot → StagedSlot) : Option Staging :=
  if place < staging.slots.length then some ⟨staging.slots.modify place change⟩ else none

/-- The arguments in the first slots. -/
def arguments (staging : Staging) (count : Nat) : List NativeArgument :=
  (staging.slots.take count).map (·.argument)

/-- The staging area after natives wrote to the arguments in the first slots. -/
def receive (staging : Staging) (arguments : List NativeArgument) : Staging :=
  ⟨List.zipWith StagedSlot.receive staging.slots arguments ++ staging.slots.drop arguments.length⟩

/-- The values that the native wrote in the first slots, in order. -/
def results (staging : Staging) (count : Nat) : List ScriptValue :=
  (staging.slots.take count).filterMap (·.result?)

end Staging

end ScriptBridge
