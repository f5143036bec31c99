import ScriptBridge.Diagnostic

/-!
# Signatures

A signature says how a native is called, one character for each argument. A lower case
character stands for a value that the caller supplies: an integer, a float, a text or
an array. An upper case character stands for a value that the native writes: `I`, `F`
or `S`. An `S` takes two arguments, the buffer and its size.

Signatures come in two grammars. The signature of a call into the machine has all the
supplied values in front of the written ones. The signature of a native that a script
provides maps each character to the parameter at its place, in any order, and knows no
arrays. Neither may have more than `maxSlots` characters.
-/

namespace ScriptBridge

/-- **One character of a signature.** -/
inductive SlotType where
  | int
  | float
  | text
  | array
  | intRef
  | floatRef
  | textRef
  deriving DecidableEq, Inhabited

namespace SlotType

/-- Read a character. -/
def ofChar? : Char → Option SlotType
  | 'i' => some .int
  | 'f' => some .float
  | 's' => some .text
  | 'a' => some .array
  | 'I' => some .intRef
  | 'F' => some .floatRef
  | 'S' => some .textRef
  | _ => none

/-- Write a character. -/
def toChar : SlotType → Char
  | .int => 'i'
  | .float => 'f'
  | .text => 's'
  | .array => 'a'
  | .intRef => 'I'
  | .floatRef => 'F'
  | .textRef => 'S'

/-- The name of a type. -/
def name : SlotType → String
  | .int => "Int"
  | .float => "Float"
  | .text => "String"
  | .array => "Array"
  | .intRef => "IntReference"
  | .floatRef => "FloatReference"
  | .textRef => "StringReference"

/-- Whether the native writes the value. -/
def isReference : SlotType → Bool
  | .intRef => true
  | .floatRef => true
  | .textRef => true
  | _ => false

end SlotType

/-- **Why a text is no signature.** -/
inductive SignatureError where
  | invalidCharacter (character : Char) (position : Nat)
  | plainAfterReference (character : Char) (position : Nat)
  | tooManyArguments (count limit : Nat)
  deriving DecidableEq

/-- The name of the cause. -/
def SignatureError.kind : SignatureError → String
  | .invalidCharacter _ _ => "InvalidCharacter"
  | .plainAfterReference _ _ => "PlainAfterReference"
  | .tooManyArguments _ _ => "TooManyArguments"

/-- What is wrong, in words. -/
def SignatureError.message : SignatureError → String
  | .invalidCharacter c p => s!"Invalid character '{c}' in signature at position {p}"
  | .plainAfterReference c p =>
    s!"Plain argument '{c}' at position {p} follows a reference argument"
  | .tooManyArguments count limit =>
    s!"Signature declares {count} arguments, at most {limit} are supported"

instance : Diagnostic SignatureError := ⟨SignatureError.kind, SignatureError.message⟩

/-- **A signature.** -/
structure Signature where
  slots : List SlotType
  deriving DecidableEq, Inhabited

namespace Signature

/-- The largest number of arguments that any native is called with. -/
def maxSlots : Nat := 24

/-- The number of values that the caller supplies. -/
def argumentCount (s : Signature) : Nat := s.slots.countP (!·.isReference)

/-- The number of values that the native writes. -/
def referenceCount (s : Signature) : Nat := s.slots.countP (·.isReference)

/-- The number of arguments that the native receives. -/
def physicalCount (s : Signature) : Nat := s.slots.length + s.slots.count .textRef

/-- The signature as text. -/
def toChars (s : Signature) : List Char := s.slots.map (·.toChar)

/-- Refuse a signature with too many characters. -/
def bounded (slots : List SlotType) : Except SignatureError Signature :=
  if maxSlots < slots.length then .error (.tooManyArguments slots.length maxSlots)
  else .ok ⟨slots⟩

/-- The characters from a position on, given whether a reference came before them. -/
def outboundSlots : List Char → Nat → Bool → Except SignatureError (List SlotType)
  | [], _, _ => .ok []
  | c :: cs, position, referenceSeen =>
    match SlotType.ofChar? c with
    | none => .error (.invalidCharacter c position)
    | some slot =>
      if referenceSeen && !slot.isReference then .error (.plainAfterReference c position)
      else
        match outboundSlots cs (position + 1) (referenceSeen || slot.isReference) with
        | .ok slots => .ok (slot :: slots)
        | .error e => .error e

/-- **The signature of a call into the machine.** The first unsuitable character decides the error. -/
def parse (text : String) : Except SignatureError Signature :=
  match outboundSlots text.toList 0 false with
  | .ok slots => bounded slots
  | .error e => .error e

/-- The characters from a position on; there are no arrays among them. -/
def providedSlots : List Char → Nat → Except SignatureError (List SlotType)
  | [], _ => .ok []
  | c :: cs, position =>
    match SlotType.ofChar? c with
    | none => .error (.invalidCharacter c position)
    | some .array => .error (.invalidCharacter c position)
    | some slot =>
      match providedSlots cs (position + 1) with
      | .ok slots => .ok (slot :: slots)
      | .error e => .error e

/-- **The signature of a provided native.** -/
def parseProvided (text : String) : Except SignatureError Signature :=
  match providedSlots text.toList 0 with
  | .ok slots => bounded slots
  | .error e => .error e

end Signature

end ScriptBridge
