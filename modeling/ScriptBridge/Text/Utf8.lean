/-!
# Reading UTF-8

Names, files and log lines arrive as bytes that may or may not be UTF-8. A strict
reader refuses malformed bytes; a lossy one puts the replacement character in place
of each maximal malformed piece, which is what a text needs that must be shown
whatever it is.

The lead byte of a character fixes its length and the range its second byte must lie
in; later bytes are plain continuations. A piece that goes wrong is as long as the
part of it that was still possible, and the byte that broke it starts afresh.
-/

namespace ScriptBridge.Utf8

/-- **One step of reading**: a character, or a malformed piece, and how many bytes it takes. -/
inductive Step where
  | char (c : Char) (length : Nat)
  | malformed (length : Nat)

/-- The payload of a continuation byte within the given range. -/
def continuation? (low high : UInt8) (b : UInt8) : Option Nat :=
  if low ≤ b ∧ b ≤ high then some (b.toNat % 64) else none

/-- The range of the second byte after a lead byte of three or four. -/
def secondRange (lead : UInt8) : UInt8 × UInt8 :=
  if lead = 0xE0 then (0xA0, 0xBF)
  else if lead = 0xED then (0x80, 0x9F)
  else if lead = 0xF0 then (0x90, 0xBF)
  else if lead = 0xF4 then (0x80, 0x8F)
  else (0x80, 0xBF)

/-- The payload of the byte at `i`, if there is such a byte and it continues a character. -/
def payload? (bytes : List UInt8) (i : Nat) (range : UInt8 × UInt8) : Option Nat :=
  match bytes[i]? with
  | some b => continuation? range.1 range.2 b
  | none => none

/-- Read what starts with `lead`, the bytes behind it being `rest`. -/
def step (lead : UInt8) (rest : List UInt8) : Step :=
  let plain : UInt8 × UInt8 := (0x80, 0xBF)
  let top := lead.toNat
  if top < 0x80 then .char (Char.ofNat top) 1
  else if 0xC2 ≤ top ∧ top ≤ 0xDF then
    match payload? rest 0 plain with
    | some a => .char (Char.ofNat (top % 32 * 64 + a)) 2
    | none => .malformed 1
  else if 0xE0 ≤ top ∧ top ≤ 0xEF then
    match payload? rest 0 (secondRange lead) with
    | none => .malformed 1
    | some a =>
      match payload? rest 1 plain with
      | none => .malformed 2
      | some b => .char (Char.ofNat (top % 16 * 4096 + a * 64 + b)) 3
  else if 0xF0 ≤ top ∧ top ≤ 0xF4 then
    match payload? rest 0 (secondRange lead) with
    | none => .malformed 1
    | some a =>
      match payload? rest 1 plain with
      | none => .malformed 2
      | some b =>
        match payload? rest 2 plain with
        | none => .malformed 3
        | some c => .char (Char.ofNat (top % 8 * 262144 + a * 4096 + b * 64 + c)) 4
  else .malformed 1

/-- The number of bytes a step takes. -/
def Step.length : Step → Nat
  | .char _ n => n
  | .malformed n => n

/-- The characters of some bytes, `none` for each malformed piece. -/
def pieces : List UInt8 → List (Option Char)
  | [] => []
  | lead :: rest =>
    match step lead rest with
    | .char c n => some c :: pieces (rest.drop (n - 1))
    | .malformed n => none :: pieces (rest.drop (n - 1))
termination_by bytes => bytes.length
decreasing_by all_goals (simp only [List.length_drop, List.length_cons]; omega)

/-- Stands for a malformed piece. -/
def replacement : Char := Char.ofNat 0xFFFD

/-- Read bytes whatever they are. -/
def lossy (bytes : List UInt8) : String :=
  String.ofList ((pieces bytes).map (·.getD replacement))

/-- Read bytes only if all of them are well formed. -/
def strict? (bytes : List UInt8) : Option String :=
  ((pieces bytes).mapM id).map String.ofList

/-- The bytes of a text. -/
def encode (text : String) : List UInt8 := text.toUTF8.toList

end ScriptBridge.Utf8

namespace ScriptBridge

/-- Bytes that a zero is to end, unless there is one among them. -/
def zeroEnded? (bytes : List UInt8) : Option (List UInt8) :=
  if bytes.contains 0 then none else some bytes

end ScriptBridge
