import ScriptBridge.Text.CodePage

/-!
# Encoding into a buffer

An encoder is given what is left of a text and the room that is left in a buffer, and it does as
much as it can. It stops at the end of the text, behind a character that the code page does not
have, or where the buffer is full. How far it read is counted in bytes of UTF-8, and a text can be
cut between its characters only.

A whole text is encoded by calling the encoder until it reaches the end. Behind a character that
the code page does not have the substitute is put into the buffer, and the rest of the text is
encoded behind it. The buffer has as many bytes as the text has in UTF-8, and it is not made
larger on the way. Something that lies outside the buffer or the text stops the caller.
-/

namespace ScriptBridge

/-- **Why an encoder stopped.** -/
inductive EncoderStop where
  | inputEmpty
  | unmappable (character : Char)
  | outputFull
  deriving DecidableEq

/-- **What an encoder did**: why it stopped, how many bytes of the text it read, and what it wrote. -/
structure EncoderRun where
  stop : EncoderStop
  read : Nat
  written : List UInt8
  deriving DecidableEq

/-- **An encoder.** It is given the rest of a text and the number of bytes there is room for. -/
abbrev Encoder := List Char → Nat → EncoderRun

/-- **What came of encoding a text** into a buffer. -/
inductive BufferedText where
  /-- The end of the text was reached. -/
  | complete (bytes : List UInt8)
  /-- The buffer was full before the end, and the rest of the text is lost. -/
  | cutShort (bytes : List UInt8)
  /-- Something outside the buffer or inside a character was used. -/
  | outOfBounds
  deriving DecidableEq

namespace CodePage

/-- What a text is behind a number of its bytes, unless that is no place between characters. -/
def dropBytes? : List Char → Nat → Option (List Char)
  | text, 0 => some text
  | [], _ + 1 => none
  | c :: text, n + 1 => if c.utf8Size ≤ n + 1 then dropBytes? text (n + 1 - c.utf8Size) else none

/-- Encode the rest of a text behind what is in the buffer. `size` is the number of bytes of the
buffer, and `written` are those in front. -/
def encodeFrom (encoder : Encoder) (size : Nat) (text : List Char) (written : List UInt8) :
    BufferedText :=
  let run := encoder text (size - written.length)
  let filled := written ++ run.written
  match dropBytes? text run.read with
  | none => .outOfBounds
  | some rest =>
    match run.stop with
    | .inputEmpty => .complete filled
    | .outputFull => .cutShort filled
    | .unmappable _ =>
      if filled.length < size then encodeFrom encoder size rest (filled ++ [substitute])
      else .outOfBounds
termination_by size - written.length
decreasing_by
  rename_i hroom
  simp only [filled, List.length_append, List.length_singleton] at hroom ⊢
  omega

/-- **Encode a text** into a buffer of as many bytes as the text has in UTF-8. -/
def encodeInBuffer (encoder : Encoder) (text : String) : BufferedText :=
  encodeFrom encoder text.utf8ByteSize text.toList []

/-- **An encoder for the code page**, which looks for room in front of every character. -/
def encoder : Encoder
  | [], _ => ⟨.inputEmpty, 0, []⟩
  | _ :: _, 0 => ⟨.outputFull, 0, []⟩
  | c :: text, room + 1 =>
    match encodeChar? c with
    | none => ⟨.unmappable c, c.utf8Size, []⟩
    | some b =>
      let run := encoder text room
      ⟨run.stop, run.read + c.utf8Size, b :: run.written⟩

end CodePage

end ScriptBridge
