import ScriptBridge.Log.Event

/-!
# Printing from several threads

Only the thread of the server may print. It prints what it has to log at once. The other
threads leave their lines in a queue, and the server prints what has gathered there once
in every frame.

What is to be logged comes in parts. A writer collects them and hands the whole text on
when it is told to, or in the end.
-/

namespace ScriptBridge.Log

/-- **The log**: the lines that other threads left, and those that were printed. -/
structure Queue where
  pending : List Line := []
  printed : List Line := []
  deriving DecidableEq, Inhabited

namespace Queue

/-- **Print a line.** One that holds a zero cannot be handed over and is left out. -/
def print (queue : Queue) (line : Line) : Queue :=
  match zeroEnded? line with
  | none => queue
  | some line => { queue with printed := queue.printed ++ [line] }

/-- **Log a line**, on the thread of the server or on another one. -/
def dispatchLine (onServer : Bool) (queue : Queue) (line : Line) : Queue :=
  if onServer then queue.print line else { queue with pending := queue.pending ++ [line] }

/-- Log lines, one after the other. -/
def dispatch (onServer : Bool) (queue : Queue) (lines : List Line) : Queue :=
  lines.foldl (dispatchLine onServer) queue

/-- **Print what is pending.** It is taken as a whole and then printed line by line. -/
def flush (queue : Queue) : Queue := queue.pending.foldl print { queue with pending := [] }

/-- Log a text. -/
def write (onServer : Bool) (queue : Queue) (text : List UInt8) : Queue :=
  queue.dispatch onServer (emit text)

end Queue

/-- **A writer** with the text it has collected. -/
structure Writer where
  buffer : List UInt8 := []
  deriving DecidableEq, Inhabited

namespace Writer

/-- Collect a part. -/
def write (writer : Writer) (part : List UInt8) : Writer := ⟨writer.buffer ++ part⟩

/-- Hand on what was collected. -/
def flush (onServer : Bool) (writer : Writer) (queue : Queue) : Writer × Queue :=
  ({}, queue.write onServer writer.buffer)

/-- The end of a writer hands on what is left. -/
def drop (onServer : Bool) (writer : Writer) (queue : Queue) : Queue :=
  if writer.buffer.isEmpty then queue else (writer.flush onServer queue).2

/-- Write parts one after the other, handing on each at once if `eager`. -/
def writeAll (onServer eager : Bool) : Writer → Queue → List (List UInt8) → Writer × Queue
  | writer, queue, [] => (writer, queue)
  | writer, queue, part :: parts =>
    let writer := writer.write part
    if eager then
      let (writer, queue) := writer.flush onServer queue
      writeAll onServer eager writer queue parts
    else writeAll onServer eager writer queue parts

end Writer

/-- **Log parts** through a writer of their own. -/
def Queue.writeParts (onServer eager : Bool) (queue : Queue) (parts : List (List UInt8)) : Queue :=
  let (writer, queue) := Writer.writeAll onServer eager {} queue parts
  writer.drop onServer queue

end ScriptBridge.Log
