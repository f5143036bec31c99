import ScriptBridge.Memory.Machine

/-!
# Programs

A program as the bridge sees it at the moment of a call: who it is, what was pushed for
the call, and what can be read from its memory. A machine with an identity is such a
program; so is anything else that answers the same questions.
-/

namespace ScriptBridge

/-- **The identity of a loaded program.** It stays the same while the program is loaded. -/
abbrev ProgramId := Nat

/-- **A program, as it stands.** -/
structure Program where
  id : ProgramId
  argumentCount : Nat
  argument? : Nat → Option Cell
  readText? : Cell → Option String
  publicNames : List String

/-- The program that a machine runs. -/
def Machine.program (m : Machine) (id : ProgramId) : Program where
  id := id
  argumentCount := m.argumentCount
  argument? := m.argument?
  readText? := m.readText?
  publicNames := m.publicNames

end ScriptBridge
