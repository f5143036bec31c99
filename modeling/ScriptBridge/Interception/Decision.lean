import ScriptBridge.Value.Cell

/-!
# Decisions on executions

Every execution that the server is asked for is decided on before it runs. It is either
forwarded to the server's own function, or answered in its place.
-/

namespace ScriptBridge

/-- The code a function of the server answers. -/
abbrev StatusCode := Int32

namespace StatusCode

/-- Nothing went wrong. -/
def success : StatusCode := 0

/-- There is no function of that name. -/
def notFound : StatusCode := 19

/-- Something went wrong that has no code of its own. -/
def general : StatusCode := 27

end StatusCode

/-- **What to do with an execution.** -/
inductive Decision where
  | handled (value : Cell)
  | forward
  deriving DecidableEq, Inhabited

/-- **Carry out a decision.** `slot` is the cell for the result, if the caller wants one, and
`original` runs the function of the server. A handled execution does not run it. -/
def Decision.resolve {W : Type} (decision : Decision) (slot : Option Cell)
    (original : Option Cell → W → StatusCode × Option Cell × W) (w : W) :
    StatusCode × Option Cell × W :=
  match decision with
  | .handled value => (.success, slot.map fun _ => value, w)
  | .forward => original slot w

end ScriptBridge
