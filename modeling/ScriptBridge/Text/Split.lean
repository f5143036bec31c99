/-!
# Cutting texts

The few ways in which a declaration is taken apart: at the first or at every separator,
behind an opening and in front of an ending.
-/

namespace ScriptBridge.Text

/-- What stands before and behind the first separator. -/
def splitOnce? (separator : Char) : List Char → Option (List Char × List Char)
  | [] => none
  | c :: cs =>
    if c = separator then some ([], cs)
    else (splitOnce? separator cs).map fun parts => (c :: parts.1, parts.2)

/-- The pieces between all separators; there is always at least one. -/
def splitAll (separator : Char) : List Char → List (List Char)
  | [] => [[]]
  | c :: cs =>
    if c = separator then [] :: splitAll separator cs
    else
      match splitAll separator cs with
      | [] => [[c]]
      | piece :: pieces => (c :: piece) :: pieces

/-- What follows an opening, if the text starts with it. -/
def after? : List Char → List Char → Option (List Char)
  | [], cs => some cs
  | _ :: _, [] => none
  | o :: os, c :: cs => if o = c then after? os cs else none

/-- What comes before a last character, if the text ends with it. -/
def before? (last : Char) (cs : List Char) : Option (List Char) :=
  if cs.getLast? = some last then some cs.dropLast else none

end ScriptBridge.Text
