/-!
# Characters of configuration documents

Which characters may stand where, and the blanks, line endings and comments that separate
the parts of a document.
-/

namespace ScriptBridge.Toml

/-- Whether a character lies outside the basic alphabet. -/
def isWide (c : Char) : Bool := 0x80 ≤ c.toNat

/-- Whether a character may stand in a comment, or for itself in a text. Quotes have to be looked at
separately. -/
def isTextChar (c : Char) : Bool := c = '\t' || (0x20 ≤ c.toNat && c.toNat ≤ 0x7E) || isWide c

/-- Whether a character may stand in a name without quotes. -/
def isBareChar (c : Char) : Bool := c.isAlphanum || c = '_' || c = '-'

/-- Whether a character separates parts of a line. -/
def isSpace (c : Char) : Bool := c = ' ' || c = '\t'

/-- What follows spaces. -/
def skipSpaces (cs : List Char) : List Char := cs.dropWhile isSpace

/-- What follows the end of a line, if the line ends here. -/
def lineEnd? : List Char → Option (List Char)
  | '\n' :: cs => some cs
  | '\r' :: '\n' :: cs => some cs
  | _ => none

/-- What follows a comment, if there is one. -/
def skipComment : List Char → List Char
  | '#' :: cs => cs.dropWhile isTextChar
  | cs => cs

/-- What follows the rest of a line that holds no more than spaces and a comment. -/
def restOfLine? (cs : List Char) : Option (List Char) :=
  match skipComment (skipSpaces cs) with
  | [] => some []
  | cs => lineEnd? cs

/-- What follows spaces, comments and line endings. The first text is as long as the second at least
and bounds the lines. -/
def skipLines : List Char → List Char → List Char
  | [], cs => cs
  | _ :: lines, cs =>
    let rest := skipComment (skipSpaces cs)
    match lineEnd? rest with
    | some cs => skipLines lines cs
    | none => rest

/-- What follows everything that separates the entries of an array. -/
def skipTrivia (cs : List Char) : List Char := skipLines cs cs

end ScriptBridge.Toml
