import ScriptBridge.Text.Invisible

/-!
# Quoted texts

A text is shown between double quotes. Quotes and backslashes in it stand behind a
backslash, the common controls have escapes of one letter, and any other character that
cannot be seen is shown by its number.
-/

namespace ScriptBridge.Text

/-- A character by its number. -/
def byNumber (c : Char) : List Char :=
  ['\\', 'u', '\x7b'] ++ Nat.toDigits 16 c.toNat ++ ['\x7d']

/-- A character as it is shown between quotes. -/
def shown (c : Char) : List Char :=
  if c = '\x00' then ['\\', '0']
  else if c = '\t' then ['\\', 't']
  else if c = '\r' then ['\\', 'r']
  else if c = '\n' then ['\\', 'n']
  else if c = '"' ∨ c = '\\' then ['\\', c]
  else if isInvisible c then byNumber c
  else [c]

/-- **A text between quotes.** -/
def quoted (text : String) : String :=
  String.ofList ('"' :: text.toList.flatMap shown ++ ['"'])

end ScriptBridge.Text
