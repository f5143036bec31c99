/-!
# The server's code page

Inside the server a character is one byte of windows-1252. Bytes below 0x80 and from
0xA0 on stand for the character of the same number. The 32 bytes between them stand
for the characters of `upperControls`, five of which are control characters of the
same number because nothing else was ever assigned to those bytes.

A character outside the code page is written as a question mark.
-/

namespace ScriptBridge.CodePage

/-- The characters of the bytes 0x80 to 0x9F. -/
def upperControls : List Nat :=
  [0x20AC, 0x0081, 0x201A, 0x0192, 0x201E, 0x2026, 0x2020, 0x2021,
   0x02C6, 0x2030, 0x0160, 0x2039, 0x0152, 0x008D, 0x017D, 0x008F,
   0x0090, 0x2018, 0x2019, 0x201C, 0x201D, 0x2022, 0x2013, 0x2014,
   0x02DC, 0x2122, 0x0161, 0x203A, 0x0153, 0x009D, 0x017E, 0x0178]

/-- The character of a byte. -/
def decodeByte (b : UInt8) : Char :=
  if 0x80 ≤ b ∧ b < 0xA0 then Char.ofNat (upperControls.getD (b.toNat - 0x80) 0)
  else Char.ofNat b.toNat

/-- The byte of a character, if it has one. -/
def encodeChar? (c : Char) : Option UInt8 :=
  if c.toNat < 0x80 ∨ (0xA0 ≤ c.toNat ∧ c.toNat < 0x100) then some (UInt8.ofNat c.toNat)
  else (upperControls.idxOf? c.toNat).map fun i => UInt8.ofNat (0x80 + i)

/-- Written in place of a character that has no byte. -/
def substitute : UInt8 := 0x3F

/-- **Text into the code page**, one byte for each character. -/
def encode (text : String) : List UInt8 :=
  text.toList.map fun c => (encodeChar? c).getD substitute

/-- **Text out of the code page**, one character for each byte. -/
def decode (bytes : List UInt8) : String :=
  String.ofList (bytes.map decodeByte)

end ScriptBridge.CodePage
