import ScriptBridge.Text.Utf8
import ScriptBridge.Value.Cell

/-!
# Program images

What is known about a program before it runs lies in its image: a header, and behind it
the table of the public functions. The header says where the table starts, where the next
table follows it, and how large an entry is. An entry of eight bytes holds an address and
the offset of a name stored elsewhere in the image; any other entry holds an address and
the name itself. Names end with a zero byte. All numbers are little-endian.

The place of a name in the table is the index by which the function is called, so a name
that cannot be read must keep its place.
-/

namespace ScriptBridge

/-- **The bytes of a program image**, from the start of its header. Behind them lie zeros. -/
structure Image where
  bytes : Array UInt8
  deriving Inhabited

namespace Image

/-- The number of bytes of a header. -/
def headerSize : Nat := 56

/-- The number of bytes a name may have, its terminator included. -/
def nameLimit : Nat := 32

/-- The size of a table entry that points to its name. -/
def pointerEntry : Int := 8

/-- The byte at an offset. -/
def byteAt (image : Image) (offset : Int) : UInt8 :=
  if 0 ≤ offset then image.bytes.getD offset.toNat 0 else 0

/-- The word of 32 bits at an offset. -/
def wordAt (image : Image) (offset : Int) : UInt32 :=
  (image.byteAt offset).toUInt32 ||| ((image.byteAt (offset + 1)).toUInt32 <<< 8) |||
    ((image.byteAt (offset + 2)).toUInt32 <<< 16) ||| ((image.byteAt (offset + 3)).toUInt32 <<< 24)

/-- The size of a table entry. -/
def entrySize (image : Image) : Int := (image.wordAt 8 >>> 16).toUInt16.toInt16.toInt

/-- The offset of the public functions. -/
def publics (image : Image) : Int := (image.wordAt 32).toInt32.toInt

/-- The offset of the natives, where the public functions end. -/
def natives (image : Image) : Int := (image.wordAt 36).toInt32.toInt

/-- The number of public functions. -/
def publicCount (image : Image) : Nat :=
  if 0 < image.entrySize ∧ image.publics ≤ image.natives then
    ((image.natives - image.publics) / image.entrySize).toNat
  else 0

/-- The bytes from an offset on up to a zero byte, if one comes within the limit. -/
def boundedBytes? (image : Image) : Nat → Int → Option (List UInt8)
  | 0, _ => none
  | limit + 1, offset =>
    let b := image.byteAt offset
    if b = 0 then some [] else (boundedBytes? image limit (offset + 1)).map (b :: ·)

/-- Where the name of an entry starts. -/
def nameOffset (image : Image) (entry : Int) : Int :=
  if image.entrySize = pointerEntry then (image.wordAt (entry + 4)).toNat else entry + 4

/-- **The name of a public function**, if there is such a function and its name can be read. -/
def publicName? (image : Image) (index : Nat) : Option String :=
  if index < image.publicCount then
    let entry := image.publics + index * image.entrySize
    (image.boundedBytes? nameLimit (image.nameOffset entry)).map Utf8.lossy
  else none

/-- **The names of all public functions**, by index. A name that cannot be read is empty. -/
def publicNames (image : Image) : List String :=
  (List.range image.publicCount).map fun index => (image.publicName? index).getD ""

/-! ## Building images -/

/-- The bytes of a word of 32 bits. -/
def wordBytes (word : UInt32) : List UInt8 :=
  [word.toUInt8, (word >>> 8).toUInt8, (word >>> 16).toUInt8, (word >>> 24).toUInt8]

/-- A header with the given entry size and tables. -/
def header (entrySize : Int) (publics natives : Int) : List UInt8 :=
  List.replicate 8 (0 : UInt8) ++ wordBytes ((Int32.ofInt entrySize).toUInt32 <<< 16) ++ List.replicate 20 (0 : UInt8) ++
    wordBytes (Int32.ofInt publics).toUInt32 ++ wordBytes (Int32.ofInt natives).toUInt32 ++
    List.replicate 16 (0 : UInt8)

/-- An image made of a header and what follows it. -/
def ofParts (entrySize publics natives : Int) (body : List UInt8) : Image :=
  ⟨(header entrySize publics natives ++ body).toArray⟩

/-- The entries of a name table whose first name lies at `offset`. -/
def pointerEntries : Nat → List (List UInt8) → List UInt8
  | _, [] => []
  | offset, name :: names =>
    wordBytes 0 ++ wordBytes (UInt32.ofNat offset) ++ pointerEntries (offset + name.length + 1) names

/-- **An image with a name table**: entries that point to names stored behind them. -/
def withNameTable (names : List (List UInt8)) : Image :=
  let natives := headerSize + 8 * names.length
  ofParts 8 headerSize natives
    (pointerEntries natives names ++ names.flatMap fun name => name ++ [0])

/-- The number of name bytes in an entry that holds its name. -/
def inlineNameSize : Nat := 20

/-- A name cut or padded to the size of an entry. -/
def inlineName (name : List UInt8) : List UInt8 :=
  let kept := name.take inlineNameSize
  kept ++ List.replicate (inlineNameSize - kept.length) 0

/-- **An image with names in its entries.** A name that fills its entry ends at the zero address
of the next one. -/
def withInlineNames (names : List (List UInt8)) : Image :=
  ofParts 24 headerSize (headerSize + 24 * names.length)
    (names.flatMap fun name => wordBytes 0 ++ inlineName name)

end Image

end ScriptBridge
