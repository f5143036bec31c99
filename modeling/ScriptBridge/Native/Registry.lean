import ScriptBridge.Hook.Error
import ScriptBridge.Memory.Scratch
import ScriptBridge.Native.ArrayLengths
import ScriptBridge.Text.Utf8

/-!
# The registry of natives

The server and its plugins register natives, in lists, whenever a program is loaded. The
registry listens and keeps what it hears. The first registration of a name counts and
the later ones are ignored, because a server registers the same natives again for each
program.

The registry also owns the scratch memory against which natives are called.
-/

namespace ScriptBridge

/-- **An entry of a registered list**: a name in bytes and a function, either of which may be missing. -/
structure NativeEntry (F : Type) where
  name : Option (List UInt8)
  function : Option F

/-- **The known natives.** A function is a handle of type `F`. -/
structure Registry (F : Type) where
  natives : List (String × F) := []
  scratch : Scratch := Scratch.new
  arrayLengths : ArrayLengths := {}
  installed : Bool := false

namespace Registry

variable {F : Type}

/-- The function under a name. -/
def find? (registry : Registry F) (name : String) : Option F := registry.natives.lookup name

/-- Whether a name is known. -/
def knows (registry : Registry F) (name : String) : Bool := (registry.find? name).isSome

/-- The number of known natives. -/
def size (registry : Registry F) : Nat := registry.natives.length

/-- Record one native, unless its name is known. -/
def add (registry : Registry F) (native : String × F) : Registry F :=
  if registry.knows native.1 then registry
  else { registry with natives := registry.natives ++ [native] }

/-- **Record natives** in the order given. -/
def register (registry : Registry F) (natives : List (String × F)) : Registry F :=
  natives.foldl add registry

/-- The native that an entry stands for; an entry with a part missing ends a list. -/
def entry? (entry : NativeEntry F) : Option (String × F) :=
  match entry.name, entry.function with
  | some name, some function => some (Utf8.lossy (name.takeWhile (· != 0)), function)
  | _, _ => none

/-- The natives of a list up to its end. -/
def upToEnd : List (NativeEntry F) → List (String × F)
  | [] => []
  | entry :: entries =>
    match entry? entry with
    | some native => native :: upToEnd entries
    | none => []

/-- The entries that a count admits. A count that is not positive admits all. -/
def counted (number : Cell) (entries : List (NativeEntry F)) : List (NativeEntry F) :=
  if 0 < number then entries.take number.toInt.toNat else entries

/-- **Record a registered list.** A missing list holds nothing. -/
def registerList (registry : Registry F) (list : Option (List (NativeEntry F))) (number : Cell) :
    Registry F :=
  match list with
  | none => registry
  | some entries => registry.register (upToEnd (counted number entries))

/-- **Install the hook** that lets the registry listen. -/
def install {W : Type} (registry : Registry F) (port : HookPort W) (w : W) :
    Except HookError Unit × Registry F × W :=
  match port.ensure w with
  | (.ok (), w) => (.ok (), { registry with installed := true }, w)
  | (.error e, w) => (.error e, registry, w)

end Registry

end ScriptBridge
