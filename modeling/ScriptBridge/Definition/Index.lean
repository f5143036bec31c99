import ScriptBridge.Definition.Callbacks

/-!
# How callbacks are kept

A table of callbacks is kept in two parts: a row of callbacks, in which each has its position, and an
index that leads from a name to a position. An insertion first asks the index whether the name is taken,
and then changes the index and the row, one after the other. A look-up by name goes through the index
into the row.

Nothing in the two parts says that they agree. If the index led behind the end of the row, a look-up
would stop the caller.
-/

namespace ScriptBridge

/-- **What came of a look-up by name.** -/
inductive LookUp where
  /-- The index does not have the name. -/
  | missing
  | found (callback : Callback)
  /-- The index leads to a position behind the end of the row. -/
  | outOfBounds
  deriving DecidableEq

/-- **Callbacks with an index of their names.** Of several entries of a name the first one counts. -/
structure IndexedCallbacks where
  callbacks : List Callback := []
  index : List (String × Nat) := []
  deriving DecidableEq, Inhabited

namespace IndexedCallbacks

/-- The position under a name. -/
def position? (kept : IndexedCallbacks) (name : String) : Option Nat := kept.index.lookup name

/-- The callback at a position. -/
def get? (kept : IndexedCallbacks) (position : Nat) : Option Callback := kept.callbacks[position]?

/-- The number of callbacks. -/
def size (kept : IndexedCallbacks) : Nat := kept.callbacks.length

/-- **Look a callback up** by its name. -/
def lookUp (kept : IndexedCallbacks) (name : String) : LookUp :=
  match kept.position? name with
  | none => .missing
  | some position =>
    match kept.get? position with
    | some callback => .found callback
    | none => .outOfBounds

/-- Note in the index that a name stands for the next position. -/
def note (kept : IndexedCallbacks) (name : String) : IndexedCallbacks :=
  { kept with index := (name, kept.size) :: kept.index }

/-- Put a callback at the end of the row. -/
def push (kept : IndexedCallbacks) (callback : Callback) : IndexedCallbacks :=
  { kept with callbacks := kept.callbacks ++ [callback] }

/-- **Add a callback**, unless its name is taken; the answer says whether it was added. -/
def insert (kept : IndexedCallbacks) (callback : Callback) : Bool × IndexedCallbacks :=
  if (kept.position? callback.name).isSome then (false, kept)
  else (true, (kept.note callback.name).push callback)

/-- Add callbacks in their order. -/
def insertAll (kept : IndexedCallbacks) : List Callback → List Bool × IndexedCallbacks
  | [] => ([], kept)
  | callback :: rest =>
    let (added, kept) := kept.insert callback
    let (answers, kept) := kept.insertAll rest
    (added :: answers, kept)

/-- Add the declarations of content lines, up to the first that is refused. -/
def addLines (kept : IndexedCallbacks) :
    List (Nat × List Char) → Except DefinitionError IndexedCallbacks
  | [] => .ok kept
  | (number, line) :: lines =>
    match Declaration.parse line with
    | .error problem => .error (.malformed number problem (String.ofList line))
    | .ok callback =>
      match kept.insert callback with
      | (false, _) => .error (.duplicate callback.name number)
      | (true, kept) => kept.addLines lines

/-- **Read a callback file.** -/
def parse (text : String) : Except DefinitionError IndexedCallbacks :=
  addLines {} (Definition.contentLines text.toList)

/-- The table that is kept. -/
def table (kept : IndexedCallbacks) : CallbackTable := ⟨kept.callbacks⟩

end IndexedCallbacks

end ScriptBridge
