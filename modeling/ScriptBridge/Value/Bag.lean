import ScriptBridge.Value.Argument

/-!
# Argument bags

The arguments of an intercepted call, by name. A name holds one value, the last one
stored under it. The typed lookups never fail: a missing name, or a value of another
type, gives the sentinel of the type that was asked for.
-/

namespace ScriptBridge

/-- **Named arguments.** `entries` holds each name at most once, in the order of first storing. -/
structure Bag where
  entries : List (String × ArgumentValue) := []
  deriving Inhabited

namespace Bag

/-- A bag without values. -/
def empty : Bag := {}

/-- Put a value under a name into a list of entries. -/
def store (name : String) (value : ArgumentValue) :
    List (String × ArgumentValue) → List (String × ArgumentValue)
  | [] => [(name, value)]
  | entry :: rest =>
    if entry.1 = name then (name, value) :: rest else entry :: store name value rest

/-- Put a value under a name, in place of an earlier one. -/
def insert (bag : Bag) (name : String) (value : ArgumentValue) : Bag :=
  ⟨store name value bag.entries⟩

/-- A bag with the given values, put in one after the other. -/
def ofList (entries : List (String × ArgumentValue)) : Bag :=
  entries.foldl (fun bag entry => bag.insert entry.1 entry.2) empty

/-- The value under a name. -/
def get? (bag : Bag) (name : String) : Option ArgumentValue := bag.entries.lookup name

/-- Whether a name holds a value. -/
def contains (bag : Bag) (name : String) : Bool := (bag.get? name).isSome

/-- The number of names. -/
def size (bag : Bag) : Nat := bag.entries.length

/-- The integer under a name, or `-1`. -/
def integer (bag : Bag) (name : String) : Cell :=
  match bag.get? name with
  | some (.integer value) => value
  | _ => -1

/-- The number under a name, or minus one. -/
def float (bag : Bag) (name : String) : Single :=
  match bag.get? name with
  | some (.float value) => value
  | _ => Single.minusOne

/-- The text under a name, or the empty text. -/
def text (bag : Bag) (name : String) : String :=
  match bag.get? name with
  | some (.text value) => value
  | _ => ""

/-- The raw cells under a name, or none. -/
def cells (bag : Bag) (name : String) : List UInt32 :=
  match bag.get? name with
  | some (.cells values) => values
  | _ => []

/-- The values with their names, in the order of the names. -/
def toList (bag : Bag) : List (String × ArgumentValue) :=
  bag.entries.mergeSort fun a b => a.1 ≤ b.1

/-- The bag as a script sees it. -/
def toScript (bag : Bag) : List (String × ScriptValue) :=
  bag.toList.map fun entry => (entry.1, entry.2.toScript)

/-- Whether two bags hold the same names with the same values. -/
def same (a b : Bag) : Bool :=
  a.size == b.size && a.entries.all fun entry =>
    match b.get? entry.1 with
    | some value => entry.2.same value
    | none => false

end Bag

end ScriptBridge
