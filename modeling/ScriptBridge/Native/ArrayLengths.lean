/-!
# Where natives expect array lengths

A native that takes an array takes its length as well, as an integer further along. Most
natives expect it directly behind the array. For the others the table gives the distance,
one for each array of the native in the order of the arrays.
-/

namespace ScriptBridge

/-- **The distances from arrays to their lengths**, by native. -/
structure ArrayLengths where
  entries : List (String × List Nat) := []
  deriving DecidableEq, Inhabited

namespace ArrayLengths

/-- The distance where the table gives none. -/
def defaultOffset : Nat := 1

/-- Put distances under a name into a list of entries. -/
def store (name : String) (offsets : List Nat) : List (String × List Nat) → List (String × List Nat)
  | [] => [(name, offsets)]
  | entry :: rest =>
    if entry.1 = name then (name, offsets) :: rest else entry :: store name offsets rest

/-- Set the distances of a native, in place of earlier ones. -/
def insert (table : ArrayLengths) (name : String) (offsets : List Nat) : ArrayLengths :=
  ⟨store name offsets table.entries⟩

/-- A table with the given distances, set one after the other. -/
def ofList (entries : List (String × List Nat)) : ArrayLengths :=
  entries.foldl (fun table entry => table.insert entry.1 entry.2) {}

/-- The number of natives with distances of their own. -/
def size (table : ArrayLengths) : Nat := table.entries.length

/-- **The distance** from an array of a native to its length. Occurrences count from zero. -/
def offset (table : ArrayLengths) (name : String) (occurrence : Nat) : Nat :=
  ((table.entries.lookup name).bind (·[occurrence]?)).getD defaultOffset

end ArrayLengths

end ScriptBridge
