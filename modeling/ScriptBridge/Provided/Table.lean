import ScriptBridge.Definition.Natives
import ScriptBridge.Log.Event
import ScriptBridge.Native.Registry
import ScriptBridge.Provided.Natives

/-!
# The table of provided natives

The server is handed a table of the natives that a script may provide. It calls them by
their places in the table, and each place stands for a name. While the table is bound, a
call of a place becomes a call of the native under the name at that place; otherwise it answers
zero and a warning goes to the log.

Three lists have to agree on the places: the names as the server gets them, the functions that stand
ready for the places, and the names that calls are answered by while the table is bound.
-/

namespace ScriptBridge

/-- **The table**, by its names as the server gets them. -/
structure NativeTable where
  names : List (List UInt8)
  deriving DecidableEq, Inhabited

namespace NativeTable

/-- The largest number of places. -/
def capacity : Nat := NativeNames.maxNatives

/-- **The table of some names.** Names that cannot be handed over and those beyond the capacity are
left out. -/
def ofNames (names : List String) : NativeTable :=
  ⟨(names.filterMap fun name => zeroEnded? (Utf8.encode name)).take capacity⟩

/-- The name at a place. -/
def name? (table : NativeTable) (slot : Nat) : Option String := table.names[slot]?.bind Utf8.strict?

/-- The functions that stand ready, given the one of each place. -/
def thunks {F : Type} (function : Nat → F) : List F := (List.range capacity).map function

/-- **The table as the server gets it.** -/
def entries {F : Type} (table : NativeTable) (function : Nat → F) : List (NativeEntry F) :=
  List.zipWith (fun name f => ⟨some name, some f⟩) table.names (thunks function)

/-- The number of places. -/
def size (table : NativeTable) : Nat := (table.entries id).length

/-- The names that calls are answered by while the table is bound. -/
def boundNames (table : NativeTable) : List String := (List.range table.size).filterMap table.name?

variable {H W : Type}

/-- The warning about a call that comes too early or too late. -/
def unboundWarning (slot : Nat) : Log.Event :=
  ⟨.warn, "Provided native called before the plugin was loaded", [("slot", .number slot)]⟩

/-- The warning about a call in the middle of another one. -/
def busyWarning (name : String) : Log.Event :=
  ⟨.warn, "Provided native called while another one is running", [("native", .plain name)]⟩

/-- **Call the native at a place.** `bound` is the table that is bound, if there is one. -/
def dispatch (bound : Option NativeTable) (log : Log.Event → W → W) (provided : ProvidedNatives H)
    (meaning : H → Handler W) (slot : Nat) (parameters : Parameters) (m : Machine) (w : W) :
    Cell × Machine × W :=
  match bound with
  | none => (0, m, log (unboundWarning slot) w)
  | some table =>
    match table.boundNames[slot]? with
    | none => (0, m, w)
    | some name =>
      if provided.running then (0, m, log (busyWarning name) w)
      else provided.call meaning name parameters m w

end NativeTable

end ScriptBridge
