/-!
# The export table

The server hands out the addresses of its functions in a table. Each function has its
fixed place there, and a null address stands for a function that the server lacks.
Whoever calls through the table finds the function whose address is there at that time.
-/

namespace ScriptBridge

/-- An address of 64 bits. The null address is zero. -/
abbrev Address := UInt64

/-- **A function of the server** that is called or redirected. -/
inductive Export where
  | exec
  | findPublic
  | countPublics
  | push
  | pushArray
  | pushString
  | register
  | release
  deriving DecidableEq, Inhabited

/-- All of them, in the order of their places. -/
def Export.all : List Export :=
  [.exec, .findPublic, .countPublics, .push, .pushArray, .pushString, .register, .release]

/-- The place of a function in the table. -/
def Export.slot : Export → Nat
  | .exec => 7
  | .findPublic => 9
  | .countPublics => 26
  | .push => 29
  | .pushArray => 30
  | .pushString => 31
  | .register => 33
  | .release => 34

/-- The name of a function, as the diagnostics write it. -/
def Export.name : Export → String
  | .exec => "Exec"
  | .findPublic => "FindPublic"
  | .countPublics => "NumPublics"
  | .push => "Push"
  | .pushArray => "PushArray"
  | .pushString => "PushString"
  | .register => "Register"
  | .release => "Release"

/-- **The table.** Entries that are not listed are null. -/
structure ExportTable where
  entries : List Address
  deriving DecidableEq, Inhabited

namespace ExportTable

/-- The number of entries. -/
def entryCount : Nat := 44

/-- A table that starts with the given addresses and is null behind them. -/
def ofList (addresses : List Address) : ExportTable :=
  ⟨(addresses ++ List.replicate (entryCount - addresses.length) 0).take entryCount⟩

/-- The address of a function. -/
def address (table : ExportTable) (e : Export) : Address := table.entries.getD e.slot 0

/-- The table with another address for a function. -/
def store (table : ExportTable) (e : Export) (address : Address) : ExportTable :=
  ⟨table.entries.set e.slot address⟩

end ExportTable

end ScriptBridge
