import ScriptBridge.Toml.Value

/-!
# Tables under construction

A table comes about in one of three ways: a heading names it, a heading names a table
inside of it, or a name with dots leads through it. What may be added to it later depends
on that. A heading may name a table once, unless names with dots made it. Names with dots
never lead through a table that a heading named, and they end only in tables that such names
made. Tables written as values are complete and take nothing.
-/

namespace ScriptBridge.Toml

/-- **How a table came about**: by its own heading, by that of a table inside, or by names with dots. -/
inductive Origin where
  | heading
  | implied
  | dotted
  deriving DecidableEq, Inhabited

/-- **Something that has a name** in a table under construction. The latest element of an array of
tables comes first. -/
inductive Node where
  | value (value : Value)
  | table (origin : Origin) (entries : List (String × Node))
  | tables (elements : List (List (String × Node)))
  deriving Inhabited

/-- The entries of a table under construction. -/
abbrev Entries := List (String × Node)

namespace Entries

/-- Put a node under a name, in place of the one there or behind the others. -/
def store (name : String) (node : Node) : Entries → Entries
  | [] => [(name, node)]
  | entry :: rest => if entry.1 = name then (name, node) :: rest else entry :: store name node rest

/-- Change what is found under the heading of a table, making tables on the way. An array
of tables stands for its latest element. -/
def underHeading (change : Entries → Option Entries) : List String → Entries → Option Entries
  | [], entries => change entries
  | name :: path, entries =>
    match entries.lookup name with
    | none => (underHeading change path []).map fun inner => entries.store name (.table .implied inner)
    | some (.table origin inner) =>
      (underHeading change path inner).map fun inner => entries.store name (.table origin inner)
    | some (.tables (latest :: earlier)) =>
      (underHeading change path latest).map fun latest =>
        entries.store name (.tables (latest :: earlier))
    | some (.tables []) | some (.value _) => none

/-- **Start a table** of a name. -/
def startTable (name : String) (entries : Entries) : Option Entries :=
  match entries.lookup name with
  | none => some (entries.store name (.table .heading []))
  | some (.table .implied inner) => some (entries.store name (.table .heading inner))
  | some _ => none

/-- **Start the next element** of an array of tables of a name. -/
def startElement (name : String) (entries : Entries) : Option Entries :=
  match entries.lookup name with
  | none => some (entries.store name (.tables [[]]))
  | some (.tables elements) => some (entries.store name (.tables ([] :: elements)))
  | some _ => none

/-- Give a value a name that is not taken. -/
def define (name : String) (value : Value) (entries : Entries) : Option Entries :=
  match entries.lookup name with
  | none => some (entries.store name (.value value))
  | some _ => none

/-- **Give a value a name with dots**, of which `path` holds the parts in front of the last. -/
def defineDotted (name : String) (value : Value) : List String → Entries → Option Entries
  | [], entries => define name value entries
  | part :: path, entries =>
    match entries.lookup part with
    | none =>
      (defineDotted name value path []).map fun inner => entries.store part (.table .dotted inner)
    | some (.table .dotted inner) =>
      (defineDotted name value path inner).map fun inner => entries.store part (.table .dotted inner)
    | some (.table .implied inner) =>
      if path.isEmpty then none
      else
        (defineDotted name value path inner).map fun inner => entries.store part (.table .implied inner)
    | some (.tables (latest :: earlier)) =>
      if path.isEmpty then none
      else
        (defineDotted name value path latest).map fun latest =>
          entries.store part (.tables (latest :: earlier))
    | some _ => none

end Entries

mutual

/-- The value that a node is in the end. -/
def Node.finish : Node → Value
  | .value value => value
  | .table _ entries => .table (finishEntries entries)
  | .tables elements => .array (finishElements elements [])

/-- The entries of a finished table. -/
def finishEntries : List (String × Node) → List (String × Value)
  | [] => []
  | (name, node) :: rest => (name, node.finish) :: finishEntries rest

/-- The elements of a finished array of tables, in front of those that were finished before them. -/
def finishElements : List (List (String × Node)) → List Value → List Value
  | [], finished => finished
  | entries :: rest, finished => finishElements rest (.table (finishEntries entries) :: finished)

end

end ScriptBridge.Toml
