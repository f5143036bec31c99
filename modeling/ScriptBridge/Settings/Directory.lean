import ScriptBridge.Definition.Callbacks
import ScriptBridge.Definition.Natives
import ScriptBridge.Settings.Reading

/-!
# The directory of the server

The configuration and the definition files lie in the directory of the server. Paths are
relative to it and may lead through folders and back. A missing definition file is an error,
which tells where the file should have been; a missing configuration is not.
-/

namespace ScriptBridge

/-- **A directory**: the files in it by their paths, and the path of the directory itself. -/
structure Directory where
  files : List (String × List UInt8)
  location : String := ""
  deriving Inhabited

namespace Directory

/-- The names in a path that say where to go. -/
def names (path : String) : List (List Char) :=
  (Text.splitAll '/' path.toList).filter fun name => !name.isEmpty && name != ['.']

/-- Whether files lie below a place, or the place is the directory itself. -/
def isFolder (directory : Directory) (place : List (List Char)) : Bool :=
  place.isEmpty || directory.files.any fun file =>
    place.isPrefixOf (names file.1) && place != names file.1

/-- The contents of the file at a place. Of several paths to the same place the last counts. -/
def fileAt? (directory : Directory) (place : List (List Char)) : Option (List UInt8) :=
  (directory.files.reverse.find? fun file => names file.1 == place).map (·.2)

/-- **Follow a path**, name by name. Only folders lead on, and nothing lies outside the directory. -/
def follow (directory : Directory) :
    List (List Char) → List (List Char) → Except FileProblem (List (List Char))
  | place, [] => .ok place
  | place, name :: rest =>
    if !directory.isFolder place then
      .error (if (directory.fileAt? place).isSome then .notFolder else .missing)
    else if name.isEmpty ∨ name = ['.'] then follow directory place rest
    else if name = ['.', '.'] then
      if place.isEmpty then .error .missing else follow directory place.dropLast rest
    else follow directory (place ++ [name]) rest

/-- **The contents of a file**, or why it cannot be read. -/
def read (directory : Directory) (path : String) : Except FileProblem (List UInt8) :=
  if path.toList.head? = some '/' then .error .missing
  else
    match directory.follow [] (Text.splitAll '/' path.toList) with
    | .error problem => .error problem
    | .ok place =>
      match directory.fileAt? place with
      | some bytes => .ok bytes
      | none => .error (if directory.isFolder place then .folder else .missing)

/-- A path as it is shown, from where the directory lies. -/
def locate (directory : Directory) (path : String) : String :=
  if directory.location.isEmpty ∨ path.toList.head? = some '/' then path
  else if directory.location.toList.getLast? = some '/' then directory.location ++ path
  else directory.location ++ "/" ++ path

/-- The settings of a directory. A folder in place of the configuration cannot be read. -/
def settings (directory : Directory) : Except SettingsError Settings :=
  if directory.isFolder (names Settings.fileName) then .error (.unreadable .folder)
  else Settings.ofFile (directory.read Settings.fileName).toOption

/-- The declared callbacks. -/
def callbacks (directory : Directory) (settings : Settings) : Except DefinitionError CallbackTable :=
  CallbackTable.ofFile (directory.locate settings.callbackFile) (directory.read settings.callbackFile)

/-- The names of the natives that may be provided. -/
def natives (directory : Directory) (settings : Settings) : Except DefinitionError (List String) :=
  NativeNames.ofFile (directory.locate settings.nativeFile) (directory.read settings.nativeFile)

/-- **All definitions**; the callbacks are read first. -/
def definitions (directory : Directory) (settings : Settings) :
    Except DefinitionError (CallbackTable × List String) :=
  match directory.callbacks settings with
  | .error e => .error e
  | .ok callbacks => (directory.natives settings).map fun natives => (callbacks, natives)

end Directory

end ScriptBridge
