import ScriptBridge.Settings.Settings
import ScriptBridge.Text.File
import ScriptBridge.Toml.Document

/-!
# Reading settings

A configuration groups the settings in tables. Names that mean nothing are passed over, and
settings that are not there keep their defaults. A setting of the wrong type spoils the
whole configuration.

A group may also be written as an array, with the settings in their order and the missing
ones at the end. A choice may be written as a table with the choice as its only name and
nothing under it. A date in place of a group has no settings in it.
-/

namespace ScriptBridge

/-- **Why there are no settings.** -/
inductive SettingsError where
  | unreadable (problem : FileProblem)
  | malformed
  deriving DecidableEq

/-- The name of the cause. -/
def SettingsError.kind : SettingsError → String
  | .unreadable _ => "IoError"
  | .malformed => "ParseError"

/-- What is wrong, in words. -/
def SettingsError.message : SettingsError → String
  | .unreadable problem => s!"Failed to read configuration file: {problem.message}"
  | .malformed => "Failed to parse configuration"

instance : Diagnostic SettingsError := ⟨SettingsError.kind, SettingsError.message⟩

namespace Settings

open Toml (Value)

/-- The settings of a group, in the order of their names. -/
def group (names : List String) : Value → Option (List (Option Value))
  | .table entries => some (names.map fun name => entries.lookup name)
  | .array entries => some ((List.range names.length).map fun i => entries[i]?)
  | .date => some (names.map fun _ => none)
  | _ => none

/-- A setting that may be missing. -/
def orDefault {α : Type} (read : Value → Option α) (default : α) : Option Value → Option α
  | none => some default
  | some value => read value

/-- A text. -/
def text? : Value → Option String
  | .text text => some text
  | _ => none

/-- A number that is not negative. -/
def size? : Value → Option Nat
  | .integer n => if 0 ≤ n then some n.toNat else none
  | _ => none

/-- Whether a value holds nothing. -/
def isEmpty : Value → Bool
  | .table entries => entries.isEmpty
  | .array entries => entries.isEmpty
  | _ => false

/-- The name of a choice. -/
def choiceName? : Value → Option String
  | .text name => some name
  | .table [(name, value)] => if isEmpty value then some name else none
  | _ => none

/-- One of several choices. -/
def choice? {α : Type} (name : α → String) (choices : List α) (value : Value) : Option α :=
  (choiceName? value).bind fun given => choices.find? fun c => name c == given

/-- The distances of one native. -/
def offsets? : Value → Option (List Nat)
  | .array entries => entries.mapM size?
  | _ => none

/-- The distances of natives. -/
def arrayLengths? : Value → Option ArrayLengths
  | .table entries =>
    entries.foldlM (fun table entry => (offsets? entry.2).map (table.insert entry.1)) {}
  | _ => none

/-- Where the definitions are. -/
def withFiles (s : Settings) (value : Value) : Option Settings :=
  match group ["callbacks", "natives"] value with
  | some [callbacks, natives] =>
    match orDefault text? s.callbackFile callbacks, orDefault text? s.nativeFile natives with
    | some callbackFile, some nativeFile => some { s with callbackFile, nativeFile }
    | _, _ => none
  | _ => none

/-- How functions are redirected. -/
def withHooks (s : Settings) (value : Value) : Option Settings :=
  match group ["mode"] value with
  | some [mode] =>
    (orDefault (choice? HookMode.configName [.inline, .exportTable]) s.hookMode mode).map
      fun hookMode => { s with hookMode }
  | _ => none

/-- What is logged. -/
def withLogging (s : Settings) (value : Value) : Option Settings :=
  match group ["filter"] value with
  | some [filter] => (orDefault text? s.logFilter filter).map fun logFilter => { s with logFilter }
  | _ => none

/-- How natives are called. -/
def withInvoke (s : Settings) (value : Value) : Option Settings :=
  match group ["array_length_offsets"] value with
  | some [offsets] =>
    (orDefault arrayLengths? s.arrayLengths offsets).map fun arrayLengths => { s with arrayLengths }
  | _ => none

/-- How databases are used. -/
def withDatabase (s : Settings) (value : Value) : Option Settings :=
  let names := ["driver", "poll_interval_ms", "retry_interval_ms", "ping_interval_ms", "drain_limit"]
  match group names value with
  | some [driver, poll, retry, ping, drain] =>
    match orDefault (choice? DatabaseKind.name [.mysql, .sqlite]) s.database driver,
      orDefault size? s.timing.pollInterval poll, orDefault size? s.timing.retryInterval retry,
      orDefault size? s.timing.pingInterval ping, orDefault size? s.timing.drainLimit drain with
    | some database, some pollInterval, some retryInterval, some pingInterval, some drainLimit =>
      some { s with database, timing := { pollInterval, retryInterval, pingInterval, drainLimit } }
    | _, _, _, _, _ => none
  | _ => none

/-- Read a group, if it is there. -/
def readGroup (entries : List (String × Value)) (name : String)
    (read : Settings → Value → Option Settings) (s : Settings) : Option Settings :=
  match entries.lookup name with
  | none => some s
  | some value => read s value

/-- The settings that a document gives. -/
def ofDocument (entries : List (String × Value)) : Option Settings :=
  (readGroup entries "files" withFiles {}).bind fun s =>
    (readGroup entries "hooks" withHooks s).bind fun s =>
      (readGroup entries "logging" withLogging s).bind fun s =>
        (readGroup entries "invoke" withInvoke s).bind (readGroup entries "database" withDatabase)

/-- **Read settings.** -/
def parse (text : String) : Except SettingsError Settings :=
  match (Toml.parse? text).bind ofDocument with
  | some settings => .ok settings
  | none => .error .malformed

/-- The name of the file with the configuration. -/
def fileName : String := "pawnbridge.toml"

/-- **Read settings from a file**, if there is one. -/
def ofFile : Option (List UInt8) → Except SettingsError Settings
  | none => .ok {}
  | some bytes =>
    match Text.ofBytes bytes with
    | .ok text => parse text
    | .error problem => .error (.unreadable problem)

end Settings

end ScriptBridge
