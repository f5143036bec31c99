import ScriptBridge.Database.Worker
import ScriptBridge.Hook.Redirection
import ScriptBridge.Native.ArrayLengths

/-!
# Settings

Every setting has a default, so that the bridge works without any configuration.
-/

namespace ScriptBridge

/-- **The client that new connections use.** -/
inductive DatabaseKind where
  | mysql
  | sqlite
  deriving DecidableEq, Inhabited

/-- The name of a client in a configuration. -/
def DatabaseKind.name : DatabaseKind → String
  | .mysql => "mysql"
  | .sqlite => "sqlite"

/-- The name of a hook mode in a configuration. -/
def HookMode.configName : HookMode → String
  | .inline => "inline"
  | .exportTable => "export-table"

/-- **The settings of a bridge.** Paths are relative to the directory of the configuration. -/
structure Settings where
  callbackFile : String := "data/server/callbacks.txt"
  nativeFile : String := "data/server/natives.txt"
  hookMode : HookMode := .inline
  logFilter : String := "info"
  arrayLengths : ArrayLengths := {}
  database : DatabaseKind := .mysql
  timing : Timing := {}
  deriving DecidableEq, Inhabited

end ScriptBridge
