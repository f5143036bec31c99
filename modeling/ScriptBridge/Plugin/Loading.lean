import ScriptBridge.Plugin.Basic
import ScriptBridge.Settings.Directory

/-!
# Loading and unloading

Loading reads the configuration and the definitions and then redirects the two functions
of the server. If the second cannot be redirected, the first is given back, so that a
failure leaves nothing behind. Unloading puts everything back.
-/

namespace ScriptBridge

/-- **What the server hands over**: nothing at all, data without an export table, or all of it. -/
inductive PluginData where
  | missing
  | withoutTable
  | complete
  deriving DecidableEq, Inhabited

/-- **Why the plugin cannot be loaded.** -/
inductive LoadError where
  | noExports
  | settings (error : SettingsError)
  | definitions (error : DefinitionError)
  | hook (target : Export) (error : HookError)
  deriving DecidableEq

/-- The name of the cause, with that of an error inside behind it where there are several. -/
def LoadError.kind : LoadError → String
  | .noExports => "NoExports"
  | .settings _ => "Config"
  | .definitions error => "Definitions." ++ error.kind
  | .hook _ _ => "Hook"

/-- What is wrong, in words. -/
def LoadError.message : LoadError → String
  | .noExports => "The server did not pass an export table"
  | .settings error => s!"Invalid configuration: {error.message}"
  | .definitions error => s!"Invalid definitions: {error.message}"
  | .hook target error => s!"Failed to hook {target.name}: {error.message}"

instance : Diagnostic LoadError := ⟨LoadError.kind, LoadError.message⟩

namespace Plugin

variable {F W : Type}

/-- What was read from the directory. -/
structure Definitions where
  settings : Settings
  callbacks : CallbackTable
  natives : List String

/-- **Read the configuration and the definitions.** A missing export table counts before the
definitions and after the configuration. -/
def readDefinitions (data : PluginData) (directory : Directory) : Except LoadError Definitions :=
  match data with
  | .missing => .error .noExports
  | data =>
    match directory.settings with
    | .error e => .error (.settings e)
    | .ok settings =>
      if data = .withoutTable then .error .noExports
      else
        match directory.definitions settings with
        | .error e => .error (.definitions e)
        | .ok (callbacks, natives) => .ok ⟨settings, callbacks, natives⟩

/-- Undo a redirection, if it is in place. -/
def withdraw (redirection : Redirection) (space : HookSpace) : HookSpace :=
  match redirection.uninstall space with
  | .ok (_, space) => space
  | .error _ => space

/-- **Redirect both functions**, or none. -/
def redirect (layout : CodeLayout) (mode : HookMode) (space : HookSpace) :
    Except LoadError (Redirection × Redirection) × HookSpace :=
  match Redirection.hook space .exec layout.hookedExec mode with
  | .error e => (.error (.hook .exec e), space)
  | .ok (exec, hooked) =>
    match Redirection.hook hooked .register layout.hookedRegister mode with
    | .error e => (.error (.hook .register e), withdraw exec hooked)
    | .ok (register, hooked) => (.ok (exec, register), hooked)

/-- What an installation leaves behind when another one takes its place. -/
def discarded (installation : Option Installation) (space : HookSpace) : HookSpace :=
  match installation with
  | none => space
  | some i => i.register.dropped (i.exec.dropped space)

/-- The line about a successful load. -/
def loadedEvent (d : Definitions) (table : NativeTable) : Log.Event :=
  ⟨.info, "Loaded",
    [("callbacks", .number d.callbacks.size), ("natives", .number table.size),
      ("mode", .plain d.settings.hookMode.name)]⟩

/-- The bridge of a load, which sees both functions. -/
def loadedBridge (d : Definitions) : Bridge (NativeFunction F) Empty :=
  let bridge := (Bridge.new d.settings d.callbacks d.natives).setExports
  { bridge with
    interceptor := { bridge.interceptor with installed := true }
    context :=
      { bridge.context with registry := { bridge.context.registry with installed := true } } }

/-- **Load the plugin.** -/
def load (env : PluginEnvironment F W) (data : PluginData) (directory : Directory) (p : Plugin F)
    (w : W) : Except LoadError Unit × Plugin F × W :=
  match readDefinitions data directory with
  | .error e => (.error e, p, w)
  | .ok d =>
    match redirect env.layout d.settings.hookMode p.space with
    | (.error e, space) => (.error e, { p with space }, w)
    | (.ok (exec, register), space) =>
      let natives := NativeTable.ofNames d.natives
      (.ok (),
        { space := discarded p.installation space
          bridge := some (loadedBridge d)
          installation := some { exec, register, natives }
          bound := some natives },
        env.console.log (loadedEvent d natives) w)

/-- **Load the plugin for the server**; the answer is whether that went well. -/
def start (env : PluginEnvironment F W) (data : PluginData) (directory : Directory) (p : Plugin F)
    (w : W) : Bool × Plugin F × W :=
  match load env data directory p w with
  | (.ok (), p, w) => (true, p, w)
  | (.error e, p, w) =>
    (false, p, env.console.log ⟨.error, "Failed to load", [("error", .plain e.message)]⟩ w)

/-- The space after an installation is taken back. -/
def takenBack (installation : Option Installation) (space : HookSpace) : HookSpace :=
  match installation with
  | none => space
  | some i => withdraw i.register (withdraw i.exec space)

/-- Let go of the bridge. -/
def closeBridge (env : PluginEnvironment F W) (p : Plugin F) (w : W) : W :=
  match p.bridge with
  | some bridge => (bridge.shutdown env.bridge w).2
  | none => w

/-- **Unload the plugin.** -/
def unload (env : PluginEnvironment F W) (p : Plugin F) (w : W) : Plugin F × W :=
  let w := closeBridge env p w
  ({ space := takenBack p.installation p.space }, env.console.log ⟨.info, "Unloaded", []⟩ w)

end Plugin

end ScriptBridge
