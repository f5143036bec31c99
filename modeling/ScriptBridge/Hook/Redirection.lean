import ScriptBridge.Hook.Inline
import ScriptBridge.Hook.Slot

/-!
# Redirected functions

A function of the export table can be redirected in either of two modes. `Redirection` is
a hook of one mode or the other, and `HookSpace` is what both of them change: the table
and the code behind it.
-/

namespace ScriptBridge

/-- **How functions of the server are redirected.** -/
inductive HookMode where
  | inline
  | exportTable
  deriving DecidableEq, Inhabited

/-- The name of a mode, as the log writes it. -/
def HookMode.name : HookMode → String
  | .inline => "Inline"
  | .exportTable => "ExportTable"

/-- **What hooks change**: the export table and the code of the server. -/
structure HookSpace where
  table : ExportTable
  code : CodeMemory

/-- **A hook of an exported function.** -/
inductive Redirection where
  | slot (hook : SlotHook)
  | inline (hook : InlineHook)

namespace Redirection

/-- Whether the redirection is in place. -/
def isInstalled : Redirection → Bool
  | .slot hook => hook.isInstalled
  | .inline hook => hook.isInstalled

/-- Redirect the function. -/
def install (redirection : Redirection) (p : HookSpace) : Except HookError (Redirection × HookSpace) :=
  match redirection with
  | .slot hook => (hook.install p.table).map fun r => (.slot r.1, { p with table := r.2 })
  | .inline hook => (hook.install p.code).map fun r => (.inline r.1, { p with code := r.2 })

/-- Undo the redirection. -/
def uninstall (redirection : Redirection) (p : HookSpace) : Except HookError (Redirection × HookSpace) :=
  match redirection with
  | .slot hook => (hook.uninstall p.table).map fun r => (.slot r.1, { p with table := r.2 })
  | .inline hook => (hook.uninstall p.code).map fun r => (.inline r.1, { p with code := r.2 })

/-- **Lend the original function** for a call; the answer is its address. -/
def lend (redirection : Redirection) (p : HookSpace) : Except HookError (Address × HookSpace) :=
  match redirection with
  | .slot hook => hook.originalAddress.map fun address => (address, p)
  | .inline hook => (hook.lend p.code).map fun code => (hook.target, { p with code := code })

/-- Reclaim the function when a call is over. -/
def reclaim (redirection : Redirection) (p : HookSpace) : HookSpace :=
  match redirection with
  | .slot _ => p
  | .inline hook => { p with code := hook.reclaim p.code }

/-- What the hook leaves behind when it is gone. -/
def dropped (redirection : Redirection) (p : HookSpace) : HookSpace :=
  match redirection with
  | .slot _ => p
  | .inline hook => { p with code := hook.dropped p.code }

/-- A hook of an exported function that is not installed yet, unless the function is missing. -/
def prepare (p : HookSpace) (e : Export) (replacement : Address) (mode : HookMode) :
    Except HookError Redirection :=
  match mode with
  | .exportTable => .ok (.slot { target := e, replacement })
  | .inline =>
    let target := p.table.address e
    if target = 0 then .error .nullTarget else .ok (.inline { target, replacement })

/-- **Hook an exported function** in the given mode. -/
def hook (p : HookSpace) (e : Export) (replacement : Address) (mode : HookMode) :
    Except HookError (Redirection × HookSpace) :=
  match prepare p e replacement mode with
  | .error e => .error e
  | .ok redirection => redirection.install p

end Redirection

end ScriptBridge
