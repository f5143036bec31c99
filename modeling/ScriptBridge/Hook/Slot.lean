import ScriptBridge.Hook.Error
import ScriptBridge.Hook.Exports

/-!
# Hooks in the export table

The entry of a function in the export table is replaced. Calls through the table are
redirected, and calls that do not look there are not. The original address is kept in the
hook, so the original function can be called while the hook is installed.

A hook that is forgotten leaves its replacement in the table.
-/

namespace ScriptBridge

/-- **A hook of a table entry.** `original` is the address found there when it was installed. -/
structure SlotHook where
  target : Export
  replacement : Address
  original : Option Address := none
  deriving DecidableEq

namespace SlotHook

/-- Whether the redirection is in place. -/
def isInstalled (hook : SlotHook) : Bool := hook.original.isSome

/-- **Redirect the function.** -/
def install (hook : SlotHook) (table : ExportTable) : Except HookError (SlotHook × ExportTable) :=
  if hook.isInstalled then .error .alreadyInstalled
  else
    let current := table.address hook.target
    if current = 0 then .error .nullTarget
    else
      .ok ({ hook with original := some current }, table.store hook.target hook.replacement)

/-- **Undo the redirection.** -/
def uninstall (hook : SlotHook) (table : ExportTable) : Except HookError (SlotHook × ExportTable) :=
  match hook.original with
  | none => .error .notInstalled
  | some address => .ok ({ hook with original := none }, table.store hook.target address)

/-- The address of the original function. -/
def originalAddress (hook : SlotHook) : Except HookError Address :=
  match hook.original with
  | none => .error .notInstalled
  | some address => .ok address

end SlotHook

end ScriptBridge
