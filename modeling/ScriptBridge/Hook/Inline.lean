import ScriptBridge.Hook.Code
import ScriptBridge.Hook.Jump

/-!
# Hooks in the code

The first bytes of a function are replaced by a jump, so that every caller is redirected.
The original function has no code of its own then. To call it, its code is lent: the
first bytes are put back, and when the call is over the hook reclaims them and the jump
is written again. Several calls may be under way at the same time, each with a loan of its own.

A hook that is dropped puts the code back.
-/

namespace ScriptBridge

/-- The bytes that a hook found and the jump that it wrote over them. -/
structure CodePatch where
  original : List UInt8
  jump : List UInt8
  deriving DecidableEq

/-- **A hook of the code of a function.** -/
structure InlineHook where
  target : Address
  replacement : Address
  patch : Option CodePatch := none
  deriving DecidableEq

namespace InlineHook

/-- Whether the redirection is in place. -/
def isInstalled (hook : InlineHook) : Bool := hook.patch.isSome

/-- **Redirect the function.** -/
def install (hook : InlineHook) (code : CodeMemory) : Except HookError (InlineHook × CodeMemory) :=
  if hook.isInstalled then .error .alreadyInstalled
  else
    let jump := Jump.absolute hook.replacement
    match code.unprotect hook.target jump.length with
    | .error e => .error e
    | .ok () =>
      let patch := ⟨code.read hook.target jump.length, jump⟩
      .ok ({ hook with patch := some patch }, code.write hook.target jump)

/-- **Undo the redirection.** -/
def uninstall (hook : InlineHook) (code : CodeMemory) : Except HookError (InlineHook × CodeMemory) :=
  match hook.patch with
  | none => .error .notInstalled
  | some patch => .ok ({ hook with patch := none }, code.write hook.target patch.original)

/-- **Lend the original function** for a call. -/
def lend (hook : InlineHook) (code : CodeMemory) : Except HookError CodeMemory :=
  match hook.patch with
  | none => .error .notInstalled
  | some patch => .ok (code.write hook.target patch.original)

/-- **Reclaim the function** when a call is over. -/
def reclaim (hook : InlineHook) (code : CodeMemory) : CodeMemory :=
  match hook.patch with
  | none => code
  | some patch => code.write hook.target patch.jump

/-- The code after the hook is gone. -/
def dropped (hook : InlineHook) (code : CodeMemory) : CodeMemory :=
  match hook.patch with
  | none => code
  | some patch => code.write hook.target patch.original

end InlineHook

end ScriptBridge
