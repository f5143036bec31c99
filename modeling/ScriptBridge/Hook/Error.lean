import ScriptBridge.Diagnostic

/-!
# What can go wrong with a hook

A hook redirects a function of the server. A part of the library that needs a function
redirected asks for it through a `HookPort` and need not know how it is done, nor whether
somebody else has done it already.
-/

namespace ScriptBridge

/-- **Why a hook cannot be installed or used.** -/
inductive HookError where
  | nullTarget
  | protection (address code : Nat)
  | alreadyInstalled
  | notInstalled
  deriving DecidableEq

/-- A number as the diagnostics write an address. -/
def addressText (address : Nat) : String := "0x" ++ String.ofList (Nat.toDigits 16 address)

/-- The name of the cause. -/
def HookError.kind : HookError → String
  | .nullTarget => "NullTarget"
  | .protection _ _ => "Protect"
  | .alreadyInstalled => "AlreadyInstalled"
  | .notInstalled => "NotInstalled"

/-- What is wrong, in words. -/
def HookError.message : HookError → String
  | .nullTarget => "Cannot hook a null address"
  | .protection address code =>
    s!"Failed to change protection of {addressText address}: OS error {code}"
  | .alreadyInstalled => "Hook is already installed"
  | .notInstalled => "Hook is not installed"

instance : Diagnostic HookError := ⟨HookError.kind, HookError.message⟩

/-- **Access to a hook** that is kept elsewhere, in a world of type `W`. -/
structure HookPort (W : Type) where
  isInstalled : W → Bool
  install : W → Except HookError Unit × W

/-- Install a hook unless that has been done. -/
def HookPort.ensure {W : Type} (port : HookPort W) (w : W) : Except HookError Unit × W :=
  if port.isInstalled w then (.ok (), w) else port.install w

end ScriptBridge
