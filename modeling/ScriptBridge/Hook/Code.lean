import ScriptBridge.Hook.Error
import ScriptBridge.Hook.Exports

/-!
# Code memory

The code of the server is bytes in memory. It can be changed where the page it lies on is
mapped, after the protection of the page has been lifted, and never elsewhere. Memory that
is not mapped refuses that.
-/

namespace ScriptBridge

/-- **Code memory.** `mapped` says of each page, by number, whether there is one. -/
structure CodeMemory where
  byteAt : Address → UInt8
  mapped : Nat → Bool

namespace CodeMemory

/-- Memory that is zero throughout, either all of it mapped or none. -/
def blank (mapped : Bool) : CodeMemory := ⟨fun _ => 0, fun _ => mapped⟩

/-- The number of bytes of a page. -/
def pageSize : Nat := 4096

/-- The code the operating system gives for memory that is not mapped. -/
def notMapped : Nat := 12

/-- The bytes from an address on. -/
def read (code : CodeMemory) (start : Address) (count : Nat) : List UInt8 :=
  (List.range count).map fun i => code.byteAt (start + UInt64.ofNat i)

/-- **Write bytes.** Nothing outside of them changes. -/
def write (code : CodeMemory) (start : Address) (bytes : List UInt8) : CodeMemory :=
  { code with byteAt := fun address => (bytes[(address - start).toNat]?).getD (code.byteAt address) }

/-- **Make bytes writable.** This concerns every page on which one of them lies. -/
def unprotect (code : CodeMemory) (start : Address) (count : Nat) : Except HookError Unit :=
  let first := start.toNat / pageSize
  let last := (start.toNat + count - 1) / pageSize
  if (List.range' first (last + 1 - first)).all code.mapped then .ok ()
  else .error (.protection (first * pageSize) notMapped)

end CodeMemory

end ScriptBridge
