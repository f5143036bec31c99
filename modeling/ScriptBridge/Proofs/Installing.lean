import ScriptBridge.Plugin.Loading
import ScriptBridge.Proofs.Patches
import ScriptBridge.Simulation.Plugin

/-!
# All or nothing

Loading changes two functions of the server and can fail before, between and after. The two modes
take a change back in different ways, and one of them leaves the change behind if nobody does.

**Patches.** `HookSpace.patched` and `HookSpace.restored` say what it takes to redirect a function
and to put back what was found, in either mode. A hook that is installed is `installedHook`, and all
that a load does to the export table and to the code is said in terms of these.

**Sequences.** `Reached` are the states that a plugin can get into by loads and unloads. The
invariant says what a plugin would leave behind if it were unloaded: the space as it was in the
beginning. One that is not loaded has left it behind already.
-/

namespace ScriptBridge

namespace HookSpace

/-- **The two functions do not overlap**: a jump over one of them leaves the other alone. -/
def FunctionsApart (space : HookSpace) : Prop :=
  space.table.address .exec ≠ 0 → space.table.address .register ≠ 0 →
    CodeMemory.Apart (space.table.address .exec) (space.table.address .register) Jump.length

/-- The space with a function redirected. -/
def patched (space : HookSpace) (e : Export) (replacement : Address) : HookMode → HookSpace
  | .exportTable => { space with table := space.table.store e replacement }
  | .inline =>
    { space with code := space.code.write (space.table.address e) (Jump.absolute replacement) }

/-- The space with a function put back as it was in the beginning. -/
def restored (p : HookSpace) (space : HookSpace) (e : Export) : HookMode → HookSpace
  | .exportTable => { p with table := p.table.store e (space.table.address e) }
  | .inline =>
    let start := space.table.address e
    { p with code := p.code.write start (space.code.read start Jump.length) }

/-- **What the redirection of both functions leaves.** In the export table their two entries lead to
the replacements and all others are as they were; in the code the two functions start with jumps to
the replacements, and every other byte is as it was. -/
def Redirected (layout : CodeLayout) (space after : HookSpace) : HookMode → Prop
  | .exportTable =>
    after.code = space.code
      ∧ ∀ slot, after.table.entries[slot]? =
        if slot = Export.exec.slot then some layout.hookedExec
        else if slot = Export.register.slot then some layout.hookedRegister
        else space.table.entries[slot]?
  | .inline =>
    after.table = space.table
      ∧ after.code.mapped = space.code.mapped
      ∧ after.code.read (space.table.address .exec) Jump.length = Jump.absolute layout.hookedExec
      ∧ after.code.read (space.table.address .register) Jump.length =
        Jump.absolute layout.hookedRegister
      ∧ ∀ address : Address, ¬ (address - space.table.address .exec).toNat < Jump.length →
        ¬ (address - space.table.address .register).toNat < Jump.length →
          after.code.byteAt address = space.code.byteAt address

variable {space p : HookSpace} {e other : Export} {replacement : Address} {mode : HookMode}

theorem address_patched_ne (h : e ≠ other) :
    (space.patched e replacement mode).table.address other = space.table.address other := by
  cases mode with
  | exportTable => exact ExportTable.address_store_ne h
  | inline => rfl

/-- **A function that was redirected is put back.** -/
theorem restored_patched : (space.patched e replacement mode).restored space e mode = space := by
  cases mode with
  | exportTable =>
      show HookSpace.mk _ _ = _
      rw [patched, ExportTable.store_store, ExportTable.store_address]
  | inline =>
      show HookSpace.mk _ _ = _
      rw [patched, CodeMemory.write_write (by rw [CodeMemory.length_read]; rfl),
        CodeMemory.write_read]

/-- **Two functions are redirected in different places.** -/
structure Separate (space : HookSpace) (e other : Export) (mode : HookMode) : Prop where
  ne : e ≠ other
  apart : mode = .inline →
    CodeMemory.Apart (space.table.address e) (space.table.address other) Jump.length

theorem Separate.symm (h : space.Separate e other mode) : space.Separate other e mode :=
  ⟨Ne.symm h.ne, fun hmode => (h.apart hmode).symm⟩

/-- One function can be put back while another one is redirected. -/
theorem restored_patched_comm (h : space.Separate e other mode)
    (hsame : p.table.address other = space.table.address other) :
    (p.patched other replacement mode).restored space e mode =
      (p.restored space e mode).patched other replacement mode := by
  cases mode with
  | exportTable =>
      show HookSpace.mk _ _ = HookSpace.mk _ _
      rw [patched, restored, ExportTable.store_comm (Ne.symm h.ne)]
  | inline =>
      show HookSpace.mk _ _ = HookSpace.mk _ _
      have hjump : (Jump.absolute replacement).length ≤ Jump.length := Nat.le_refl _
      have hfound : (space.code.read (space.table.address e) Jump.length).length ≤ Jump.length :=
        Nat.le_of_eq CodeMemory.length_read
      rw [patched, restored, hsame, CodeMemory.write_comm (h.apart rfl).symm hjump hfound]

end HookSpace

namespace Redirection

/-- A hook that is installed. -/
def installed (space : HookSpace) (e : Export) (replacement : Address) : HookMode → Redirection
  | .exportTable => .slot { target := e, replacement, original := some (space.table.address e) }
  | .inline =>
    let start := space.table.address e
    .inline
      { target := start, replacement
        patch := some ⟨space.code.read start Jump.length, Jump.absolute replacement⟩ }

variable {space : HookSpace} {e other : Export} {replacement : Address} {mode : HookMode}
  {result : Redirection × HookSpace}

/-- **A function is redirected**, if it is there. -/
theorem hook_eq_ok (h : hook space e replacement mode = .ok result) :
    space.table.address e ≠ 0
      ∧ result = (installed space e replacement mode, space.patched e replacement mode) := by
  unfold hook prepare at h
  cases mode with
  | exportTable =>
      dsimp only [install, SlotHook.install] at h
      rw [if_neg (by simp [SlotHook.isInstalled])] at h
      by_cases hnull : space.table.address e = 0
      · rw [if_pos hnull] at h
        exact absurd h (by simp [Except.map])
      · rw [if_neg hnull] at h
        exact ⟨hnull, (Except.ok.inj h).symm⟩
  | inline =>
      dsimp only at h
      by_cases hnull : space.table.address e = 0
      · rw [if_pos hnull] at h
        exact absurd h (by simp)
      rw [if_neg hnull] at h
      dsimp only [install, InlineHook.install] at h
      rw [if_neg (by simp [InlineHook.isInstalled])] at h
      split at h
      · exact absurd h (by simp [Except.map])
      · exact ⟨hnull, (Except.ok.inj h).symm⟩

/-- What a hook found in place of a function is what it finds with another one redirected. -/
theorem installed_patched (h : space.Separate other e mode) {replacement' : Address} :
    installed (space.patched other replacement' mode) e replacement mode =
      installed space e replacement mode := by
  cases mode with
  | exportTable =>
      unfold installed
      rw [HookSpace.address_patched_ne h.ne]
  | inline =>
      have hjump : (Jump.absolute replacement').length ≤ Jump.length := Nat.le_refl _
      unfold installed
      rw [HookSpace.address_patched_ne h.ne]
      dsimp only [HookSpace.patched]
      rw [CodeMemory.read_write_apart (h.apart rfl) hjump (by decide)]

end Redirection

namespace Plugin

open Redirection HookSpace

variable {space p : HookSpace} {layout : CodeLayout} {mode : HookMode}

theorem withdraw_installed {e : Export} {replacement : Address} :
    withdraw (installed space e replacement mode) p = p.restored space e mode := by
  cases mode <;> rfl

/-- Both functions in their order. -/
def patchedBoth (layout : CodeLayout) (space : HookSpace) (mode : HookMode) : HookSpace :=
  (space.patched .exec layout.hookedExec mode).patched .register layout.hookedRegister mode

/-- **Both functions are redirected, or nothing is changed.** -/
theorem redirect_cases (layout : CodeLayout) (mode : HookMode) (space : HookSpace)
    (hapart : mode = .inline → space.FunctionsApart) :
    (∃ error, redirect layout mode space = (.error error, space))
      ∨ space.Separate .exec .register mode
        ∧ space.table.address .exec ≠ 0 ∧ space.table.address .register ≠ 0
        ∧ redirect layout mode space =
          (.ok (installed space .exec layout.hookedExec mode,
            installed space .register layout.hookedRegister mode), patchedBoth layout space mode) := by
  unfold redirect
  cases hexec : hook space .exec layout.hookedExec mode with
  | error e => exact .inl ⟨_, rfl⟩
  | ok first =>
      obtain ⟨hthere, rfl⟩ := hook_eq_ok hexec
      dsimp only
      cases hregister : hook (space.patched .exec layout.hookedExec mode) .register
          layout.hookedRegister mode with
      | error e =>
          refine .inl ⟨.hook .register e, ?_⟩
          dsimp only
          rw [withdraw_installed, restored_patched]
      | ok second =>
          obtain ⟨hthere', rfl⟩ := hook_eq_ok hregister
          rw [address_patched_ne (by decide)] at hthere'
          have hseparate : space.Separate .exec .register mode :=
            ⟨by decide, fun hmode => hapart hmode hthere hthere'⟩
          refine .inr ⟨hseparate, hthere, hthere', ?_⟩
          dsimp only
          rw [installed_patched hseparate]
          rfl

/-- **What was redirected is taken back.** -/
theorem takenBack_patchedBoth (h : space.Separate .exec .register mode) {natives : NativeTable} :
    takenBack
      (some ⟨installed space .exec layout.hookedExec mode,
        installed space .register layout.hookedRegister mode, natives⟩)
      (patchedBoth layout space mode) = space := by
  unfold takenBack patchedBoth
  dsimp only
  rw [withdraw_installed, withdraw_installed,
    restored_patched_comm h (address_patched_ne (by decide)), restored_patched, restored_patched]

/-- What both redirections leave, entry by entry and byte by byte. -/
theorem redirected_patchedBoth (h : space.Separate .exec .register mode)
    (hexec : space.table.address .exec ≠ 0) (hregister : space.table.address .register ≠ 0) :
    space.Redirected layout (patchedBoth layout space mode) mode := by
  cases mode with
  | exportTable =>
      refine ⟨rfl, fun slot => ?_⟩
      have hthere : (space.table.store .exec layout.hookedExec).address .register ≠ 0 := by
        rwa [ExportTable.address_store_ne (by decide)]
      show ((space.table.store .exec _).store .register _).entries[slot]? = _
      rw [ExportTable.getElem?_store hthere, ExportTable.getElem?_store hexec]
      by_cases hslot : slot = Export.exec.slot
      · rw [if_pos hslot, if_pos hslot, if_neg (by rw [hslot]; decide)]
      · rw [if_neg hslot, if_neg hslot]
  | inline =>
      have hapart := h.apart rfl
      have hlength : ∀ target, (Jump.absolute target).length = Jump.length :=
        fun _ => Jump.length_absolute
      -- the second jump leaves the first one alone, so each is read where it was written
      have hcode : (patchedBoth layout space .inline).code =
          (space.code.write (space.table.address .exec) (Jump.absolute layout.hookedExec)).write
            (space.table.address .register) (Jump.absolute layout.hookedRegister) := rfl
      refine ⟨rfl, rfl, ?_, ?_, fun address hexec hregister => ?_⟩
      · rw [hcode, CodeMemory.read_write_apart hapart.symm (Nat.le_of_eq (hlength _)) (by decide)]
        exact CodeMemory.read_write (hlength _) (by decide)
      · rw [hcode]
        exact CodeMemory.read_write (hlength _) (by decide)
      · rw [hcode, CodeMemory.byteAt_write_outside hregister, CodeMemory.byteAt_write_outside hexec]

/-! ## Sequences -/

variable {F W : Type} {env : PluginEnvironment F W} {loaded : Bool} {plugin : Plugin F}

/-- A directory whose settings ask for jumps only if the functions have room for them. -/
def HasRoom (space : HookSpace) (directory : Directory) : Prop :=
  ∀ settings, directory.settings = .ok settings → settings.hookMode = .inline →
    space.FunctionsApart

/-- **What loads and unloads lead to**, from a server with a given export table and code. `loaded`
says whether the plugin is loaded, and it is not loaded once more then. -/
inductive Reached (env : PluginEnvironment F W) (space : HookSpace) : Bool → Plugin F → Prop where
  | fresh : Reached env space false { space }
  | refused {plugin : Plugin F} (data : PluginData) (directory : Directory) (w : W) {e : LoadError} :
      Reached env space false plugin → HasRoom space directory →
      (plugin.load env data directory w).1 = .error e →
      Reached env space false (plugin.load env data directory w).2.1
  | loaded {plugin : Plugin F} (data : PluginData) (directory : Directory) (w : W) :
      Reached env space false plugin → HasRoom space directory →
      (plugin.load env data directory w).1 = .ok () →
      Reached env space true (plugin.load env data directory w).2.1
  | unloaded {plugin : Plugin F} {loaded : Bool} (w : W) :
      Reached env space loaded plugin → Reached env space false (plugin.unload env w).1

/-- **A plugin that leaves no trace**: the space is as it was in the beginning, nothing is installed,
and no table is bound. -/
structure Absent (space : HookSpace) (plugin : Plugin F) : Prop where
  space_eq : plugin.space = space
  installation_eq : plugin.installation = none
  bound_eq : plugin.bound = none

/-- Without a table a native answers zero. -/
theorem Absent.callNative (h : Absent space plugin) (env : PluginEnvironment F W) (slot : Nat)
    (parameters : Parameters) (m : Machine) (w : W) :
    (plugin.callNative env slot parameters m w).1 = 0 := by
  unfold Plugin.callNative
  rw [h.bound_eq]
  rfl

/-- What is read comes with the settings of the directory. -/
theorem readDefinitions_settings {data : PluginData} {directory : Directory} {d : Definitions}
    (h : readDefinitions data directory = .ok d) : directory.settings = .ok d.settings := by
  unfold readDefinitions at h
  split at h
  · exact absurd h (by simp)
  split at h
  · exact absurd h (by simp)
  rename_i settings hsettings
  split at h
  · exact absurd h (by simp)
  split at h
  · exact absurd h (by simp)
  · rw [hsettings, ← Except.ok.inj h]

/-- The plugin with both functions redirected. -/
def hooked (layout : CodeLayout) (space : HookSpace) (d : Definitions) : Plugin F where
  space := patchedBoth layout space d.settings.hookMode
  bridge := some (loadedBridge d)
  installation := some
    ⟨installed space .exec layout.hookedExec d.settings.hookMode,
      installed space .register layout.hookedRegister d.settings.hookMode,
      NativeTable.ofNames d.natives⟩
  bound := some (NativeTable.ofNames d.natives)

/-- **A load leaves no trace, or redirects both functions.** -/
theorem Absent.load (h : Absent space plugin) (env : PluginEnvironment F W) (data : PluginData)
    {directory : Directory} (hroom : HasRoom space directory) (w : W) :
    (∃ e, (plugin.load env data directory w).1 = .error e
        ∧ Absent space (plugin.load env data directory w).2.1)
      ∨ ∃ d : Definitions, directory.settings = .ok d.settings
        ∧ space.Separate .exec .register d.settings.hookMode
        ∧ space.table.address .exec ≠ 0 ∧ space.table.address .register ≠ 0
        ∧ (plugin.load env data directory w).1 = .ok ()
        ∧ (plugin.load env data directory w).2.1 = hooked env.layout space d := by
  unfold Plugin.load
  cases hread : readDefinitions data directory with
  | error e => exact .inl ⟨e, rfl, h⟩
  | ok d =>
      have hsettings := readDefinitions_settings hread
      dsimp only
      rw [h.space_eq, h.installation_eq]
      rcases redirect_cases env.layout d.settings.hookMode space (hroom _ hsettings) with
        ⟨e, hrefused⟩ | ⟨hseparate, hexec, hregister, hboth⟩
      · rw [hrefused]
        exact .inl ⟨e, rfl, rfl, rfl, h.bound_eq⟩
      · rw [hboth]
        exact .inr ⟨d, hsettings, hseparate, hexec, hregister, rfl, rfl⟩

/-- **What an unload would leave is what was there in the beginning**, and a plugin that is not
loaded has left it already. -/
theorem Reached.leaves (h : Reached env space loaded plugin) :
    takenBack plugin.installation plugin.space = space
      ∧ (loaded = false → Absent space plugin) := by
  induction h with
  | fresh => exact ⟨rfl, fun _ => ⟨rfl, rfl, rfl⟩⟩
  | refused data directory w _ hroom hrefused ih =>
      rcases (ih.2 rfl).load env data hroom w with ⟨_, _, habsent⟩ | ⟨_, _, _, _, _, hok, _⟩
      · refine ⟨?_, fun _ => habsent⟩
        rw [habsent.installation_eq]
        exact habsent.space_eq
      · exact absurd (hrefused.symm.trans hok) (by simp)
  | loaded data directory w _ hroom hok ih =>
      rcases (ih.2 rfl).load env data hroom w with ⟨_, hrefused, _⟩ |
        ⟨d, _, hseparate, _, _, _, hhooked⟩
      · exact absurd (hok.symm.trans hrefused) (by simp)
      · rw [hhooked]
        exact ⟨takenBack_patchedBoth hseparate, fun hfalse => absurd hfalse (by simp)⟩
  | unloaded w _ ih => exact ⟨ih.1, fun _ => ⟨ih.1, rfl, rfl⟩⟩

/--
**Loading is all or nothing, and unloading undoes it.** A plugin is loaded and unloaded any number
of times, with whatever the server hands over and whatever is in the directory, and never loaded
while it is loaded. Jumps are asked for only where one function leaves room for the other.

Where a load is refused, and where the plugin is unloaded, every entry of the export table and every
byte of the code is as it was in the beginning, and provided natives answer zero. Where a load
succeeds, the two functions are redirected in the mode that the settings ask for, and nothing else
is changed.
-/
theorem loading_is_all_or_nothing (env : PluginEnvironment F W) (space : HookSpace) (loaded : Bool)
    (plugin : Plugin F) (h : Reached env space loaded plugin) :
    (loaded = false → ∀ (data : PluginData) (directory : Directory) (w : W),
        HasRoom space directory →
        let answer := (plugin.load env data directory w).1
        let after := (plugin.load env data directory w).2.1
        (∀ e, answer = .error e → after.space = space
            ∧ ∀ slot parameters m w, (after.callNative env slot parameters m w).1 = 0)
          ∧ (answer = .ok () → ∃ settings, directory.settings = .ok settings
            ∧ space.Redirected env.layout after.space settings.hookMode))
      ∧ ∀ w : W,
        let after := (plugin.unload env w).1
        after.space = space ∧ ∀ slot parameters m w, (after.callNative env slot parameters m w).1 = 0 := by
  obtain ⟨hback, habsent⟩ := h.leaves
  constructor
  · intro hloaded data directory w hroom answer after
    rcases (habsent hloaded).load env data hroom w with ⟨e, hrefused, hafter⟩ |
      ⟨d, hsettings, hseparate, hexec, hregister, hok, hhooked⟩
    · refine ⟨fun _ _ => ⟨hafter.space_eq, hafter.callNative env⟩, fun hok => ?_⟩
      exact absurd (hrefused.symm.trans hok) (by simp)
    · refine ⟨fun e herror => absurd (hok.symm.trans herror) (by simp), fun _ => ?_⟩
      refine ⟨d.settings, hsettings, ?_⟩
      rw [show after = _ from hhooked]
      exact redirected_patchedBoth hseparate hexec hregister
  · intro w after
    have hafter : Absent space after := ⟨hback, rfl, rfl⟩
    exact ⟨hafter.space_eq, hafter.callNative env⟩

section

open Simulation

/-- A directory with definitions that ask for nothing, and no configuration. -/
def plainDirectory : Directory where
  files := [("data/server/callbacks.txt", []), ("data/server/natives.txt", [])]

/-- The functions of the simulation lie far from each other. -/
theorem hasRoom_serverSpace (directory : Directory) : HasRoom (serverSpace []) directory :=
  fun _ _ _ _ _ => CodeMemory.apart_of_distance (by decide) (by decide)

/-- A load went well if it is known to. -/
theorem eq_ok_of_isOk {answer : Except LoadError Unit} (h : answer.isOk = true) :
    answer = .ok () := by
  cases answer with
  | error e => exact absurd h (by simp [Except.isOk, Except.toBool])
  | ok _ => rfl

/-- Both functions are redirected by jumps and put back. -/
theorem loading_is_all_or_nothing_jumps :
    let plugin : Plugin Unit := { space := serverSpace [] }
    let answer := (plugin.load pluginEnvironment .complete plainDirectory {}).1
    let after := (plugin.load pluginEnvironment .complete plainDirectory {}).2.1
    (Reached pluginEnvironment (serverSpace []) false plugin
        ∧ HasRoom (serverSpace []) plainDirectory ∧ answer = .ok ())
      ∧ (serverSpace []).Redirected pluginEnvironment.layout after.space .inline
      ∧ (after.unload pluginEnvironment {}).1.space = serverSpace [] := by
  have hroom := hasRoom_serverSpace plainDirectory
  let plugin : Plugin Unit := { space := serverSpace [] }
  have hok : (plugin.load pluginEnvironment .complete plainDirectory {}).1 = .ok () :=
    eq_ok_of_isOk (by decide +kernel)
  have hfresh : Reached pluginEnvironment (serverSpace []) false plugin := .fresh
  obtain ⟨hload, _⟩ := loading_is_all_or_nothing _ _ _ _ hfresh
  obtain ⟨settings, hsettings, hredirected⟩ := (hload rfl .complete plainDirectory {} hroom).2 hok
  have hmode : settings.hookMode = .inline := by
    have hplain : plainDirectory.settings = .ok {} := by rfl
    rw [← Except.ok.inj (hplain.symm.trans hsettings)]
  obtain ⟨_, hunload⟩ := loading_is_all_or_nothing _ _ _ _
    (Reached.loaded .complete plainDirectory {} hfresh hroom hok)
  exact ⟨⟨hfresh, hroom, hok⟩, hmode ▸ hredirected, (hunload {}).1⟩

end

end Plugin

end ScriptBridge
