import ScriptBridge.Proofs.Consoles
import ScriptBridge.Proofs.Installing

/-!
# Calls that get through

With a console in place of a script the server should not notice the plugin. Every call of one of
the two functions goes through the plugin and on to the function of the server, and calls may come
from anywhere: from the server itself, from inside of its functions to any depth, through the export
table or by an address that was kept.

**Runs.** `ServerRun.Undisturbed` says what a run of the server leads to if every call is answered by
the function that it asks for, which runs once and with the arguments of the call. The only thing in
between is what a console writes.

**Hooks.** In the code a function is lent while it runs, so calls from inside find it in one of two
states: with the jump in place or without. `HookSpace.Ready` allows for both, and for both functions
`Hooks` is kept by everything that happens while the plugin is loaded. Where the jump is in place a
call goes through the plugin, and where it is not the call reaches the function directly.
-/

namespace ScriptBridge

variable {F W : Type}

/-! ## Where calls lead -/

namespace HookSpace

/-- **A function of the server that can be redirected**: its entry leads to it, the replacement is
another function, and its code does not lead there already. -/
structure Holds (space : HookSpace) (e : Export) (server replacement : Address) : Prop where
  found : space.table.address e = server
  real : replacement ≠ 0
  other : replacement ≠ server
  free : Jump.target? (space.code.read server Jump.length) ≠ some replacement

/-- **Both functions are where the layout has them.** -/
structure Fits (space : HookSpace) (layout : CodeLayout) : Prop where
  exec : space.Holds .exec layout.exec layout.hookedExec
  register : space.Holds .register layout.register layout.hookedRegister

/-- **A function that is redirected**, at any time. In the code it may be lent just then. -/
def Ready (q space : HookSpace) (e : Export) (replacement : Address) : HookMode → Prop
  | .exportTable => q.table.address e = replacement ∧ q.code = space.code
  | .inline =>
    let start := space.table.address e
    q.table.address e = start ∧
      (q.code.read start Jump.length = space.code.read start Jump.length ∨
        q.code.read start Jump.length = Jump.absolute replacement)

/-- The space while a function is lent. -/
def lent (q space : HookSpace) (e : Export) : HookMode → HookSpace
  | .exportTable => q
  | .inline => q.restored space e .inline

variable {q space : HookSpace} {e other : Export} {server replacement replacement' : Address}
  {mode : HookMode}

theorem destination?_replacement :
    q.destination? server replacement replacement = some .replacement := by
  unfold destination?
  exact if_pos (.inl rfl)

/-- At the address of a function there is always something. -/
theorem destination?_server : ∃ d, q.destination? server replacement server = some d := by
  unfold destination?
  dsimp only
  split
  · exact ⟨_, rfl⟩
  · exact ⟨_, if_pos (.inl rfl)⟩

/-- **With its own code in place a function is reached.** -/
theorem Holds.destination?_eq (h : space.Holds e server replacement)
    (hcode : q.code.read server Jump.length = space.code.read server Jump.length) :
    q.destination? server replacement server = some .server := by
  unfold destination?
  dsimp only
  rw [hcode, if_neg, if_pos (.inl rfl)]
  rintro (hsame | hreached)
  · exact h.other hsame.symm
  · cases htarget : Jump.target? (space.code.read server Jump.length) with
    | none =>
        rw [htarget] at hreached
        exact h.other hreached.symm
    | some target =>
        rw [htarget] at hreached
        exact h.free (htarget.trans (congrArg some hreached))

/-! ## Lending and reclaiming -/

/-- What is written at the start of a function is what the function starts with. -/
theorem read_written {bytes : List UInt8} {start : Address} (h : bytes.length = Jump.length) :
    (q.code.write start bytes).read start Jump.length = bytes :=
  CodeMemory.read_write h (by decide)

/-- Another function starts as before. -/
theorem Separate.read_written (h : space.Separate e other .inline) {bytes : List UInt8}
    (hlength : bytes.length = Jump.length) :
    (q.code.write (space.table.address e) bytes).read (space.table.address other) Jump.length =
      q.code.read (space.table.address other) Jump.length :=
  CodeMemory.read_write_apart (h.apart rfl) (Nat.le_of_eq hlength) (by decide)

/-- What is written over one function leaves another one as ready as it was. -/
theorem Ready.written_other (hready : q.Ready space other replacement .inline)
    (hseparate : space.Separate e other .inline) {bytes : List UInt8}
    (hlength : bytes.length = Jump.length) :
    { q with code := q.code.write (space.table.address e) bytes }.Ready space other replacement
      .inline := by
  obtain ⟨htable, hcode⟩ := hready
  refine ⟨htable, ?_⟩
  dsimp only
  rw [hseparate.read_written hlength]
  exact hcode

/-- **A function is lent with its own code.** -/
theorem Ready.lend_eq (hready : q.Ready space e replacement mode)
    (hholds : space.Holds e server replacement) :
    (Redirection.installed space e replacement mode).lend q = .ok (server, q.lent space e mode)
      ∧ (q.lent space e mode).destination? server replacement server = some .server := by
  obtain rfl := hholds.found
  cases mode with
  | exportTable =>
      refine ⟨rfl, hholds.destination?_eq ?_⟩
      exact congrArg (CodeMemory.read · (space.table.address e) Jump.length) hready.2
  | inline => exact ⟨rfl, hholds.destination?_eq (read_written CodeMemory.length_read)⟩

theorem Ready.lent_self (hready : q.Ready space e replacement mode) :
    (q.lent space e mode).Ready space e replacement mode := by
  cases mode with
  | exportTable => exact hready
  | inline => exact ⟨hready.1, .inl (read_written CodeMemory.length_read)⟩

theorem Ready.lent_other (hready : q.Ready space other replacement mode)
    (hseparate : space.Separate e other mode) :
    (q.lent space e mode).Ready space other replacement mode := by
  cases mode with
  | exportTable => exact hready
  | inline => exact hready.written_other hseparate CodeMemory.length_read

theorem Ready.reclaim_self (hready : q.Ready space e replacement mode) :
    ((Redirection.installed space e replacement mode).reclaim q).Ready space e replacement
      mode := by
  cases mode with
  | exportTable => exact hready
  | inline => exact ⟨hready.1, .inr (read_written Jump.length_absolute)⟩

theorem Ready.reclaim_other (hready : q.Ready space other replacement mode)
    (hseparate : space.Separate e other mode) :
    ((Redirection.installed space e replacement' mode).reclaim q).Ready space other replacement
      mode := by
  cases mode with
  | exportTable => exact hready
  | inline => exact hready.written_other hseparate Jump.length_absolute

end HookSpace

/-- **A call that looks for its function elsewhere**: at no address, or at one where neither the
function nor its replacement lies. -/
def Route.Astray (route : Route) (server replacement : Address) : Prop :=
  ∃ address, route = .kept address ∧ (address = 0 ∨ address ≠ server ∧ address ≠ replacement)

/-- The export table leads nowhere else. -/
theorem Route.not_astray_table {server replacement : Address} :
    ¬ Route.table.Astray server replacement := by
  rintro ⟨address, hkept, _⟩
  exact absurd hkept (by simp)

/-- **A call finds its function, or looks for it elsewhere.** -/
theorem HookSpace.Ready.found_or_astray {q space : HookSpace} {e : Export}
    {server replacement : Address} {mode : HookMode} (hready : q.Ready space e replacement mode)
    (hholds : space.Holds e server replacement) (hthere : server ≠ 0) (route : Route) :
    (∃ d, (route.address? q e).bind (q.destination? server replacement) = some d)
      ∨ (route.address? q e).bind (q.destination? server replacement) = none
        ∧ route.Astray server replacement := by
  cases route with
  | table =>
      left
      unfold Route.address?
      dsimp only
      cases mode with
      | exportTable =>
          rw [hready.1, if_neg hholds.real]
          exact ⟨_, destination?_replacement⟩
      | inline =>
          rw [hready.1, hholds.found, if_neg hthere]
          exact destination?_server
  | kept address =>
      unfold Route.address?
      dsimp only
      by_cases hnull : address = 0
      · rw [if_pos hnull]
        exact .inr ⟨rfl, address, rfl, .inl hnull⟩
      rw [if_neg hnull]
      by_cases hserver : address = server
      · rw [hserver]
        exact .inl destination?_server
      by_cases hreplacement : address = replacement
      · rw [hreplacement]
        exact .inl ⟨_, destination?_replacement⟩
      -- what lies elsewhere may still be a jump to one of the two
      cases hfound : (some address).bind (q.destination? server replacement) with
      | some d => exact .inl ⟨d, rfl⟩
      | none => exact .inr ⟨rfl, address, rfl, .inr ⟨hserver, hreplacement⟩⟩

/-- **A function that starts with the jump leads to its replacement.** -/
theorem HookSpace.destination?_jump {q : HookSpace} {server replacement : Address}
    (hjump : q.code.read server Jump.length = Jump.absolute replacement) :
    q.destination? server replacement server = some .replacement := by
  unfold destination?
  rw [hjump, Jump.target?_absolute]
  exact if_pos (.inr rfl)

/-- **The export table leads to both replacements**, so that no call that goes by it passes the plugin
by. -/
def HookSpace.Intercepts (space : HookSpace) (layout : CodeLayout) : Prop :=
  (Route.table.address? space .exec).bind (space.destination? layout.exec layout.hookedExec) =
      some .replacement
    ∧ (Route.table.address? space .register).bind
      (space.destination? layout.register layout.hookedRegister) = some .replacement

/-- **After a redirection every call by the table is intercepted**, in both modes. -/
theorem HookSpace.Redirected.intercepts {space after : HookSpace} {layout : CodeLayout}
    {mode : HookMode} (h : space.Redirected layout after mode) (hfits : space.Fits layout)
    (hexec : layout.exec ≠ 0) (hregister : layout.register ≠ 0) : after.Intercepts layout := by
  unfold Intercepts Route.address?
  dsimp only
  cases mode with
  | exportTable =>
      obtain ⟨_, hentries⟩ := h
      have hexec' : after.table.address .exec = layout.hookedExec := by
        rw [ExportTable.address, List.getD_eq_getElem?_getD, hentries, if_pos rfl]
        rfl
      have hregister' : after.table.address .register = layout.hookedRegister := by
        rw [ExportTable.address, List.getD_eq_getElem?_getD, hentries, if_neg (by decide), if_pos rfl]
        rfl
      rw [hexec', hregister', if_neg hfits.exec.real, if_neg hfits.register.real]
      exact ⟨destination?_replacement, destination?_replacement⟩
  | inline =>
      obtain ⟨htable, _, hexecJump, hregisterJump, _⟩ := h
      rw [htable, hfits.exec.found, hfits.register.found, if_neg hexec, if_neg hregister]
      rw [hfits.exec.found] at hexecJump
      rw [hfits.register.found] at hregisterJump
      exact ⟨destination?_jump hexecJump, destination?_jump hregisterJump⟩

namespace Plugin

open HookSpace Redirection

variable {env : PluginEnvironment F W} {space : HookSpace} {mode : HookMode} {natives : NativeTable}
  {p : Plugin F} {w : W}

/-- **What does not change while the plugin is loaded.** -/
structure Frame (layout : CodeLayout) (space : HookSpace) (mode : HookMode) : Prop where
  fits : space.Fits layout
  separate : space.Separate .exec .register mode
  exec : layout.exec ≠ 0
  register : layout.register ≠ 0

/-- **A plugin with both functions redirected**, each of them lent or not. -/
structure Hooks (layout : CodeLayout) (space : HookSpace) (mode : HookMode) (natives : NativeTable)
    (p : Plugin F) : Prop where
  installation : p.installation = some
    ⟨installed space .exec layout.hookedExec mode,
      installed space .register layout.hookedRegister mode, natives⟩
  exec : p.space.Ready space .exec layout.hookedExec mode
  register : p.space.Ready space .register layout.hookedRegister mode

/-- What a plugin does to its space and its installation decides whether it keeps its hooks. -/
theorem Hooks.congr {q : Plugin F} (h : Hooks env.layout space mode natives p)
    (hspace : q.space = p.space) (hinstallation : q.installation = p.installation) :
    Hooks env.layout space mode natives q := by
  refine ⟨hinstallation.trans h.installation, ?_, ?_⟩
  · rw [hspace]
    exact h.exec
  · rw [hspace]
    exact h.register

section

variable (hframe : Frame env.layout space mode) (h : Hooks env.layout space mode natives p)

include hframe h

theorem Hooks.lend_exec :
    Hooks env.layout space mode natives { p with space := p.space.lent space .exec mode } :=
  ⟨h.installation, h.exec.lent_self, h.register.lent_other hframe.separate⟩

theorem Hooks.lend_register :
    Hooks env.layout space mode natives { p with space := p.space.lent space .register mode } :=
  ⟨h.installation, h.exec.lent_other hframe.separate.symm, h.register.lent_self⟩

theorem Hooks.reclaim_exec :
    let hook := installed space .exec env.layout.hookedExec mode
    Hooks env.layout space mode natives { p with space := hook.reclaim p.space } :=
  ⟨h.installation, h.exec.reclaim_self, h.register.reclaim_other hframe.separate⟩

theorem Hooks.reclaim_register :
    let hook := installed space .register env.layout.hookedRegister mode
    Hooks env.layout space mode natives { p with space := hook.reclaim p.space } :=
  ⟨h.installation, h.exec.reclaim_other hframe.separate.symm, h.register.reclaim_self⟩

end

/-- **A call is passed on to its function**, which is lent to it and reclaimed afterwards. -/
theorem passOn_eq {α : Type} {e : Export} {server replacement : Address}
    {hook : Installation → Redirection} {i : Installation} (refused : StatusCode → α)
    (original : Plugin F → W → α × Plugin F × W) (hinstallation : p.installation = some i)
    (hhook : hook i = installed space e replacement mode)
    (hready : p.space.Ready space e replacement mode) (hholds : space.Holds e server replacement) :
    passOn env e server replacement hook refused original p w =
      let outcome := original { p with space := p.space.lent space e mode } w
      (outcome.1,
        { outcome.2.1 with
          space := (installed space e replacement mode).reclaim outcome.2.1.space },
        outcome.2.2) := by
  obtain ⟨hlend, hdestination⟩ := hready.lend_eq hholds
  unfold passOn
  rw [hinstallation]
  dsimp only
  rw [hhook, hlend]
  dsimp only
  rw [hdestination]

/-- **A call gets through**: `original` runs once, after nothing but what the console writes, and
what it answers is the answer. The hooks are there before and after. -/
def GetsThrough {α : Type} (env : PluginEnvironment F W) (space : HookSpace) (mode : HookMode)
    (natives : NativeTable) (original : Plugin F → W → α × Plugin F × W) (w : W)
    (outcome : α × Plugin F × W) : Prop :=
  ∃ (p : Plugin F) (before : W), Hooks env.layout space mode natives p
    ∧ env.console.Wrote w before
    ∧ outcome.1 = (original p before).1 ∧ outcome.2.2 = (original p before).2.2
    ∧ Hooks env.layout space mode natives outcome.2.1

/-- **The bridge lets every execution pass**, and leaves the hooks alone. -/
theorem decide_console (env : PluginEnvironment F W) (call : ExecCall) (p : Plugin F) (w : W) :
    (decide env call p w).1 = .forward ∧ (decide env call p w).2.1.space = p.space
      ∧ (decide env call p w).2.1.installation = p.installation
      ∧ env.console.Wrote w (decide env call p w).2.2 := by
  unfold decide
  split
  · rename_i bridge program _ _
    obtain ⟨hforward, hwrote⟩ := Bridge.onExecute_console env.bridge env.console bridge
      (env.view program w) call.index w
    exact ⟨hforward, rfl, rfl, hwrote⟩
  · exact ⟨rfl, rfl, rfl, .nothing⟩

section

variable (hframe : Frame env.layout space mode) (h : Hooks env.layout space mode natives p)

include hframe h

/-- **An execution gets through the plugin.** -/
theorem hookedExec_getsThrough {call : ExecCall}
    {original : ExecCall → Plugin F → W → (StatusCode × Option Cell) × Plugin F × W}
    (horiginal : ∀ q w, Hooks env.layout space mode natives q →
      Hooks env.layout space mode natives (original call q w).2.1) :
    GetsThrough env space mode natives (original call) w (hookedExec env call original p w) := by
  obtain ⟨hforward, hspace, hinstallation, hwrote⟩ := decide_console env call p w
  have hdecided : Hooks env.layout space mode natives (decide env call p w).2.1 :=
    h.congr hspace hinstallation
  refine ⟨{ (decide env call p w).2.1 with
      space := (decide env call p w).2.1.space.lent space .exec mode },
    (decide env call p w).2.2, hdecided.lend_exec hframe, hwrote, ?_⟩
  have hlent := horiginal _ (decide env call p w).2.2 (hdecided.lend_exec hframe)
  unfold hookedExec
  dsimp only
  rw [hforward]
  unfold Decision.resolve
  dsimp only
  rw [passOn_eq _ _ hdecided.installation rfl hdecided.exec hframe.fits.exec]
  exact ⟨rfl, rfl, hlent.reclaim_exec hframe⟩

/-- **A registration gets through the plugin**, after the bridge has looked at it. -/
theorem hookedRegister_getsThrough {call : RegisterCall (NativeFunction F)}
    {original : RegisterCall (NativeFunction F) → Plugin F → W → StatusCode × Plugin F × W}
    (horiginal : ∀ q w, Hooks env.layout space mode natives q →
      Hooks env.layout space mode natives (original call q w).2.1) :
    GetsThrough env space mode natives (original call) w (hookedRegister env call original p w) := by
  let seen : Plugin F :=
    { p with bridge := p.bridge.map fun bridge => bridge.onRegister call.list call.number }
  have hseen : Hooks env.layout space mode natives seen := h.congr rfl rfl
  have hlent := horiginal _ w (hseen.lend_register hframe)
  refine ⟨_, w, hseen.lend_register hframe, .nothing, ?_⟩
  show (passOn env .register _ _ _ id (original call) seen w).1 = _ ∧ _
  unfold hookedRegister
  rw [passOn_eq id (original call) hseen.installation rfl hseen.register hframe.fits.register]
  exact ⟨rfl, rfl, hlent.reclaim_register hframe⟩

/-- **An execution gets through, or it was not meant for the server's function.** -/
theorem execAt_getsThrough (route : Route) {call : ExecCall}
    {original : ExecCall → Plugin F → W → (StatusCode × Option Cell) × Plugin F × W}
    (horiginal : ∀ q w, Hooks env.layout space mode natives q →
      Hooks env.layout space mode natives (original call q w).2.1) :
    GetsThrough env space mode natives (original call) w
        (execAt env (route.address? p.space .exec) call original p w)
      ∨ route.Astray env.layout.exec env.layout.hookedExec
        ∧ execAt env (route.address? p.space .exec) call original p w =
          ((.general, call.slot), p, w) := by
  unfold execAt
  rcases h.exec.found_or_astray hframe.fits.exec hframe.exec route with
    ⟨_ | _, hfound⟩ | ⟨hnone, hastray⟩
  · rw [hfound]
    exact .inl ⟨p, w, h, .nothing, rfl, rfl, horiginal p w h⟩
  · rw [hfound]
    exact .inl (hookedExec_getsThrough hframe h horiginal)
  · rw [hnone]
    exact .inr ⟨hastray, rfl⟩

/-- **A registration gets through, or it was not meant for the server's function.** -/
theorem registerAt_getsThrough (route : Route) {call : RegisterCall (NativeFunction F)}
    {original : RegisterCall (NativeFunction F) → Plugin F → W → StatusCode × Plugin F × W}
    (horiginal : ∀ q w, Hooks env.layout space mode natives q →
      Hooks env.layout space mode natives (original call q w).2.1) :
    GetsThrough env space mode natives (original call) w
        (registerAt env (route.address? p.space .register) call original p w)
      ∨ route.Astray env.layout.register env.layout.hookedRegister
        ∧ registerAt env (route.address? p.space .register) call original p w =
          (.general, p, w) := by
  unfold registerAt
  rcases h.register.found_or_astray hframe.fits.register hframe.register route with
    ⟨_ | _, hfound⟩ | ⟨hnone, hastray⟩
  · rw [hfound]
    exact .inl ⟨p, w, h, .nothing, rfl, rfl, horiginal p w h⟩
  · rw [hfound]
    exact .inl (hookedRegister_getsThrough hframe h horiginal)
  · rw [hnone]
    exact .inr ⟨hastray, rfl⟩

end

end Plugin

/-! ## Runs -/

/--
**What a run of the server leads to with its functions to itself**, but for what a console writes.
`run.Undisturbed env natives w answer after` says that the run can lead from `w` to `after` with this
answer. Every call is answered by the function of the server, which runs once, with the arguments of
the call; the run goes on with the code that it answered and with what it left in the slot. A
program that is loaded is given the natives of the plugin, if there are any, by one registration.
-/
inductive ServerRun.Undisturbed (env : PluginEnvironment F W) (natives : NativeTable) :
    ServerRun (NativeFunction F) W → W → StatusCode × Option Cell → W → Prop where
  | finish {code : StatusCode} {slot : Option Cell} {w : W} :
      Undisturbed env natives (.finish code slot) w (code, slot) w
  | change {effect : W → W} {next : ServerRun (NativeFunction F) W} {w after : W}
      {answer : StatusCode × Option Cell} :
      Undisturbed env natives next (effect w) answer after →
      Undisturbed env natives (.change effect next) w answer after
  | look {next : W → ServerRun (NativeFunction F) W} {w after : W}
      {answer : StatusCode × Option Cell} :
      Undisturbed env natives (next w) w answer after →
      Undisturbed env natives (.look next) w answer after
  | exec {route : Route} {call : ExecCall} {reached : ExecCall → ServerRun (NativeFunction F) W}
      {next : StatusCode → Option Cell → ServerRun (NativeFunction F) W} {w before behind after : W}
      {code : StatusCode} {stored : Option Cell} {answer : StatusCode × Option Cell} :
      env.console.Wrote w before →
      Undisturbed env natives (reached call) before (code, stored) behind →
      Undisturbed env natives (next code stored) behind answer after →
      Undisturbed env natives (.exec route call reached next) w answer after
  | execAstray {route : Route} {call : ExecCall}
      {reached : ExecCall → ServerRun (NativeFunction F) W}
      {next : StatusCode → Option Cell → ServerRun (NativeFunction F) W} {w after : W}
      {answer : StatusCode × Option Cell} :
      route.Astray env.layout.exec env.layout.hookedExec →
      Undisturbed env natives (next .general call.slot) w answer after →
      Undisturbed env natives (.exec route call reached next) w answer after
  | register {route : Route} {call : RegisterCall (NativeFunction F)}
      {reached : RegisterCall (NativeFunction F) → ServerRun (NativeFunction F) W}
      {next : StatusCode → ServerRun (NativeFunction F) W} {w before behind after : W}
      {code : StatusCode} {stored : Option Cell} {answer : StatusCode × Option Cell} :
      env.console.Wrote w before →
      Undisturbed env natives (reached call) before (code, stored) behind →
      Undisturbed env natives (next code) behind answer after →
      Undisturbed env natives (.register route call reached next) w answer after
  | registerAstray {route : Route} {call : RegisterCall (NativeFunction F)}
      {reached : RegisterCall (NativeFunction F) → ServerRun (NativeFunction F) W}
      {next : StatusCode → ServerRun (NativeFunction F) W} {w after : W}
      {answer : StatusCode × Option Cell} :
      route.Astray env.layout.register env.layout.hookedRegister →
      Undisturbed env natives (next .general) w answer after →
      Undisturbed env natives (.register route call reached next) w answer after
  | programLoaded {program : Option ProgramId}
      {reached : RegisterCall (NativeFunction F) → ServerRun (NativeFunction F) W}
      {next : StatusCode → ServerRun (NativeFunction F) W} {w before behind between after : W}
      {code : StatusCode} {stored : Option Cell} {answer : StatusCode × Option Cell} :
      natives.size ≠ 0 →
      env.console.Wrote w before →
      Undisturbed env natives (reached (Plugin.tableCall natives program)) before (code, stored)
        behind →
      env.console.Wrote behind between →
      Undisturbed env natives (next code) between answer after →
      Undisturbed env natives (.programLoaded program reached next) w answer after
  | nothingProvided {program : Option ProgramId}
      {reached : RegisterCall (NativeFunction F) → ServerRun (NativeFunction F) W}
      {next : StatusCode → ServerRun (NativeFunction F) W} {w before after : W}
      {answer : StatusCode × Option Cell} :
      natives.size = 0 →
      env.console.Wrote w before →
      Undisturbed env natives (next .success) before answer after →
      Undisturbed env natives (.programLoaded program reached next) w answer after
  | programUnloaded {program : Option ProgramId}
      {next : StatusCode → ServerRun (NativeFunction F) W} {w before after : W}
      {answer : StatusCode × Option Cell} :
      env.console.Wrote w before →
      Undisturbed env natives (next .success) before answer after →
      Undisturbed env natives (.programUnloaded program next) w answer after
  | frame {next : ServerRun (NativeFunction F) W} {w before after : W}
      {answer : StatusCode × Option Cell} :
      env.console.Wrote w before →
      Undisturbed env natives next before answer after →
      Undisturbed env natives (.frame next) w answer after

namespace Plugin

open HookSpace Redirection

variable {env : PluginEnvironment F W} {space : HookSpace} {mode : HookMode} {natives : NativeTable}
  {p : Plugin F} {w : W}

/-- **A program is given the natives by one registration**, which gets through, or by none. -/
theorem provide_cases (hframe : Frame env.layout space mode)
    (h : Hooks env.layout space mode natives p) (program : Option ProgramId)
    {original : RegisterCall (NativeFunction F) → Plugin F → W → StatusCode × Plugin F × W}
    (horiginal : ∀ q w, Hooks env.layout space mode natives q →
      Hooks env.layout space mode natives (original (tableCall natives program) q w).2.1) :
    natives.size = 0 ∧ (∃ before, env.console.Wrote w before
        ∧ provide env program original p w = (.success, p, before))
      ∨ natives.size ≠ 0 ∧ ∃ outcome : StatusCode × Plugin F × W,
        GetsThrough env space mode natives (original (tableCall natives program)) w outcome
          ∧ ∃ between, env.console.Wrote outcome.2.2 between
            ∧ provide env program original p w = (outcome.1, outcome.2.1, between) := by
  have hthrough := (registerAt_getsThrough (w := w) hframe h .table horiginal).resolve_right
    fun hastray => Route.not_astray_table hastray.1
  have hfound := (h.register.found_or_astray hframe.fits.register hframe.register .table).resolve_right
    fun hastray => Route.not_astray_table hastray.2
  obtain ⟨_, hfound⟩ := hfound
  obtain ⟨address, haddress, _⟩ := Option.bind_eq_some_iff.mp hfound
  rw [haddress] at hthrough
  unfold provide
  rw [h.installation, haddress]
  dsimp only
  by_cases hsize : natives.size = 0
  · rw [if_pos hsize]
    exact .inl ⟨hsize, _, .line _ .nothing, rfl⟩
  · rw [if_neg hsize]
    exact .inr ⟨hsize, _, hthrough, _, .line _ .nothing, rfl⟩

/-- A program that is removed leaves the hooks alone. -/
theorem onProgramUnloaded_console (h : Hooks env.layout space mode natives p)
    (program : Option ProgramId) (w : W) :
    (onProgramUnloaded env program p w).1 = .success
      ∧ Hooks env.layout space mode natives (onProgramUnloaded env program p w).2.1
      ∧ env.console.Wrote w (onProgramUnloaded env program p w).2.2 := by
  unfold onProgramUnloaded
  split
  · exact ⟨rfl, h.congr rfl rfl, Bridge.wrote_onProgramUnloaded _ _ w⟩
  · exact ⟨rfl, h, .nothing⟩

/-- So does a frame. -/
theorem onFrame_console (h : Hooks env.layout space mode natives p) (w : W) :
    Hooks env.layout space mode natives (onFrame env p w).1
      ∧ env.console.Wrote w (onFrame env p w).2 := by
  unfold onFrame
  split
  · exact ⟨h.congr rfl rfl, Bridge.wrote_onFrame _ w⟩
  · exact ⟨h, .nothing⟩

/-- What the function of the server does with an execution. -/
def executed (env : PluginEnvironment F W) (reached : ExecCall → ServerRun (NativeFunction F) W)
    (call : ExecCall) (p : Plugin F) (w : W) : (StatusCode × Option Cell) × Plugin F × W :=
  serve env (reached call) p w

/-- What it does with a registration, which leaves nothing in a slot. -/
def registered (env : PluginEnvironment F W)
    (reached : RegisterCall (NativeFunction F) → ServerRun (NativeFunction F) W)
    (call : RegisterCall (NativeFunction F)) (p : Plugin F) (w : W) : StatusCode × Plugin F × W :=
  ((serve env (reached call) p w).1.1, (serve env (reached call) p w).2)

section

variable {outcome : (StatusCode × Option Cell) × Plugin F × W} {outcome' : StatusCode × Plugin F × W}

theorem GetsThrough.hooks {α : Type} {original : Plugin F → W → α × Plugin F × W}
    {outcome : α × Plugin F × W} (h : GetsThrough env space mode natives original w outcome) :
    Hooks env.layout space mode natives outcome.2.1 := by
  obtain ⟨_, _, _, _, _, _, hafter⟩ := h
  exact hafter

/-- An execution that gets through runs the function of the server. -/
theorem GetsThrough.executed {reached : ExecCall → ServerRun (NativeFunction F) W} {call : ExecCall}
    (h : GetsThrough env space mode natives (executed env reached call) w outcome)
    (hrun : ∀ q w, Hooks env.layout space mode natives q →
      (reached call).Undisturbed env natives w (serve env (reached call) q w).1
        (serve env (reached call) q w).2.2) :
    ∃ before, env.console.Wrote w before
      ∧ (reached call).Undisturbed env natives before outcome.1 outcome.2.2 := by
  obtain ⟨q, before, hq, hwrote, hanswer, hworld, _⟩ := h
  refine ⟨before, hwrote, ?_⟩
  rw [hanswer, hworld]
  exact hrun q before hq

/-- So does a registration. -/
theorem GetsThrough.registered {call : RegisterCall (NativeFunction F)}
    {reached : RegisterCall (NativeFunction F) → ServerRun (NativeFunction F) W}
    (h : GetsThrough env space mode natives (registered env reached call) w outcome')
    (hrun : ∀ q w, Hooks env.layout space mode natives q →
      (reached call).Undisturbed env natives w (serve env (reached call) q w).1
        (serve env (reached call) q w).2.2) :
    ∃ before stored, env.console.Wrote w before
      ∧ (reached call).Undisturbed env natives before (outcome'.1, stored) outcome'.2.2 := by
  obtain ⟨q, before, hq, hwrote, hanswer, hworld, _⟩ := h
  refine ⟨before, (serve env (reached call) q before).1.2, hwrote, ?_⟩
  rw [hanswer, hworld]
  exact hrun q before hq

end

/-- **A run leaves the hooks in place, and the server undisturbed.** -/
theorem serve_undisturbed (hframe : Frame env.layout space mode)
    (run : ServerRun (NativeFunction F) W) (p : Plugin F) (w : W)
    (h : Hooks env.layout space mode natives p) :
    Hooks env.layout space mode natives (serve env run p w).2.1
      ∧ run.Undisturbed env natives w (serve env run p w).1 (serve env run p w).2.2 := by
  induction run generalizing p w with
  | finish code slot => exact ⟨h, .finish⟩
  | change effect next ih =>
      obtain ⟨hafter, hrun⟩ := ih p (effect w) h
      exact ⟨hafter, .change hrun⟩
  | look next ih =>
      obtain ⟨hafter, hrun⟩ := ih w p w h
      exact ⟨hafter, .look hrun⟩
  | exec route call reached next ihreached ihnext =>
      have hserve : serve env (.exec route call reached next) p w =
          let outcome := execAt env (route.address? p.space .exec) call (executed env reached) p w
          serve env (next outcome.1.1 outcome.1.2) outcome.2.1 outcome.2.2 := rfl
      have horiginal : ∀ q w, Hooks env.layout space mode natives q →
          Hooks env.layout space mode natives (executed env reached call q w).2.1 :=
        fun q w hq => (ihreached call q w hq).1
      rw [hserve]
      rcases execAt_getsThrough hframe h route horiginal with hthrough | ⟨hastray, houtcome⟩
      · obtain ⟨before, hwrote, hreached⟩ :=
          hthrough.executed fun q w hq => (ihreached call q w hq).2
        obtain ⟨hhooks, hnext⟩ := ihnext _ _ _ _ hthrough.hooks
        exact ⟨hhooks, .exec hwrote hreached hnext⟩
      · rw [houtcome]
        obtain ⟨hhooks, hnext⟩ := ihnext .general call.slot p w h
        exact ⟨hhooks, .execAstray hastray hnext⟩
  | register route call reached next ihreached ihnext =>
      have hserve : serve env (.register route call reached next) p w =
          let outcome := registerAt env (route.address? p.space .register) call
            (registered env reached) p w
          serve env (next outcome.1) outcome.2.1 outcome.2.2 := rfl
      have horiginal : ∀ q w, Hooks env.layout space mode natives q →
          Hooks env.layout space mode natives (registered env reached call q w).2.1 :=
        fun q w hq => (ihreached call q w hq).1
      rw [hserve]
      rcases registerAt_getsThrough hframe h route horiginal with hthrough | ⟨hastray, houtcome⟩
      · obtain ⟨before, stored, hwrote, hreached⟩ :=
          hthrough.registered fun q w hq => (ihreached call q w hq).2
        obtain ⟨hhooks, hnext⟩ := ihnext _ _ _ hthrough.hooks
        exact ⟨hhooks, .register hwrote hreached hnext⟩
      · rw [houtcome]
        obtain ⟨hhooks, hnext⟩ := ihnext .general p w h
        exact ⟨hhooks, .registerAstray hastray hnext⟩
  | programLoaded program reached next ihreached ihnext =>
      have hserve : serve env (.programLoaded program reached next) p w =
          let outcome := provide env program (registered env reached) p w
          serve env (next outcome.1) outcome.2.1 outcome.2.2 := rfl
      have horiginal : ∀ q w, Hooks env.layout space mode natives q →
          Hooks env.layout space mode natives
            (registered env reached (tableCall natives program) q w).2.1 :=
        fun q w hq => (ihreached _ q w hq).1
      rw [hserve]
      rcases provide_cases hframe h program horiginal with
        ⟨hnone, before, hwrote, houtcome⟩ | ⟨hsome, outcome, hthrough, between, hline, houtcome⟩
      · rw [houtcome]
        obtain ⟨hhooks, hnext⟩ := ihnext .success p before h
        exact ⟨hhooks, .nothingProvided hnone hwrote hnext⟩
      · rw [houtcome]
        obtain ⟨before, stored, hwrote, hreached⟩ :=
          hthrough.registered fun q w hq => (ihreached _ q w hq).2
        obtain ⟨hhooks, hnext⟩ := ihnext outcome.1 outcome.2.1 between hthrough.hooks
        exact ⟨hhooks, .programLoaded hsome hwrote hreached hline hnext⟩
  | programUnloaded program next ih =>
      obtain ⟨hcode, hhooks, hwrote⟩ := onProgramUnloaded_console h program w
      have hserve : serve env (.programUnloaded program next) p w =
          let outcome := onProgramUnloaded env program p w
          serve env (next outcome.1) outcome.2.1 outcome.2.2 := rfl
      rw [hserve]
      dsimp only
      rw [hcode]
      obtain ⟨hafter, hnext⟩ := ih .success _ _ hhooks
      exact ⟨hafter, .programUnloaded hwrote hnext⟩
  | frame next ih =>
      obtain ⟨hhooks, hwrote⟩ := onFrame_console h w
      obtain ⟨hafter, hnext⟩ := ih _ _ hhooks
      exact ⟨hafter, .frame hwrote hnext⟩

/-- **A load leaves both functions redirected**, whatever becomes of the bridge. -/
theorem hooks_hooked {layout : CodeLayout} {d : Definitions}
    (hframe : Frame layout space d.settings.hookMode)
    (bridge : Option (Bridge (NativeFunction F) Empty)) :
    Hooks layout space d.settings.hookMode (NativeTable.ofNames d.natives)
      { (hooked layout space d : Plugin F) with bridge } := by
  have hexec : space.table.address .exec ≠ 0 := hframe.fits.exec.found ▸ hframe.exec
  have hregister : space.table.address .register ≠ 0 := hframe.fits.register.found ▸ hframe.register
  have hredirected :
      space.Redirected layout (patchedBoth layout space d.settings.hookMode) d.settings.hookMode :=
    redirected_patchedBoth hframe.separate hexec hregister
  refine ⟨rfl, ?_, ?_⟩
  · show (patchedBoth layout space d.settings.hookMode).Ready space .exec _ _
    generalize d.settings.hookMode = mode at hredirected ⊢
    cases mode with
    | exportTable =>
        refine ⟨?_, rfl⟩
        show ((space.table.store .exec _).store .register _).address .exec = _
        rw [ExportTable.address_store_ne (by decide), ExportTable.address_store hexec]
    | inline => exact ⟨rfl, .inr hredirected.2.2.1⟩
  · show (patchedBoth layout space d.settings.hookMode).Ready space .register _ _
    generalize d.settings.hookMode = mode at hredirected ⊢
    cases mode with
    | exportTable =>
        refine ⟨ExportTable.address_store ?_, rfl⟩
        rwa [address_patched_ne (by decide)]
    | inline => exact ⟨rfl, .inr hredirected.2.2.2.1⟩

/--
**The server does not notice the plugin.** A plugin is loaded, after whatever loads and unloads came
before, and the export table leads to it. Then, as long as it is not unloaded, the server runs as it
would alone: whatever programs it executes and whatever natives it registers, through the export
table or by an address that it kept, inside of each other to any depth, while programs come and go
and frames pass, every such call runs the function of the server once, with the arguments of the
call, and answers what that answered. A callback that may be suppressed is not, since a console
stands in for the script.

The bridge may be in any state, or be in use and out of reach.
-/
theorem server_runs_undisturbed (env : PluginEnvironment F W) (space : HookSpace) (plugin : Plugin F)
    (h : Reached env space false plugin) (hfits : space.Fits env.layout) (data : PluginData)
    (directory : Directory) (hroom : HasRoom space directory) (w : W)
    (hload : (plugin.load env data directory w).1 = .ok ()) :
    let loaded := (plugin.load env data directory w).2.1
    loaded.space.Intercepts env.layout
      ∧ ∃ installation, loaded.installation = some installation
      ∧ ∀ (bridge : Option (Bridge (NativeFunction F) Empty))
          (run : ServerRun (NativeFunction F) W) (w : W),
        let outcome := serve env run { loaded with bridge } w
        run.Undisturbed env installation.natives w outcome.1 outcome.2.2 := by
  intro loaded
  rcases (h.leaves.2 rfl).load env data hroom w with ⟨e, hrefused, _⟩ |
    ⟨d, _, hseparate, hexec, hregister, _, hhooked⟩
  · exact absurd (hload.symm.trans hrefused) (by simp)
  have hframe : Frame env.layout space d.settings.hookMode :=
    ⟨hfits, hseparate, hfits.exec.found ▸ hexec, hfits.register.found ▸ hregister⟩
  have hredirected :
      space.Redirected env.layout (patchedBoth env.layout space d.settings.hookMode)
        d.settings.hookMode :=
    redirected_patchedBoth hseparate hexec hregister
  rw [show loaded = _ from hhooked]
  refine ⟨hredirected.intercepts hfits hframe.exec hframe.register, _, rfl, fun bridge run w => ?_⟩
  exact (serve_undisturbed hframe run _ w (hooks_hooked hframe bridge)).2

section

open Simulation

/-- A directory with a callback that may be suppressed. -/
def cancelingDirectory : Directory where
  files := [("data/server/callbacks.txt", Utf8.encode "[Cancelable, ReturnOne] forward OnTest();"),
    ("data/server/natives.txt", [])]

/-- A world with one program, which has the function of that callback. -/
def cancelingWorld : World :=
  { machines := #[{ image := some (Image.withNameTable [Utf8.encode "OnTest"]) }] }

/-- The program is announced and runs the function. -/
def cancelingRun : ServerRun ServerNative World :=
  .exec .table ⟨some 0, -1, none⟩ execRun fun _ _ =>
    .exec .table ⟨some 0, 0, some (-7)⟩ execRun .finish

theorem fits_serverSpace : (serverSpace []).Fits layout :=
  ⟨⟨by decide, by decide, by decide, by decide +kernel⟩,
    ⟨by decide, by decide, by decide, by decide +kernel⟩⟩

/-- A call that could be suppressed is seen and goes on: the slot holds what the server stored. -/
theorem server_runs_undisturbed_cancelable :
    let plugin : Plugin Unit := { space := serverSpace [] }
    let answer := (plugin.load pluginEnvironment .complete cancelingDirectory {}).1
    let loaded := (plugin.load pluginEnvironment .complete cancelingDirectory {}).2.1
    let outcome := serve pluginEnvironment cancelingRun loaded cancelingWorld
    (Reached pluginEnvironment (serverSpace []) false plugin ∧ (serverSpace []).Fits layout
        ∧ HasRoom (serverSpace []) cancelingDirectory ∧ answer = .ok ())
      ∧ (∃ natives, cancelingRun.Undisturbed pluginEnvironment natives cancelingWorld outcome.1
        outcome.2.2)
      ∧ outcome.1 = (.success, some 100) ∧ outcome.2.2.console.intercepted = 1 := by
  intro plugin answer loaded outcome
  have hreached : Reached pluginEnvironment (serverSpace []) false plugin := .fresh
  have hroom := hasRoom_serverSpace cancelingDirectory
  have hok : answer = .ok () := eq_ok_of_isOk (by decide +kernel)
  obtain ⟨_, installation, _, hruns⟩ := server_runs_undisturbed pluginEnvironment _ plugin hreached
    fits_serverSpace .complete cancelingDirectory hroom {} hok
  exact ⟨⟨hreached, fits_serverSpace, hroom, hok⟩,
    ⟨_, hruns loaded.bridge cancelingRun cancelingWorld⟩, by decide +kernel⟩

end

end Plugin

end ScriptBridge
