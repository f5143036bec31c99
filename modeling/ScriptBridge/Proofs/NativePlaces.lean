import ScriptBridge.Bridge.Basic
import ScriptBridge.Proofs.HandlerCalls
import ScriptBridge.Proofs.NameBytes
import ScriptBridge.Provided.Table

/-!
# Places of provided natives

A program knows a provided native by its place in the table that was registered with it. The name of
the place, the function that the program calls and the name that the call is answered by stand in three
lists, each of which is filtered or cut on its own. They agree because the first list already holds
nothing that the others leave out: its names have no zero, so that each of them is read back, and
there are no more of them than functions.

**Use of the natives.** A `Desk` is a bridge with the table that is bound to it. A program calls
places, the script provides natives, and the table is bound and let go. What a handler does is an
`Errand`: it changes the world and looks at it, and it may try to provide natives, to call places
itself and to let the table go. It does not bind one: that is done when the plugin is loaded.

While a handler runs every such attempt fails, so that an errand comes to what `Errand.busy` says, and
that does not depend on what the other handlers would do. From this follows what one step does to the
natives, and by induction what they are after any steps: those of `lastRegistered`.
-/

namespace ScriptBridge

/-! ## Names with a place -/

/-- **The names that have a place**, in their order: those without a zero, and at most 255 of them. -/
def placedNames (names : List String) : List String :=
  (names.filter fun name => '\x00' ∉ name.toList).take 255

/-- **Names as a text lists them**: they hold letters and underscores, and there are no more of them than
places. -/
structure NativeNames.Listed (names : List String) : Prop where
  chars : ∀ name ∈ names, name.toList.all isNameChar = true
  length : names.length ≤ maxNatives

theorem NativeNames.addLines_cons {names added : List String} {number : Nat} {line : List Char}
    {lines : List (Nat × List Char)} (h : addLines names ((number, line) :: lines) = .ok added) :
    line.all isNameChar = true ∧ names.length ≠ maxNatives
      ∧ addLines (names ++ [String.ofList line]) lines = .ok added := by
  unfold addLines at h
  dsimp only at h
  split at h
  · exact absurd h (by simp)
  rename_i hchars
  split at h
  · exact absurd h (by simp)
  split at h
  · exact absurd h (by simp)
  rename_i hfull
  exact ⟨by simpa using hchars, hfull, h⟩

theorem NativeNames.Listed.addLines {names added : List String} {lines : List (Nat × List Char)}
    (hnames : Listed names) (h : addLines names lines = .ok added) : Listed added := by
  induction lines generalizing names with
  | nil =>
      obtain rfl := Except.ok.inj h
      exact hnames
  | cons entry lines ih =>
      obtain ⟨hchars, hfull, hrest⟩ := addLines_cons h
      refine ih ⟨List.forall_mem_append.mpr ⟨hnames.chars, List.forall_mem_singleton.mpr ?_⟩, ?_⟩ hrest
      · rw [String.toList_ofList]
        exact hchars
      · have hlength := hnames.length
        rw [List.length_append, List.length_singleton]
        omega

/-- **Names that are read from a text all have a place.** -/
theorem placedNames_parse {text : String} {names : List String}
    (h : NativeNames.parse text = .ok names) : placedNames names = names := by
  have hnone : NativeNames.Listed [] := ⟨by simp, Nat.zero_le _⟩
  obtain ⟨hchars, hlength⟩ := hnone.addLines h
  have hplain : ∀ name ∈ names, decide ('\x00' ∉ name.toList) = true := by
    intro name hname
    refine decide_eq_true fun hzero => ?_
    exact absurd (List.all_eq_true.mp (hchars name hname) _ hzero) (by decide)
  unfold placedNames
  rw [List.filter_eq_self.mpr hplain]
  exact List.take_of_length_le hlength

/-! ## Places of a table -/

namespace NativeTable

variable {names : List String}

theorem zeroEnded?_encode (name : String) :
    zeroEnded? (Utf8.encode name) =
      if '\x00' ∉ name.toList then some (Utf8.encode name) else none := by
  have hzero : (Utf8.encode name).contains 0 = true ↔ '\x00' ∈ name.toList := by
    rw [List.contains_iff_mem, Utf8.zero_mem_encode_iff]
  unfold zeroEnded?
  by_cases hmem : '\x00' ∈ name.toList
  · rw [if_pos (hzero.mpr hmem), if_neg (not_not_intro hmem)]
  · rw [if_neg (fun h => hmem (hzero.mp h)), if_pos hmem]

/-- The names as the server gets them are the bytes of the names that have a place. -/
theorem ofNames_names : (ofNames names).names = (placedNames names).map Utf8.encode := by
  unfold ofNames placedNames
  rw [List.map_take]
  refine congrArg (List.take 255) ?_
  -- cutting comes last in both, so it is enough that the same names pass
  induction names with
  | nil => rfl
  | cons name rest ih =>
      rw [List.filterMap_cons, zeroEnded?_encode]
      by_cases hmem : '\x00' ∈ name.toList
      · rw [if_neg (not_not_intro hmem), List.filter_cons_of_neg (by simpa using hmem)]
        exact ih
      · rw [if_pos hmem, List.filter_cons_of_pos (by simpa using hmem), List.map_cons]
        exact congrArg _ ih

theorem length_placedNames : (placedNames names).length ≤ 255 := List.length_take_le _ _

/-- **The name that is read back at a place** is the one that was handed over there. -/
theorem name?_ofNames (slot : Nat) : (ofNames names).name? slot = (placedNames names)[slot]? := by
  unfold name?
  rw [ofNames_names, List.getElem?_map]
  cases (placedNames names)[slot]? with
  | none => rfl
  | some name => exact Utf8.strict?_encode name

theorem thunks_getElem? {F : Type} (function : Nat → F) {slot : Nat} (h : slot < 255) :
    (thunks function)[slot]? = some (function slot) := by
  unfold thunks
  rw [List.getElem?_map, List.getElem?_range (show slot < capacity from h), Option.map_some]

/-- **The entry at a place** has the name of the place and its function. -/
theorem entries_ofNames {F : Type} (function : Nat → F) (slot : Nat) :
    ((ofNames names).entries function)[slot]? =
      (placedNames names)[slot]?.map fun name => ⟨some (Utf8.encode name), some (function slot)⟩ := by
  unfold entries
  rw [List.getElem?_zipWith, ofNames_names, List.getElem?_map]
  by_cases hslot : slot < (placedNames names).length
  · rw [thunks_getElem? function (Nat.lt_of_lt_of_le hslot length_placedNames),
      List.getElem?_eq_getElem hslot]
    rfl
  · rw [List.getElem?_eq_none (Nat.le_of_not_lt hslot)]
    rfl

theorem size_ofNames : (ofNames names).size = (placedNames names).length := by
  unfold size entries thunks
  rw [List.length_zipWith, ofNames_names, List.length_map, List.length_map, List.length_range]
  exact Nat.min_eq_left length_placedNames

theorem filterMap_getElem?_range {α : Type} (entries : List α) :
    ((List.range entries.length).filterMap fun i => entries[i]?) = entries := by
  induction entries with
  | nil => rfl
  | cons entry rest ih =>
      rw [List.length_cons, List.range_succ_eq_map, List.filterMap_cons, List.filterMap_map]
      exact congrArg _ ih

/-- **Calls are answered by the names of the places**: none of them was left out on the way. -/
theorem boundNames_ofNames : (ofNames names).boundNames = placedNames names := by
  unfold boundNames
  rw [size_ofNames, funext name?_ofNames]
  exact filterMap_getElem?_range _

end NativeTable

/-! ## The natives in use -/

/-- **The natives and what uses them**: a bridge, the table that is bound to it, the world, and the
handlers that ran with what they received, the latest last. -/
structure Desk (F H W : Type) where
  bridge : Bridge F H
  bound : Option NativeTable := none
  world : W
  ran : List (H × List ScriptValue) := []

/-- **What a handler does** on its way to an answer. -/
inductive Errand (H W : Type) where
  | done (answer : Option ScriptValue)
  | change (effect : W → W) (next : Errand H W)
  | look (next : W → Errand H W)
  | provide (name signature : String) (handler : H) (next : Except ProvideError Unit → Errand H W)
  | call (slot : Nat) (parameters : Parameters) (m : Machine) (next : Cell × Machine → Errand H W)
  | letGo (next : Errand H W)

variable {F H W : Type}

namespace Desk

/-- The provided natives. -/
def natives (d : Desk F H W) : ProvidedNatives H := d.bridge.context.provided

/-- A bridge as it starts, with no table. -/
def start (settings : Settings) (callbacks : CallbackTable) (names : List String) (world : W) :
    Desk F H W where
  bridge := .new settings callbacks names
  world := world

/-- Write a line to the log. -/
def tell (log : Log.Event → W → W) (event : Log.Event) (d : Desk F H W) : Desk F H W :=
  { d with world := log event d.world }

/-- The script provides a native. -/
def provide (d : Desk F H W) (name signature : String) (handler : H) :
    Except ProvideError Unit × Desk F H W :=
  let (answer, context) := d.bridge.context.provide name signature handler
  (answer, { d with bridge := { d.bridge with context } })

/-- Let the table go, unless a handler is running: the call that came to it holds the table. -/
def letGo (d : Desk F H W) : Desk F H W :=
  if d.natives.running then d else { d with bound := none }

/-- The desk with other natives. -/
def withNatives (d : Desk F H W) (provided : ProvidedNatives H) : Desk F H W :=
  { d with bridge := { d.bridge with context := { d.bridge.context with provided } } }

/-- **The function of a place**, by which a program calls it. -/
def place (log : Log.Event → W → W) (meaning : H → Handler (Desk F H W)) (slot : Nat)
    (parameters : Parameters) (m : Machine) (d : Desk F H W) : Cell × Machine × Desk F H W :=
  NativeTable.dispatch d.bound (tell log) d.natives meaning slot parameters m d

end Desk

/-- Run an errand. `inner` is what handlers would do that are called on the way. -/
def Errand.run (log : Log.Event → W → W) (inner : H → Handler (Desk F H W)) :
    Errand H W → Desk F H W → Option ScriptValue × Desk F H W
  | .done answer, d => (answer, d)
  | .change effect next, d => run log inner next { d with world := effect d.world }
  | .look next, d => run log inner (next d.world) d
  | .provide name signature handler next, d =>
    let (answer, d) := d.provide name signature handler
    run log inner (next answer) d
  | .call slot parameters m next, d =>
    let (result, m, d) := d.place log inner slot parameters m
    run log inner (next (result, m)) d
  | .letGo next, d => run log inner next d.letGo

namespace Desk

/-- Act while a provided native is running. -/
def whileBusy {α : Type} (d : Desk F H W) (body : Desk F H W → α × Desk F H W) : α × Desk F H W :=
  let (answer, bridge, d) := d.bridge.whileBusy fun bridge =>
    let (answer, d) := body { d with bridge }
    (answer, d.bridge, d)
  (answer, { d with bridge })

/-- **Handlers that carry out their errands**, each of which is noted. -/
def handler (log : Log.Event → W → W) (code : H → List ScriptValue → Errand H W)
    (inner : H → Handler (Desk F H W)) : H → Handler (Desk F H W) :=
  fun handle arguments d => d.whileBusy fun d =>
    (code handle arguments).run log inner { d with ran := d.ran ++ [(handle, arguments)] }

end Desk

/-! ## While a handler runs -/

/-- The line about a call that is turned away, if there is one. -/
def NativeTable.refusal? (bound : Option NativeTable) (slot : Nat) : Option Log.Event :=
  match bound with
  | none => some (unboundWarning slot)
  | some table => table.boundNames[slot]?.map busyWarning

/-- The world with a line in the log, if there is one. -/
def logged (log : Log.Event → W → W) (event : Option Log.Event) (w : W) : W :=
  match event with
  | some event => log event w
  | none => w

/-- **What an errand comes to while the natives are busy**: nothing is provided, every call answers
zero and does nothing, and the table stays. -/
def Errand.busy (log : Log.Event → W → W) (bound : Option NativeTable) :
    Errand H W → W → Option ScriptValue × W
  | .done answer, w => (answer, w)
  | .change effect next, w => busy log bound next (effect w)
  | .look next, w => busy log bound (next w) w
  | .provide _ _ _ next, w => busy log bound (next (.error .busy)) w
  | .call slot _ m next, w =>
    busy log bound (next (0, m)) (logged log (NativeTable.refusal? bound slot) w)
  | .letGo next, w => busy log bound next w

section

variable {log : Log.Event → W → W} {d : Desk F H W}

theorem Desk.provide_of_ok {name signature : String} {handler : H} {after : ProvidedNatives H}
    (h : d.natives.register name signature handler = .ok after) :
    d.provide name signature handler = (.ok (), d.withNatives after) := by
  unfold Desk.provide Context.provide
  rw [show d.bridge.context.provided.register name signature handler = _ from h]
  rfl

theorem Desk.provide_of_error {name signature : String} {handler : H} {e : ProvideError}
    (h : d.natives.register name signature handler = .error e) :
    d.provide name signature handler = (.error e, d) := by
  unfold Desk.provide Context.provide
  rw [show d.bridge.context.provided.register name signature handler = _ from h]

/-- **Nothing is provided while a handler runs.** -/
theorem Desk.provide_running (h : d.natives.running = true) (name signature : String) (handler : H) :
    d.provide name signature handler = (.error .busy, d) := by
  refine Desk.provide_of_error ?_
  unfold ProvidedNatives.register
  exact if_pos h

/-- **No handler runs while another one does**, whatever place is called. -/
theorem Desk.place_running (h : d.natives.running = true) (meaning : H → Handler (Desk F H W))
    (slot : Nat) (parameters : Parameters) (m : Machine) :
    d.place log meaning slot parameters m =
      (0, m, { d with world := logged log (NativeTable.refusal? d.bound slot) d.world }) := by
  obtain ⟨bridge, bound, world, ran⟩ := d
  unfold Desk.place NativeTable.dispatch NativeTable.refusal?
  cases bound with
  | none => rfl
  | some table =>
      dsimp only
      cases table.boundNames[slot]? with
      | none => rfl
      | some name =>
          dsimp only
          rw [if_pos h]
          rfl

/-- **The table stays while a handler runs.** -/
theorem Desk.letGo_running (h : d.natives.running = true) : d.letGo = d := if_pos h

/-- An errand while a handler runs changes nothing but the world. -/
theorem Errand.run_running (errand : Errand H W) (inner : H → Handler (Desk F H W))
    (d : Desk F H W) (h : d.natives.running = true) :
    errand.run log inner d =
      ((errand.busy log d.bound d.world).1, { d with world := (errand.busy log d.bound d.world).2 }) := by
  -- every case goes on with a desk that differs in its world alone, so it is still busy
  induction errand generalizing d with
  | done answer => rfl
  | change effect next ih => exact ih { d with world := effect d.world } h
  | look next ih => exact ih d.world d h
  | provide name signature handler next ih =>
      unfold Errand.run
      rw [Desk.provide_running h]
      exact ih (.error .busy) d h
  | call slot parameters m next ih =>
      unfold Errand.run
      rw [Desk.place_running h]
      exact ih (0, m) { d with world := logged log (NativeTable.refusal? d.bound slot) d.world } h
  | letGo next ih =>
      unfold Errand.run
      rw [Desk.letGo_running h]
      exact ih d h

/-- **A handler runs alone**: it is noted, changes the world, and leaves the natives as they were. -/
theorem Desk.handler_eq (code : H → List ScriptValue → Errand H W)
    (inner : H → Handler (Desk F H W)) (handle : H) (arguments : List ScriptValue)
    (d : Desk F H W) :
    Desk.handler log code inner handle arguments d =
      let (answer, world) := (code handle arguments).busy log d.bound d.world
      (answer, { d with world, ran := d.ran ++ [(handle, arguments)] }) := by
  unfold Desk.handler Desk.whileBusy Bridge.whileBusy
  dsimp only
  -- the errand runs on a busy desk, and behind it the flag is put back as it was
  rw [Errand.run_running _ inner _ rfl]

/-! ## Calls of places -/

/-- **A call that runs a handler**, this one and no other, once, with the parameters as they stand. The
answer of its errand is the answer of the call, and nothing else changes but the world. -/
def Desk.Runs (log : Log.Event → W → W) (code : H → List ScriptValue → Errand H W)
    (native : ProvidedNative H) (parameters : Parameters) (m : Machine) (d : Desk F H W)
    (outcome : Cell × Machine × Desk F H W) : Prop :=
  ∃ arguments, List.Forall₂ ((parameters.block m).Passes m) native.signature.plain arguments ∧
    let (answer, world) := (code native.handler arguments).busy log d.bound d.world
    let (result, m) := ProvidedNatives.finish parameters native.signature m answer
    outcome = (result, m, { d with world, ran := d.ran ++ [(native.handler, arguments)] })

namespace Desk

variable {code : H → List ScriptValue → Errand H W} {inner : H → Handler (Desk F H W)}
  {parameters : Parameters} {m : Machine}

/-- **A bound place is the native of its name.** -/
theorem place_bound {listed : List String} (hbound : d.bound = some (.ofNames listed))
    (hidle : d.natives.running = false) {slot : Nat} {name : String}
    (hname : (placedNames listed)[slot]? = some name) (meaning : H → Handler (Desk F H W)) :
    d.place log meaning slot parameters m = d.natives.call meaning name parameters m d := by
  unfold place NativeTable.dispatch
  rw [hbound]
  dsimp only
  rw [NativeTable.boundNames_ofNames, hname]
  dsimp only
  rw [hidle, if_neg Bool.false_ne_true]

/-- **A place without a table answers zero**, and a line in the log is all that the call does. -/
theorem place_unbound (hbound : d.bound = none) (meaning : H → Handler (Desk F H W)) {slot : Nat} :
    d.place log meaning slot parameters m = (0, m, d.tell log (NativeTable.unboundWarning slot)) := by
  unfold place NativeTable.dispatch
  rw [hbound]

/-- A call of a name runs its handler if it is in order. -/
theorem runs_of_ready (hreachable : d.natives.Reachable) {name : String} {native : ProvidedNative H}
    (h : d.natives.Ready name (parameters.block m) m native) :
    Runs log code native parameters m d
      (d.natives.call (handler log code inner) name parameters m d) := by
  obtain ⟨arguments, hpasses, hcall⟩ := h.call hreachable
  refine ⟨arguments, hpasses, ?_⟩
  rw [hcall, handler_eq]

/-- A call of a name leaves the natives and the table alone. -/
theorem call_keeps (hreachable : d.natives.Reachable) (name : String) :
    ∃ world ran, (d.natives.call (handler log code inner) name parameters m d).2.2 =
      { d with world, ran } := by
  by_cases hready : ∃ native, d.natives.Ready name (parameters.block m) m native
  · obtain ⟨native, hready⟩ := hready
    obtain ⟨arguments, _, hcall⟩ : Runs log code native parameters m d
        (d.natives.call (handler log code inner) name parameters m d) :=
      runs_of_ready hreachable hready
    rw [hcall]
    exact ⟨_, _, rfl⟩
  · rw [ProvidedNatives.call_not_ready hreachable hready]
    exact ⟨d.world, d.ran, rfl⟩

/-- A call of a place leaves the natives and the table alone. -/
theorem place_keeps (hreachable : d.natives.Reachable) (slot : Nat) :
    ∃ world ran,
      (d.place log (handler log code inner) slot parameters m).2.2 = { d with world, ran } := by
  obtain ⟨bridge, bound, world, ran⟩ := d
  cases bound with
  | none => exact ⟨log (NativeTable.unboundWarning slot) world, ran, rfl⟩
  | some table =>
      unfold place NativeTable.dispatch
      dsimp only
      cases table.boundNames[slot]? with
      | none => exact ⟨world, ran, rfl⟩
      | some name =>
          dsimp only
          split
          · exact ⟨log (NativeTable.busyWarning name) world, ran, rfl⟩
          · exact call_keeps hreachable name

end Desk

end

/-! ## Steps -/

namespace Desk

/-- **A step**: the script provides a native, the table of some names is bound, it is let go, or a
program calls a place. -/
inductive Step (H : Type) where
  | provide (name signature : String) (handler : H)
  | bind (listed : List String)
  | unbind
  | call (slot : Nat) (parameters : Parameters) (m : Machine)

/-- **Take a step.** -/
def act (log : Log.Event → W → W) (meaning : H → Handler (Desk F H W)) (d : Desk F H W) :
    Step H → Desk F H W
  | .provide name signature handler => (d.provide name signature handler).2
  | .bind listed => { d with bound := some (.ofNames listed) }
  | .unbind => d.letGo
  | .call slot parameters m => (d.place log meaning slot parameters m).2.2

/-- **Take steps**, one after the other. -/
def run (log : Log.Event → W → W) (meaning : H → Handler (Desk F H W)) (d : Desk F H W)
    (steps : List (Step H)) : Desk F H W :=
  steps.foldl (act log meaning) d

/-- The table that is bound after a step. -/
def Step.bound (before : Option NativeTable) : Step H → Option NativeTable
  | .bind listed => some (.ofNames listed)
  | .unbind => none
  | _ => before

/-- **The table that is bound after some steps**: that of the last binding, unless it was let go. -/
def boundAfter (steps : List (Step H)) : Option NativeTable := steps.foldl Step.bound none

/-- The native that a step provides: its name has to be listed and its signature to be readable. -/
def Step.registration? (names : List String) : Step H → Option (String × ProvidedNative H)
  | .provide name signature handler =>
    if name ∈ names then
      match Signature.parseProvided signature with
      | .ok signature => some (name, ⟨signature, handler⟩)
      | .error _ => none
    else none
  | _ => none

/-- **The native that was provided last** under a name. -/
def lastRegistered (names : List String) (steps : List (Step H)) (name : String) :
    Option (ProvidedNative H) :=
  (steps.filterMap (Step.registration? names)).reverse.lookup name

theorem lastRegistered_snoc_none {names : List String} {step : Step H}
    (h : step.registration? names = none) (steps : List (Step H)) (name : String) :
    lastRegistered names (steps ++ [step]) name = lastRegistered names steps name := by
  unfold lastRegistered
  rw [List.filterMap_append, List.filterMap_cons_none h, List.filterMap_nil, List.append_nil]

theorem lastRegistered_snoc_some {names : List String} {step : Step H} {other : String}
    {native : ProvidedNative H} (h : step.registration? names = some (other, native))
    (steps : List (Step H)) (name : String) :
    lastRegistered names (steps ++ [step]) name =
      if name = other then some native else lastRegistered names steps name := by
  unfold lastRegistered
  rw [List.filterMap_append, List.filterMap_cons_some h, List.filterMap_nil, List.reverse_append,
    List.reverse_singleton, List.singleton_append, List.lookup_cons]
  by_cases hname : name = other
  · rw [if_pos hname, beq_iff_eq.mpr hname]
  · rw [if_neg hname, beq_eq_false_iff_ne.mpr hname]

theorem Step.registration?_eq_some_iff {names : List String} {name other signature : String}
    {handler : H} {native : ProvidedNative H} :
    (Step.provide name signature handler).registration? names = some (other, native) ↔
      name ∈ names ∧ other = name
        ∧ Signature.parseProvided signature = .ok native.signature ∧ native.handler = handler := by
  obtain ⟨read, code⟩ := native
  unfold Step.registration?
  dsimp only
  by_cases hmem : name ∈ names
  · rw [if_pos hmem]
    cases Signature.parseProvided signature with
    | ok found => simp [hmem, eq_comm]
    | error e => simp
  · rw [if_neg hmem]
    simp [hmem]

theorem Step.name_of_registration? {names : List String} {step : Step H} {name : String}
    {native : ProvidedNative H} (h : step.registration? names = some (name, native)) :
    name ∈ names := by
  cases step with
  | provide other signature handler =>
      obtain ⟨hmem, rfl, _⟩ := Step.registration?_eq_some_iff.mp h
      exact hmem
  | bind listed => exact absurd h (by simp [Step.registration?])
  | unbind => exact absurd h (by simp [Step.registration?])
  | call slot parameters m => exact absurd h (by simp [Step.registration?])

/-- **Only listed names are provided.** -/
theorem mem_of_lastRegistered {names : List String} {steps : List (Step H)} {name : String}
    {native : ProvidedNative H} (h : lastRegistered names steps name = some native) :
    name ∈ names := by
  obtain ⟨before, after, hsplit, _⟩ := List.lookup_eq_some_iff.mp h
  have hmem : (name, native) ∈ steps.filterMap (Step.registration? names) := by
    rw [← List.mem_reverse, hsplit]
    exact List.mem_append_right _ List.mem_cons_self
  obtain ⟨step, _, hstep⟩ := List.mem_filterMap.mp hmem
  exact Step.name_of_registration? hstep

section

variable {log : Log.Event → W → W} {code : H → List ScriptValue → Errand H W}
  {inner : H → Handler (Desk F H W)} {d : Desk F H W}

/-- **What a registration does** while no handler runs: it stores the native, or fails and does
nothing. -/
theorem provide_cases (hidle : d.natives.running = false) (name signature : String) (handler : H) :
    (∃ native after, (Step.provide name signature handler).registration? d.natives.known =
          some (name, native)
        ∧ d.natives.register name signature handler = .ok after
        ∧ after = { d.natives with natives := ProvidedNatives.store name native d.natives.natives }
        ∧ d.provide name signature handler = (.ok (), d.withNatives after))
      ∨ (Step.provide name signature handler).registration? d.natives.known = none
        ∧ ∃ e, d.provide name signature handler = (.error e, d) := by
  have hfree : ¬ d.natives.running = true := by
    rw [hidle]
    exact Bool.false_ne_true
  have hknown : (!d.natives.isKnown name) = true ↔ name ∉ d.natives.known := by
    unfold ProvidedNatives.isKnown
    simp
  unfold Step.registration?
  dsimp only
  by_cases hmem : name ∈ d.natives.known
  · rw [if_pos hmem]
    cases hsignature : Signature.parseProvided signature with
    | ok found =>
        have hregister : d.natives.register name signature handler =
            .ok { d.natives with
              natives := ProvidedNatives.store name ⟨found, handler⟩ d.natives.natives } := by
          unfold ProvidedNatives.register
          rw [if_neg hfree, if_neg (fun h => hknown.mp h hmem), hsignature]
        exact .inl ⟨⟨found, handler⟩, _, rfl, hregister, rfl, provide_of_ok hregister⟩
    | error e =>
        refine .inr ⟨rfl, .signature e, provide_of_error ?_⟩
        unfold ProvidedNatives.register
        rw [if_neg hfree, if_neg (fun h => hknown.mp h hmem), hsignature]
  · rw [if_neg hmem]
    refine .inr ⟨rfl, .unknownNative name, provide_of_error ?_⟩
    unfold ProvidedNatives.register
    rw [if_neg hfree, if_pos (hknown.mpr hmem)]

/-- **A registration succeeds** exactly for a name that is listed, with a signature that can be read. -/
theorem provide_ok_iff (hidle : d.natives.running = false) {name signature : String} {handler : H} :
    (d.provide name signature handler).1 = .ok () ↔
      name ∈ d.natives.known ∧ ∃ slots, Signature.parseProvided signature = .ok slots := by
  obtain ⟨native, after, hregistration, _, _, hprovide⟩ | ⟨hregistration, e, hprovide⟩ :=
    provide_cases hidle name signature handler
  · obtain ⟨hmem, _, hsignature, _⟩ := Step.registration?_eq_some_iff.mp hregistration
    rw [hprovide]
    exact ⟨fun _ => ⟨hmem, _, hsignature⟩, fun _ => rfl⟩
  · rw [hprovide]
    refine ⟨fun h => absurd h (by simp), ?_⟩
    rintro ⟨hmem, slots, hsignature⟩
    have hsome : (Step.provide name signature handler).registration? d.natives.known =
        some (name, ⟨slots, handler⟩) :=
      Step.registration?_eq_some_iff.mpr ⟨hmem, rfl, hsignature, rfl⟩
    rw [hregistration] at hsome
    exact absurd hsome (by simp)

/-- **A registration that fails changes nothing.** -/
theorem provide_failed (hidle : d.natives.running = false) {name signature : String} {handler : H}
    (h : (d.provide name signature handler).1 ≠ .ok ()) :
    (d.provide name signature handler).2 = d := by
  obtain ⟨native, after, _, _, _, hprovide⟩ | ⟨_, e, hprovide⟩ :=
    provide_cases hidle name signature handler
  · rw [hprovide] at h
    exact absurd rfl h
  · rw [hprovide]

/-! ## What stays true -/

/-- **The natives after some steps**, of a desk that started with the given names. -/
structure Kept (names : List String) (steps : List (Step H)) (d : Desk F H W) : Prop where
  known : d.natives.known = names
  idle : d.natives.running = false
  reachable : d.natives.Reachable
  bound : d.bound = boundAfter steps
  found : ∀ name, d.natives.find? name = lastRegistered names steps name

variable {names : List String} {steps : List (Step H)}

theorem kept_start (settings : Settings) (callbacks : CallbackTable) (names : List String)
    (world : W) : Kept names [] (start (F := F) (H := H) settings callbacks names world) where
  known := rfl
  idle := rfl
  reachable := .new names
  bound := rfl
  found := fun _ => rfl

theorem boundAfter_snoc (steps : List (Step H)) (step : Step H) :
    boundAfter (steps ++ [step]) = step.bound (boundAfter steps) := by
  unfold boundAfter
  rw [List.foldl_append]
  rfl

/-- A step that registers nothing and leaves the natives alone. -/
theorem Kept.of_natives_eq (h : Kept names steps d) {step : Step H} {d' : Desk F H W}
    (hregistration : step.registration? names = none) (hnatives : d'.natives = d.natives)
    (hbound : d'.bound = step.bound d.bound) : Kept names (steps ++ [step]) d' where
  known := hnatives ▸ h.known
  idle := hnatives ▸ h.idle
  reachable := hnatives ▸ h.reachable
  bound := by rw [hbound, h.bound, boundAfter_snoc]
  found := by
    intro name
    rw [hnatives, h.found, lastRegistered_snoc_none hregistration]

/-- **A step keeps the natives as they should be.** -/
theorem Kept.act (h : Kept names steps d) (step : Step H) :
    Kept names (steps ++ [step]) (d.act log (handler log code inner) step) := by
  cases step with
  | provide name signature handle =>
      obtain ⟨native, after, hregistration, hregister, hafter, hprovide⟩ | ⟨hregistration, e, hprovide⟩ :=
        provide_cases h.idle name signature handle
      · rw [h.known] at hregistration
        have hact : d.act log (handler log code inner) (.provide name signature handle) =
            d.withNatives after := congrArg Prod.snd hprovide
        rw [hact]
        refine ⟨?_, ?_, h.reachable.register hregister, ?_, fun other => ?_⟩
        · show after.known = names
          rw [hafter]
          exact h.known
        · show after.running = false
          rw [hafter]
          exact h.idle
        · rw [boundAfter_snoc]
          exact h.bound
        · show after.natives.lookup other = _
          rw [hafter, ProvidedNatives.lookup_store, lastRegistered_snoc_some hregistration,
            ← h.found other]
          rfl
      · rw [h.known] at hregistration
        have hact : d.act log (handler log code inner) (.provide name signature handle) = d :=
          congrArg Prod.snd hprovide
        rw [hact]
        exact h.of_natives_eq hregistration rfl rfl
  | bind listed => exact h.of_natives_eq rfl rfl rfl
  | unbind =>
      have hact : d.act log (handler log code inner) .unbind = { d with bound := none } :=
        if_neg (by rw [h.idle]; decide)
      rw [hact]
      exact h.of_natives_eq rfl rfl rfl
  | call slot parameters m =>
      obtain ⟨world, ran, hact⟩ : ∃ world ran,
          d.act log (handler log code inner) (.call slot parameters m) = { d with world, ran } :=
        place_keeps h.reachable slot
      rw [hact]
      exact h.of_natives_eq rfl rfl rfl

/-- **Steps keep the natives as they should be.** -/
theorem Kept.run (h : Kept names steps d) (later : List (Step H)) :
    Kept names (steps ++ later) (d.run log (handler log code inner) later) := by
  induction later generalizing steps d with
  | nil =>
      rw [List.append_nil]
      exact h
  | cons step later ih =>
      rw [List.append_cons]
      exact ih (h.act step)

end

end Desk

/--
**Place, name and handler stay together.** A bridge starts with some names. The script provides
natives, tables are bound and let go, and programs call places, in any order. `code` says what handlers
do, which may be to provide natives, to call places themselves and to let the table go, and `inner` what
handlers would do that are called from within another one. Binding a table is no matter of handlers.

The entry of a table at a place has the name that stands there among the names without a zero, of which
the first 255 are kept, and the function of the place; all names that were read from a text are kept.

While the table of these names is bound, calling the function at a place is calling the native of the
name. The native is the one that was provided last under the name, and its handler runs, once and
alone, if the call is in order; otherwise the call answers zero and nothing changes. This is so for the
table of any names.

A registration succeeds exactly if the name is listed and the signature can be read, and changes nothing
otherwise; so only listed names are ever provided. While no table is bound, a call answers zero, and a
line in the log is all it does. The same holds while a handler runs, and no native is provided then and
no table let go.
-/
theorem native_places_stay_aligned {F H W : Type} (log : Log.Event → W → W)
    (code : H → List ScriptValue → Errand H W) (inner : H → Handler (Desk F H W))
    (settings : Settings) (callbacks : CallbackTable) (names : List String) (world : W)
    (steps : List (Desk.Step H)) :
    let meaning := Desk.handler log code inner
    let d := (Desk.start settings callbacks names world).run log meaning steps
    (∀ (listed : List String) (slot : Nat),
        ((NativeTable.ofNames listed).entries (Desk.place log meaning))[slot]? =
          (placedNames listed)[slot]?.map fun name =>
            NativeEntry.mk (some (Utf8.encode name)) (some (Desk.place log meaning slot)))
      ∧ (∀ text listed, NativeNames.parse text = .ok listed → placedNames listed = listed)
      ∧ (∀ listed slot name, Desk.boundAfter steps = some (.ofNames listed) →
          (placedNames listed)[slot]? = some name → ∀ parameters m,
            let outcome := Desk.place log meaning slot parameters m d
            outcome = d.natives.call meaning name parameters m d
              ∧ (∀ native, d.natives.Ready name (parameters.block m) m native →
                  d.Runs log code native parameters m outcome)
              ∧ ((¬ ∃ native, d.natives.Ready name (parameters.block m) m native) →
                outcome = (0, m, d)))
      ∧ (∀ name, d.natives.find? name = Desk.lastRegistered names steps name)
      ∧ (∀ name signature handler,
          ((d.provide name signature handler).1 = .ok () ↔
              name ∈ names ∧ ∃ slots, Signature.parseProvided signature = .ok slots)
            ∧ ((d.provide name signature handler).1 ≠ .ok () →
              (d.provide name signature handler).2 = d))
      ∧ (∀ name, d.natives.isProvided name = true → name ∈ names)
      ∧ (Desk.boundAfter steps = none → ∀ slot parameters m,
          Desk.place log meaning slot parameters m d =
            (0, m, { d with world := log (NativeTable.unboundWarning slot) d.world }))
      ∧ ∀ busy : Desk F H W, busy.natives.running = true →
          (∀ name signature handler, busy.provide name signature handler = (.error .busy, busy))
            ∧ busy.letGo = busy
            ∧ ∀ slot parameters m, Desk.place log meaning slot parameters m busy =
                (0, m, { busy with
                  world := logged log (NativeTable.refusal? busy.bound slot) busy.world }) := by
  intro meaning d
  have hkept : Desk.Kept names steps d :=
    (Desk.kept_start settings callbacks names world).run steps
  refine ⟨fun listed slot => NativeTable.entries_ofNames _ slot, fun text listed => placedNames_parse,
    ?bound, hkept.found, ?provide, ?listed, ?unbound, ?busy⟩
  case bound =>
    intro listed slot name hbound hname parameters m
    have hcall : Desk.place log meaning slot parameters m d =
        d.natives.call meaning name parameters m d :=
      Desk.place_bound (hkept.bound.trans hbound) hkept.idle hname meaning
    refine ⟨hcall, fun native hready => ?_, fun hnone => ?_⟩
    · rw [hcall]
      exact Desk.runs_of_ready hkept.reachable hready
    · rw [hcall]
      exact ProvidedNatives.call_not_ready hkept.reachable hnone meaning d
  case provide =>
    intro name signature handle
    rw [← hkept.known]
    exact ⟨Desk.provide_ok_iff hkept.idle, Desk.provide_failed hkept.idle⟩
  case listed =>
    intro name hprovided
    obtain ⟨native, hnative⟩ := Option.isSome_iff_exists.mp hprovided
    rw [hkept.found] at hnative
    exact Desk.mem_of_lastRegistered hnative
  case unbound =>
    intro hnone slot parameters m
    exact Desk.place_unbound (hkept.bound.trans hnone) meaning
  case busy =>
    intro busy hrunning
    exact ⟨Desk.provide_running hrunning, Desk.letGo_running hrunning,
      Desk.place_running hrunning meaning⟩

section

/-- A handler that tries to let the table go, to provide the native again and to call it, and answers
what it got. -/
def Errand.again (_ : Unit) (_ : List ScriptValue) : Errand Unit (List Log.Event) :=
  .letGo <| .provide "Ask" "" () fun _ =>
    .call 0 (.apart (.ofList [1])) .greeting fun answer => .done (some (.ofCell answer.1))

/-- The first name holds a zero, so that the second one stands at the first place. Its handler runs once,
though it calls the place itself. -/
theorem native_places_stay_aligned_again :
    let names := ["Ta\x00ke", "Ask"]
    let steps : List (Desk.Step Unit) := [.provide "Ask" "i" (), .bind names]
    let log : Log.Event → List Log.Event → List Log.Event := fun event lines => lines ++ [event]
    let meaning := Desk.handler (F := Unit) log Errand.again fun _ _ d => (none, d)
    let d := (Desk.start {} {} names []).run log meaning steps
    let native : ProvidedNative Unit := ⟨⟨[.int]⟩, ()⟩
    let parameters := Parameters.apart (.ofList [7])
    let outcome := Desk.place log meaning 0 parameters .greeting d
    (placedNames names)[0]? = some "Ask"
      ∧ d.natives.Ready "Ask" (.ofList [7]) .greeting native
      ∧ d.Runs log Errand.again native parameters .greeting outcome
      ∧ outcome.2.2.ran.length = 1 ∧ outcome.2.2.world = [NativeTable.busyWarning "Ask"] := by
  intro names steps log meaning d native parameters outcome
  have hname : (placedNames names)[0]? = some "Ask" := by decide
  have hready : d.natives.Ready "Ask" (.ofList [7]) .greeting native := by
    refine ⟨rfl, fun slot hslot => ?_⟩
    obtain rfl : slot = (.int, 0) := List.mem_singleton.mp hslot
    exact ⟨by decide, fun h => absurd h (by decide)⟩
  obtain ⟨_, _, hbound, _⟩ := native_places_stay_aligned log Errand.again (F := Unit)
    (fun _ _ d => (none, d)) {} {} names [] steps
  obtain ⟨_, hruns, _⟩ := hbound names 0 "Ask" rfl hname parameters .greeting
  obtain ⟨arguments, hpasses, houtcome⟩ := hruns native hready
  refine ⟨hname, hready, ⟨arguments, hpasses, houtcome⟩, ?_⟩
  have hrefusal : NativeTable.refusal? (some (.ofNames names)) 0 =
      some (NativeTable.busyWarning "Ask") := by
    unfold NativeTable.refusal?
    dsimp only
    rw [NativeTable.boundNames_ofNames, hname]
    rfl
  rw [show outcome = _ from houtcome]
  refine ⟨rfl, ?_⟩
  show logged log (NativeTable.refusal? (some (.ofNames names)) 0) [] = _
  rw [hrefusal]
  rfl

end

end ScriptBridge
