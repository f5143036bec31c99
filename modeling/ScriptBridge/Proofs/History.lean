import ScriptBridge.Proofs.Answers
import ScriptBridge.Proofs.Likeness

/-!
# No call can see an earlier one

The staging area and scratch memory serve one call after another and are never cleared. A call
that was refused halfway leaves values in slots, and a native leaves its cells above the top of
the heap. None of it is ever seen again: whatever calls came before, a call gives the script the
same answer, and the native the same block and the same memory, as if it were the first.

**What carries from call to call.** Between calls the heap is empty, the natives and the table of
lengths are what they were, and the areas have their sizes. Nothing else is kept up: slots and the
cells above the top hold whatever they hold.

**Why it is not seen.** The arguments of a call are a matter of its signature and values, up to the
bytes behind the first in the buffers, and those are not handed over. So the arguments go into
alike memory alike, the native runs on memory that looks alike, and the answer is read off what it
left.
-/

namespace ScriptBridge

open Scratch

/-! ## Calls in a row -/

/-- The block of a run, and the memory below the top of the heap on entry. -/
def NativeRun.seen (run : NativeRun) : List Cell × List Cell :=
  (run.block, run.entry.cellsFrom 0 (run.entry.heapTop.toInt.toNat / Machine.cellSize))

/-- **What can be seen of a call**: what the script gets, and what each run of a native was given. -/
structure Observation where
  result : Except InvokeError ScriptValue
  runs : List (List Cell × List Cell)

namespace Invoker

variable {F : Type}

/-- Call a native for a script and watch. -/
def observe (meaning : F → Native Unit) (invoker : Invoker) (registry : Registry F)
    (arguments : List ScriptValue) : Observation × Invoker × Registry F :=
  let (result, invoker, (registry, (_, runs))) := invoker.invoke
    (Registry.dispatcher fun handle => (meaning handle).noted) (registry, ((), [])) arguments
  (⟨result, runs.map (·.seen)⟩, invoker, registry)

/-- **Calls one after the other**, on one staging area and one registry. -/
def session (meaning : F → Native Unit) : Invoker → Registry F → List (List ScriptValue) →
    List Observation
  | _, _, [] => []
  | invoker, registry, arguments :: calls =>
    let (observation, invoker, registry) := observe meaning invoker registry arguments
    observation :: session meaning invoker registry calls

end Invoker

/-! ## The arguments of a call -/

theorem number_injective : Function.Injective ScriptValue.number := fun _ _ h =>
  ScriptValue.number.inj h

theorem Becomes.unique {type : SlotType} {value : ScriptValue} {a b : NativeArgument}
    (ha : Becomes type value a) (hb : Becomes type value b) : a = b := by
  cases ha with
  | int x => cases hb; rfl
  | float x => cases hb; rfl
  | text _ => cases hb; rfl
  | @array numbers _ =>
      generalize hv : ScriptValue.array (numbers.map .number) = value at hb
      cases hb with
      | @array numbers' _ =>
          have hmap := ScriptValue.array.inj hv
          rw [List.map_injective_iff.mpr number_injective hmap]

/-- **A signature and values stand for one list of arguments**, up to the bytes of buffers. -/
theorem Physical.interchangeable {types : List SlotType} {values : List ScriptValue}
    {as bs : List NativeArgument} (ha : Physical types values as) (hb : Physical types values bs) :
    List.Forall₂ Interchangeable as bs := by
  induction ha generalizing bs with
  | nil => cases hb; exact .nil
  | @value type types value values a as hv _ ih =>
      cases hb with
      | value hv' hrest =>
          rw [hv.unique hv']
          exact .cons (.refl _) (ih hrest)
      | intRef hrest => exact absurd hv.plain (by decide)
      | floatRef hrest => exact absurd hv.plain (by decide)
      | textRef hlen hrest => exact absurd hv.plain (by decide)
  | intRef _ ih =>
      cases hb with
      | value hv _ => exact absurd hv.plain (by decide)
      | intRef hrest => exact .cons (.refl _) (ih hrest)
  | floatRef _ ih =>
      cases hb with
      | value hv _ => exact absurd hv.plain (by decide)
      | floatRef hrest => exact .cons (.refl _) (ih hrest)
  | textRef hlen _ ih =>
      cases hb with
      | value hv _ => exact absurd hv.plain (by decide)
      | textRef hlen' hrest =>
          -- behind the first byte the two buffers may hold anything, but as much of it
          refine .cons (.buffer ?_) (.cons (.refl _) (ih hrest))
          rw [List.length_cons, List.length_cons]
          omega

/-! ## Runs on memory that is alike -/

theorem block_of_parameters {ps qs : List PlacedArgument}
    (h : qs.map (·.parameter) = ps.map (·.parameter)) : Registry.block qs = Registry.block ps := by
  have hlen := congrArg List.length h
  rw [List.length_map, List.length_map] at hlen
  unfold Registry.block
  rw [h, hlen]

namespace Scratch

variable {s t : Scratch} {native : Native Unit}

/-- A native is shown the same memory. -/
theorem Alike.run_seen (h : s.Alike t) (block : List Cell) :
    (native.run t.machine block ()).seen = (native.run s.machine block ()).seen := by
  refine Prod.ext rfl ?_
  show t.machine.cellsFrom 0 t.used = s.machine.cellsFrom 0 s.used
  rw [h.used]
  exact h.cellsFrom (by omega)

theorem Alike.run_answer (h : s.Alike t) (hn : native.Confined) (block : List Cell)
    (signature : Signature) : (native.run t.machine block ()).answer signature =
      (native.run s.machine block ()).answer signature := by
  have hresult : (native.run t.machine block ()).result = (native.run s.machine block ()).result :=
    hn.result block h.looksLike
  have hleft : ∀ (type : SlotType) (place : Nat), (native.run t.machine block ()).left type place =
      (native.run s.machine block ()).left type place := fun type place => by
    unfold NativeRun.left NativeRun.found
    rw [show (native.run t.machine block ()).exit.cells? _ = _ from (h.exit hn block).cells? _]
    rfl
  unfold NativeRun.answer
  simp only [hresult, hleft]

end Scratch

/-! ## One call, watched -/

namespace Invoker

variable {F : Type}

/-- A call that is not in order shows its error and nothing else. -/
theorem observe_refused (meaning : F → Native Unit) {knows : String → Bool}
    {arguments : List ScriptValue}
    (ha : ¬ ∃ name signature values, Accepted knows arguments name signature values) :
    ∃ e : InvokeError, ∀ (invoker : Invoker) (registry : Registry F), invoker.staging.Sound →
      registry.knows = knows → ∃ invoker' : Invoker, invoker'.staging.Sound
        ∧ observe meaning invoker registry arguments = (⟨.error e, []⟩, invoker', registry) := by
  obtain ⟨e, _, hcall⟩ := invoke_refused ha
  refine ⟨e, fun invoker registry hs hknows => ?_⟩
  obtain ⟨invoker', hs', hinvoke⟩ := hcall
    (Registry.dispatcher fun handle => (meaning handle).noted) (registry, ((), [])) hknows invoker hs
  refine ⟨invoker', hs', ?_⟩
  unfold observe
  rw [hinvoke]
  rfl

/-- A call whose arguments cannot be placed shows why. -/
theorem observe_unplaced (meaning : F → Native Unit) {invoker : Invoker}
    (hs : invoker.staging.Sound) (registry : Registry F) {arguments : List ScriptValue}
    {name : String} {signature : Signature} {values : List ScriptValue} {handle : F}
    (ha : Accepted registry.knows arguments name signature values)
    (hname : registry.find? name = some handle) {e : CallError} {s : Scratch}
    (hp : Registry.place (registry.arrayLengths.offset name)
      (invoker.argumentsFor signature values) 0 0 (invoker.argumentsFor signature values)
      registry.scratch = (.error e, s)) :
    ∃ invoker' : Invoker, invoker'.staging.Sound
      ∧ observe meaning invoker registry arguments = (⟨.error (.call e), []⟩, invoker',
        { registry with scratch := s.closeScope registry.scratch }) := by
  obtain ⟨invoker', hs', hinvoke⟩ := invoke_unplaced hs
    (fun handle => (meaning handle).noted) ((), []) ha hname hp
  refine ⟨invoker', hs', ?_⟩
  unfold observe
  rw [hinvoke]
  rfl

/-- A call that is made shows one run. -/
theorem observe_reached {meaning : F → Native Unit} {invoker : Invoker}
    (hs : invoker.staging.Sound) (registry : Registry F) {arguments : List ScriptValue}
    {name : String} {signature : Signature} {values : List ScriptValue} {handle : F}
    (hscratch : Sound registry.scratch)
    (ha : Accepted registry.knows arguments name signature values)
    (hname : registry.find? name = some handle) (hn : (meaning handle).Confined)
    {placed : List PlacedArgument} {s : Scratch}
    (hp : Registry.place (registry.arrayLengths.offset name)
      (invoker.argumentsFor signature values) 0 0 (invoker.argumentsFor signature values)
      registry.scratch = (.ok placed, s)) :
    let run := (meaning handle).run s.machine (Registry.block placed) ()
    ∃ invoker' : Invoker, invoker'.staging.Sound
      ∧ observe meaning invoker registry arguments = (⟨.ok (run.answer signature), [run.seen]⟩,
        invoker', { registry with scratch := (Scratch.mk run.exit).closeScope registry.scratch }) := by
  intro run
  obtain ⟨invoker', hs', hinvoke⟩ := invoke_reached hs () [] hscratch ha hname hn.keepsCursors hp
  refine ⟨invoker', hs', ?_⟩
  unfold observe
  rw [hinvoke]
  rfl

/--
**A call shows the same in states that are alike.** The staging areas may hold anything.
-/
theorem observe_alike {meaning : F → Native Unit} (hnatives : ∀ handle, (meaning handle).Confined)
    {invoker invoker' : Invoker} (hs : invoker.staging.Sound) (hs' : invoker'.staging.Sound)
    {registry : Registry F} {scratch : Scratch} (halike : registry.scratch.Alike scratch)
    (arguments : List ScriptValue) :
    (observe meaning invoker' { registry with scratch } arguments).1 =
      (observe meaning invoker registry arguments).1 := by
  by_cases ha : ∃ name signature values, Accepted registry.knows arguments name signature values
  swap
  · -- a refusal is a matter of the arguments and of the names that are known
    obtain ⟨e, hcall⟩ := observe_refused meaning ha
    obtain ⟨_, _, h⟩ := hcall invoker registry hs rfl
    obtain ⟨_, _, h'⟩ := hcall invoker' { registry with scratch } hs' rfl
    rw [h, h']
  obtain ⟨name, signature, values, ha⟩ := ha
  obtain ⟨handle, hname⟩ := Option.isSome_iff_exists.mp ha.known
  -- the two staging areas give arguments that differ in the bytes of buffers alone
  have has := (ha.physical hs).interchangeable (ha.physical hs')
  obtain ⟨hplace, hparams⟩ := place_alike (registry.arrayLengths.offset name) has 0 0 has halike
  cases hp : Registry.place (registry.arrayLengths.offset name)
      (invoker.argumentsFor signature values) 0 0 (invoker.argumentsFor signature values)
      registry.scratch with
  | mk answer s =>
    cases hp' : Registry.place (registry.arrayLengths.offset name)
        (invoker'.argumentsFor signature values) 0 0 (invoker'.argumentsFor signature values)
        scratch with
    | mk answer' s' =>
      rw [hp, hp'] at hplace hparams
      cases answer with
      | error e =>
          cases answer' with
          | ok placed' => exact absurd hparams (by simp [Except.map])
          | error e' =>
              obtain rfl : e' = e := Except.error.inj hparams
              obtain ⟨_, _, h⟩ := observe_unplaced meaning hs registry ha hname hp
              obtain ⟨_, _, h'⟩ := observe_unplaced meaning hs' { registry with scratch } ha
                hname hp'
              rw [h, h']
      | ok placed =>
          cases answer' with
          | error e' => exact absurd hparams (by simp [Except.map])
          | ok placed' =>
              obtain ⟨_, _, h⟩ := observe_reached hs registry halike.left ha hname (hnatives handle) hp
              obtain ⟨_, _, h'⟩ := observe_reached hs' { registry with scratch }
                halike.right ha hname (hnatives handle) hp'
              rw [h, h', block_of_parameters (Except.ok.inj hparams), hplace.run_answer
                (hnatives handle), hplace.run_seen]

/--
**What a call leaves behind.** The heap is empty again, and the registry is as it was but for cells
above the top. Nothing is said about what the slots hold.
-/
theorem observe_settled {meaning : F → Native Unit}
    (hnatives : ∀ handle, (meaning handle).Confined) {invoker : Invoker}
    (hs : invoker.staging.Sound) {registry : Registry F} (hscratch : Sound registry.scratch)
    (hempty : registry.scratch.used = 0) (arguments : List ScriptValue) :
    ∃ (observation : Observation) (invoker' : Invoker) (scratch : Scratch),
      observe meaning invoker registry arguments =
        (observation, invoker', { registry with scratch })
      ∧ invoker'.staging.Sound ∧ registry.scratch.Alike scratch := by
  by_cases ha : ∃ name signature values, Accepted registry.knows arguments name signature values
  swap
  · obtain ⟨e, hcall⟩ := observe_refused meaning ha
    obtain ⟨invoker', hs', h⟩ := hcall invoker registry hs rfl
    exact ⟨_, invoker', registry.scratch, h, hs', .refl hscratch⟩
  obtain ⟨name, signature, values, ha⟩ := ha
  obtain ⟨handle, hname⟩ := Option.isSome_iff_exists.mp ha.known
  -- whether the arguments can be placed or not, only cells and the top have changed
  obtain ⟨hsound, hsame⟩ := place_sameMachine (registry.arrayLengths.offset name)
    (invoker.argumentsFor signature values) (invoker.argumentsFor signature values) 0 0 hscratch
  cases hp : Registry.place (registry.arrayLengths.offset name)
      (invoker.argumentsFor signature values) 0 0 (invoker.argumentsFor signature values)
      registry.scratch with
  | mk answer s =>
      rw [hp] at hsound hsame
      cases answer with
      | error e =>
          obtain ⟨invoker', hs', h⟩ := observe_unplaced meaning hs registry ha hname hp
          exact ⟨_, invoker', _, h, hs', hscratch.alike_closeScope hempty hsound hsame⟩
      | ok placed =>
          obtain ⟨invoker', hs', h⟩ :=
            observe_reached hs registry hscratch ha hname (hnatives handle) hp
          refine ⟨_, invoker', _, h, hs', hscratch.alike_closeScope hempty ?_ ?_⟩
          · exact hsound.sameCursors ((hnatives handle).keepsCursors _ _ _)
          · exact hsame.trans ((hnatives handle).sameMachine s (Registry.block placed))

/-- **Calls in a row show what each of them shows on its own.** -/
theorem session_eq {meaning : F → Native Unit} (hnatives : ∀ handle, (meaning handle).Confined)
    {fresh : Registry F} (hempty : fresh.scratch.used = 0) :
    ∀ (calls : List (List ScriptValue)) {invoker : Invoker} {scratch : Scratch},
      invoker.staging.Sound → fresh.scratch.Alike scratch →
      session meaning invoker { fresh with scratch } calls =
        calls.map fun arguments => (observe meaning {} fresh arguments).1
  | [], _, _, _, _ => rfl
  | arguments :: calls, invoker, scratch, hs, halike => by
      -- the call shows what it would show first, and leaves a state like the one before it
      have hfirst := observe_alike hnatives Staging.sound_new hs halike arguments
      obtain ⟨observation, invoker', scratch', h, hs', halike'⟩ := observe_settled hnatives hs
        (show Sound ({ fresh with scratch } : Registry F).scratch from halike.right)
        (halike.used.trans hempty) arguments
      unfold session
      rw [h] at hfirst ⊢
      rw [List.map_cons, ← hfirst]
      exact congrArg _ (session_eq hnatives hempty calls hs' (halike.trans halike'))

/-- **A native is shown the arguments of its call and nothing else.** -/
theorem observe_runs {meaning : F → Native Unit} (hnatives : ∀ handle, (meaning handle).Confined)
    {invoker : Invoker} (hs : invoker.staging.Sound) {registry : Registry F}
    (hscratch : Sound registry.scratch) (hempty : registry.scratch.used = 0)
    {arguments : List ScriptValue} {name : String} {signature : Signature}
    {values : List ScriptValue} (ha : Accepted registry.knows arguments name signature values) :
    ∀ seen ∈ (observe meaning invoker registry arguments).1.runs,
      ∃ (run : NativeRun) (physical : List NativeArgument) (placed : List PlacedArgument),
        seen = (run.block, placed.flatMap (·.cells)) ∧ Physical signature.slots values physical
        ∧ Marshalled (registry.arrayLengths.offset name) physical placed run := by
  have hphysical := ha.physical hs
  obtain ⟨handle, hname⟩ := Option.isSome_iff_exists.mp ha.known
  cases hp : Registry.place (registry.arrayLengths.offset name)
      (invoker.argumentsFor signature values) 0 0 (invoker.argumentsFor signature values)
      registry.scratch with
  | mk answer s =>
      cases answer with
      | error e =>
          obtain ⟨_, _, h⟩ := observe_unplaced meaning hs registry ha hname hp
          rw [h]
          exact fun seen hseen => absurd hseen (by simp)
      | ok placed =>
          obtain ⟨_, _, h⟩ := observe_reached hs registry hscratch ha hname (hnatives handle) hp
          obtain ⟨_, _, hlaid, _, _⟩ := place_ok hscratch hp
          -- the row starts at the bottom, so it is all that lies below the top
          rw [hempty] at hlaid
          rw [h]
          intro seen hseen
          rw [List.mem_singleton.mp hseen]
          refine ⟨_, _, placed, Prod.ext rfl hlaid.cellsFrom, hphysical,
            place_marshalled hscratch hp rfl rfl (ha.length_lt hphysical)⟩

end Invoker

/--
**No call can see an earlier one.**

Take any calls in a row, on a new staging area and a registry with new scratch memory, whose natives
keep to what they may use. What the script gets for each of them, the block that its native
receives and the memory below the top of the heap are the same as if the call were made first.
That memory holds the arguments of the call and nothing else: an array has zeros behind the
entries that the script gave, up to the length that is handed over.
-/
theorem session_independent_of_history {F : Type} {registry : Registry F}
    {meaning : F → Native Unit} (hfresh : registry.scratch = Scratch.new)
    (hnatives : ∀ handle, (meaning handle).Confined) (calls : List (List ScriptValue)) :
    Invoker.session meaning {} registry calls =
        calls.map (fun arguments => (Invoker.observe meaning {} registry arguments).1)
      ∧ ∀ (arguments : List ScriptValue) (name : String) (signature : Signature)
        (values : List ScriptValue), Accepted registry.knows arguments name signature values →
        ∀ seen ∈ (Invoker.observe meaning {} registry arguments).1.runs,
          ∃ (run : NativeRun) (physical : List NativeArgument) (placed : List PlacedArgument),
            seen = (run.block, placed.flatMap (·.cells))
            ∧ Physical signature.slots values physical
            ∧ Marshalled (registry.arrayLengths.offset name) physical placed run := by
  have hscratch : Sound registry.scratch := hfresh ▸ sound_new
  have hempty : registry.scratch.used = 0 := by
    rw [hfresh]
    decide
  refine ⟨?_, fun arguments name signature values ha => ?_⟩
  · exact Invoker.session_eq hnatives hempty calls Staging.sound_new (.refl hscratch)
  · exact Invoker.observe_runs hnatives Staging.sound_new hscratch hempty ha

/-- A call that is made, one that is refused halfway, and one that asks for a text. -/
theorem session_independent_of_history_poke :
    let registry : Registry Unit := { natives := [("Poke", ())] }
    let meaning : Unit → Native Unit := fun _ => Native.poke 65
    let last : List ScriptValue := [.text "Poke", .text "S"]
    let calls : List (List ScriptValue) := [[.text "Poke", .text "I"],
      [.text "Poke", .text "siI", .text "long ago", .null], last]
    (registry.scratch = Scratch.new ∧ ∀ handle, (meaning handle).Confined) ∧
    Invoker.session meaning {} registry calls =
        calls.map (fun arguments => (Invoker.observe meaning {} registry arguments).1)
      ∧ (Invoker.observe meaning {} registry last).1.runs.length = 1 := by
  intro registry meaning last calls
  have hnatives : ∀ handle, (meaning handle).Confined := fun _ => Native.poke_confined 65
  refine ⟨⟨rfl, hnatives⟩, ?_, by decide +kernel⟩
  exact (session_independent_of_history rfl hnatives calls).1

end ScriptBridge
