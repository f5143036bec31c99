import ScriptBridge.Proofs.Placement

/-!
# What a native is given, and what comes back

A call by name hands the arguments over through scratch memory and reads them back afterwards.
The native in between is arbitrary code. All that is asked of it is that it leaves the cursors of
the machine alone; what it writes to the cells is its own business.

To say that a native was called once, and with what, its runs are noted. `Native.noted` adds a
list of runs to the world a native acts on and changes nothing else: `call_noted` says that a call
of noted natives is the same call.
-/

namespace ScriptBridge

/-- **One run of a native**: what it was given, and what it left. -/
structure NativeRun where
  entry : Machine
  block : List Cell
  result : Cell
  exit : Machine

namespace Native

variable {W : Type}

/-- A native that notes its runs, the latest last. -/
def noted (native : Native W) : Native (W × List NativeRun) :=
  fun m block w =>
    let (result, exit, world) := native m block w.1
    (result, exit, world, w.2 ++ [⟨m, block, result, exit⟩])

def run (native : Native W) (m : Machine) (block : List Cell) (w : W) : NativeRun :=
  ⟨m, block, (native m block w).1, (native m block w).2.1⟩

/-- A native that leaves the cursors of the machine alone. -/
def KeepsCursors (native : Native W) : Prop :=
  ∀ (m : Machine) (block : List Cell) (w : W), m.SameCursors (native m block w).2.1

/-- A native that puts a value where its first parameter points. The result says whether it could. -/
def poke (value : Cell) : Native Unit :=
  fun m block w =>
    match m.write? (block.getD 1 0) value with
    | some m => (1, m, w)
    | none => (0, m, w)

theorem poke_keepsCursors (value : Cell) : (poke value).KeepsCursors := by
  intro m block w
  unfold poke Machine.write?
  cases m.index? (block.getD 1 0) with
  | none => exact ⟨rfl, rfl, rfl, rfl, rfl⟩
  | some index => exact ⟨rfl, rfl, rfl, rfl, Array.size_setIfInBounds⟩

theorem KeepsCursors.noted {native : Native W} (h : native.KeepsCursors) :
    native.noted.KeepsCursors := fun m block w => h m block w.1

end Native

open Scratch NativeArgument

namespace Registry

variable {F W : Type}

/-! ## The body of a call -/

/-- Nothing is called if an argument is refused. -/
theorem callIn_error {offset : Nat → Nat} {native : Native W} {arguments : List NativeArgument}
    {w : W} {s s' : Scratch} {e : CallError}
    (hp : place offset arguments 0 0 arguments s = (.error e, s')) :
    callIn offset native arguments w s = ((.error e, arguments, w), s') := by
  unfold callIn
  rw [hp]

/-- **A native that was reached answers**, and the arguments are read back from what it left. -/
theorem callIn_ok {offset : Nat → Nat} {native : Native W} {arguments : List NativeArgument}
    {w : W} {s s' : Scratch} {placed : List PlacedArgument} (h : Sound s)
    (hn : native.KeepsCursors)
    (hp : place offset arguments 0 0 arguments s = (.ok placed, s')) :
    callIn offset native arguments w s =
      ((.ok (native s'.machine (block placed) w).1,
        placed.map (·.after (native s'.machine (block placed) w).2.1),
        (native s'.machine (block placed) w).2.2),
        ⟨(native s'.machine (block placed) w).2.1⟩) := by
  obtain ⟨hs', _, hlaid, _, hlen⟩ := place_ok h hp
  -- the top is where it was, so every block is still in use
  have hkeeps := hn s'.machine (block placed) w
  have hexit : Sound ⟨(native s'.machine (block placed) w).2.1⟩ := hs'.sameCursors hkeeps
  have hused : used ⟨(native s'.machine (block placed) w).2.1⟩ = s'.used := by
    unfold used Scratch.heapTop
    rw [hkeeps.heapTop]
  have hback : readBack _ placed = _ := readBack_eq hexit
    (fun p hp hv => by
      obtain ⟨n, _, h2, h3, _⟩ := hlaid.mem p hp
      rw [hv] at h3
      exact ⟨n, h3, by rw [hused]; exact h2⟩)
    (fun p hp values ha => by
      obtain ⟨i, hi⟩ := List.getElem?_of_mem hp
      have hm := hlen i p hi
      rw [ha] at hm
      exact measure?_le hm)
  unfold callIn
  rw [hp]
  simp only [hback]
  rfl

/-! ## Calls by name -/

theorem call_refused {registry : Registry F} (meaning : F → Native W) {name : String} {handle : F}
    {arguments : List NativeArgument} (w : W) {s : Scratch} {e : CallError}
    (hname : registry.find? name = some handle)
    (hp : place (registry.arrayLengths.offset name) arguments 0 0 arguments registry.scratch
      = (.error e, s)) :
    registry.call meaning name arguments w =
      ⟨.error e, arguments, { registry with scratch := s.closeScope registry.scratch }, w⟩ := by
  unfold call
  rw [hname]
  simp only [inScope, callIn_error hp]

/-- **A native that is reached runs once.** -/
theorem call_reached {registry : Registry F} {meaning : F → Native W} {name : String} {handle : F}
    {arguments : List NativeArgument} (w : W) (runs : List NativeRun) {s : Scratch}
    {placed : List PlacedArgument} (hs : Sound registry.scratch)
    (hname : registry.find? name = some handle) (hkeeps : (meaning handle).KeepsCursors)
    (hp : place (registry.arrayLengths.offset name) arguments 0 0 arguments registry.scratch
      = (.ok placed, s)) :
    let run := (meaning handle).run s.machine (block placed) w
    registry.call (fun handle => (meaning handle).noted) name arguments (w, runs) =
      ⟨.ok run.result, placed.map (·.after run.exit),
        { registry with scratch := (Scratch.mk run.exit).closeScope registry.scratch },
        ((meaning handle s.machine (block placed) w).2.2, runs ++ [run])⟩ := by
  unfold call
  rw [hname]
  simp only [inScope, callIn_ok hs hkeeps.noted hp]
  rfl

/-- **A call of noted natives is the same call.** -/
theorem call_noted (registry : Registry F) (meaning : F → Native W) (name : String)
    (arguments : List NativeArgument) (w : W) (runs : List NativeRun) :
    let plain := registry.call meaning name arguments w
    let noted := registry.call (fun handle => (meaning handle).noted) name arguments (w, runs)
    noted.result = plain.result ∧ noted.arguments = plain.arguments
      ∧ noted.registry = plain.registry ∧ noted.world.1 = plain.world := by
  unfold call
  cases registry.find? name with
  | none => exact ⟨rfl, rfl, rfl, rfl⟩
  | some handle =>
      -- the noted native sees what the plain one sees, so the two calls take the same way
      unfold inScope callIn
      dsimp only
      cases place (registry.arrayLengths.offset name) arguments 0 0 arguments registry.scratch with
      | mk answer s =>
          cases answer with
          | error e => exact ⟨rfl, rfl, rfl, rfl⟩
          | ok placed => exact ⟨rfl, rfl, rfl, rfl⟩

/-! ## Calls and reachable states -/

theorem placedAt_scratch (a : NativeArgument) (length : Nat)
    (answer : Except ScratchError Cell × Scratch) : (placedAt a length answer).2 = answer.2 := by
  rcases answer with ⟨e | address, s⟩ <;> rfl

theorem placeOne_reachable {s o : Scratch} {scopes : List Scratch} (h : Reachable s (o :: scopes))
    (arguments : List NativeArgument) (index lengthIndex : Nat) (a : NativeArgument) :
    Reachable (placeOne arguments index lengthIndex a s).2 (o :: scopes) := by
  unfold placeOne
  cases a with
  | integer value => exact h
  | float value => exact h
  | reference value => dsimp only; rw [placedAt_scratch]; exact .pushedCell value h
  | text t => dsimp only; rw [placedAt_scratch]; exact .pushedText t h
  | buffer bytes => dsimp only; rw [placedAt_scratch]; exact .pushedZeros bytes.length h
  | array values =>
      dsimp only
      cases lengthAt? arguments lengthIndex values with
      | none => exact h
      | some length => dsimp only; rw [placedAt_scratch]; exact .pushedCells _ h

theorem place_reachable (offset : Nat → Nat) (arguments : List NativeArgument) {o : Scratch}
    {scopes : List Scratch} :
    ∀ (rest : List NativeArgument) (index occurrence : Nat) {s : Scratch},
      Reachable s (o :: scopes) →
      Reachable (place offset arguments index occurrence rest s).2 (o :: scopes)
  | [], _, _, _, h => h
  | a :: rest, index, occurrence, s, h => by
      have hone := placeOne_reachable h arguments index (index + offset occurrence) a
      unfold place
      revert hone
      rcases placeOne arguments index (index + offset occurrence) a s with ⟨e | p, s₁⟩ <;> intro hone
      · exact hone
      · have hrest := place_reachable offset arguments rest (index + 1)
          (if isArray a then occurrence + 1 else occurrence) hone
        dsimp only
        revert hrest
        rcases place offset arguments (index + 1) _ rest s₁ with ⟨e | ps, s₂⟩ <;> exact id

/-- **A call leads from reachable states to reachable states**, whatever comes of it. Scopes that
were open stay open. -/
theorem call_reachable {registry : Registry F} {meaning : F → Native W} {scopes : List Scratch}
    (h : Reachable registry.scratch scopes) {name : String}
    (hkeeps : ∀ handle, registry.find? name = some handle → (meaning handle).KeepsCursors)
    (arguments : List NativeArgument) (w : W) :
    Reachable (registry.call meaning name arguments w).registry.scratch scopes := by
  unfold call
  cases hname : registry.find? name with
  | none => exact h
  | some handle =>
      -- the scope is opened, the arguments are placed, the native writes, and the scope is closed
      have hplace := place_reachable (registry.arrayLengths.offset name) arguments arguments 0 0
        (.opened h)
      unfold inScope callIn
      dsimp only
      revert hplace
      rcases place (registry.arrayLengths.offset name) arguments 0 0 arguments registry.scratch with
        ⟨e | placed, s⟩ <;> intro hplace
      · exact .closed hplace
      · exact .closed (.written (hkeeps handle hname s.machine (block placed) w) hplace)

end Registry

/--
**The arguments of a call, as a native is given them.** `placed` are the arguments, each with its
parameter and, if it is an array, with the number of entries that are handed over.
-/
structure Marshalled (offset : Nat → Nat) (arguments : List NativeArgument)
    (placed : List PlacedArgument) (run : NativeRun) : Prop where
  inOrder : placed.map (·.argument) = arguments
  /-- The block is the size of the parameters in bytes and then the parameters. -/
  block : run.block = Cell.ofSize (arguments.length * Machine.cellSize) :: placed.map (·.parameter)
  size : (Cell.ofSize (arguments.length * Machine.cellSize)).toInt = 4 * arguments.length
  /-- An array is handed over up to the length that stands where the table says. -/
  lengths : ∀ (i : Nat) (p : PlacedArgument), placed[i]? = some p →
    p.argument.measure? arguments (i + offset (arraysBefore arguments i)) = some p.length
  /-- What is passed by value is the parameter, and the parameter of everything else is the
  address of a block below the top of the heap. -/
  value : ∀ p ∈ placed, ∀ v, p.argument.value? = some v → p.parameter = v
  aligned : ∀ p ∈ placed, p.argument.value? = none → 0 ≤ p.parameter ∧ p.parameter % 4 = 0
  below : ∀ p ∈ placed, p.argument.value? = none →
    p.parameter.toInt + 4 * (p.cells.length : Int) ≤ run.entry.heapTop.toInt
  /-- The blocks lie in the order of the arguments and none reaches into the next. -/
  ordered : placed.Pairwise fun p q => p.argument.value? = none → q.argument.value? = none →
    p.parameter.toInt + 4 * (p.cells.length : Int) ≤ q.parameter.toInt
  /-- Each block holds its argument. -/
  holds : ∀ p ∈ placed, p.argument.value? = none →
    run.entry.cellsFrom p.start p.cells.length = p.cells

/-- Arguments in a row are handed over as they should be. -/
theorem Laid.marshalled {offset : Nat → Nat} {arguments : List NativeArgument}
    {placed : List PlacedArgument} {run : NativeRun} {start : Nat} {s : Scratch} (h : Sound s)
    (hentry : run.entry = s.machine) (hblock : run.block = Registry.block placed)
    (hargs : placed.map (·.argument) = arguments) (hn : arguments.length < 2 ^ 29)
    (hlen : ∀ (i : Nat) (p : PlacedArgument), placed[i]? = some p →
      p.argument.measure? arguments (i + offset (arraysBefore arguments i)) = some p.length)
    (hlaid : Laid s.machine start placed s.used) : Marshalled offset arguments placed run := by
  have hle := h.used_le
  have hlt := capacity_lt
  have hcount : placed.length = arguments.length := by rw [← hargs, List.length_map]
  -- in indices nothing wraps around, so all that follows is about those
  have hblocks : ∀ p ∈ placed, p.argument.value? = none → ∃ n, p.parameter = Machine.addressOf n
      ∧ n + p.cells.length ≤ s.used ∧ s.machine.cellsFrom n p.cells.length = p.cells := by
    intro p hp hv
    obtain ⟨n, _, h2, h3, h4⟩ := hlaid.mem p hp
    rw [hv] at h3
    exact ⟨n, h3, h2, h4⟩
  constructor
  · exact hargs
  · rw [hblock, Registry.block, hcount]
  · exact (Machine.addressOf_toInt hn).trans (by omega)
  · exact hlen
  · intro p hp v hv
    obtain ⟨n, _, _, h3, _⟩ := hlaid.mem p hp
    rw [h3, hv]
    rfl
  · intro p hp hv
    obtain ⟨n, h1, h2, _⟩ := hblocks p hp hv
    rw [h1]
    exact ⟨Machine.addressOf_nonneg (by omega), Machine.addressOf_aligned (by omega)⟩
  · intro p hp hv
    obtain ⟨n, h1, h2, _⟩ := hblocks p hp hv
    rw [h1, hentry, h.heapTop, Machine.addressOf_toInt (by omega),
      Machine.addressOf_toInt (by omega)]
    omega
  · refine (hlaid.pairwise (by omega)).imp_of_mem fun {p q} hp hq hpq hpv hqv => ?_
    obtain ⟨n, h1, h2, _⟩ := hblocks p hp hpv
    obtain ⟨k, h3, h4, _⟩ := hblocks q hq hqv
    have hnk := hpq hpv hqv
    rw [PlacedArgument.start_of_address h1 (by omega),
      PlacedArgument.start_of_address h3 (by omega)] at hnk
    rw [h1, h3, Machine.addressOf_toInt (by omega), Machine.addressOf_toInt (by omega)]
    omega
  · intro p hp hv
    obtain ⟨n, h1, h2, h3⟩ := hblocks p hp hv
    rw [PlacedArgument.start_of_address h1 (by omega), hentry]
    exact h3

/-- **Arguments that were placed are handed over as they should be.** -/
theorem place_marshalled {offset : Nat → Nat} {arguments : List NativeArgument}
    {placed : List PlacedArgument} {run : NativeRun} {s s' : Scratch} (h : Sound s)
    (hp : Registry.place offset arguments 0 0 arguments s = (.ok placed, s'))
    (hentry : run.entry = s'.machine) (hblock : run.block = Registry.block placed)
    (hn : arguments.length < 2 ^ 29) : Marshalled offset arguments placed run := by
  obtain ⟨hs', hargs, hlaid, _, hlen⟩ := place_ok h hp
  refine hlaid.marshalled hs' hentry hblock hargs hn fun i p hi => ?_
  have hm := hlen i p hi
  rwa [Nat.zero_add, Nat.zero_add] at hm

/--
**A call hands over its arguments and reads them back.**

Take a registered name, any arguments, scratch memory in any state it can be in, and any native
that keeps the cursors. Either an argument is refused, then the native is not called and the
answer is an error. Or the native is called once. Its block and the memory below the top of the
heap are then what `Marshalled` says, the answer is its result, each argument holds what the
native left in its own block, and the top of the heap is where it was.

Either way scratch memory is again in a state that it can be in, with the same scopes open, so all
of this holds of the next call too.
-/
theorem call_marshals {F W : Type} {registry : Registry F} {meaning : F → Native W} {name : String}
    {handle : F} {arguments : List NativeArgument} {scopes : List Scratch} (w : W)
    (hname : registry.find? name = some handle) (hreach : Reachable registry.scratch scopes)
    (hcount : arguments.length < 2 ^ 29) (hnative : (meaning handle).KeepsCursors) :
    let outcome := registry.call (fun handle => (meaning handle).noted) name arguments (w, [])
    ((outcome.world.2 = [] ∧ ∃ e, outcome.result = .error e) ∨
    ∃ (run : NativeRun) (placed : List PlacedArgument), outcome.world.2 = [run]
      ∧ meaning handle run.entry run.block w = (run.result, run.exit, outcome.world.1)
      ∧ Marshalled (registry.arrayLengths.offset name) arguments placed run
      ∧ outcome.result = .ok run.result
      ∧ outcome.arguments = placed.map (·.after run.exit)
      ∧ outcome.registry.scratch.heapTop = registry.scratch.heapTop)
    ∧ Reachable outcome.registry.scratch scopes := by
  have hs := hreach.sound.1
  intro outcome
  have hkept : Reachable outcome.registry.scratch scopes := by
    refine Registry.call_reachable hreach (fun other hother => ?_) arguments (w, [])
    obtain rfl := Option.some.inj (hname.symm.trans hother)
    exact hnative.noted
  refine ⟨?_, hkept⟩
  cases hp : Registry.place (registry.arrayLengths.offset name) arguments 0 0 arguments
      registry.scratch with
  | mk answer s =>
      cases answer with
      | error e =>
          have ho := Registry.call_refused (fun handle => (meaning handle).noted)
            (w, ([] : List NativeRun)) hname hp
          exact Or.inl ⟨congrArg (·.world.2) ho, e, congrArg (·.result) ho⟩
      | ok placed =>
          have ho := Registry.call_reached w [] hs hname hnative hp
          refine Or.inr ⟨(meaning handle).run s.machine (Registry.block placed) w, placed,
            congrArg (·.world.2) ho, ?_, ?_, congrArg (·.result) ho, congrArg (·.arguments) ho,
            congrArg (·.registry.scratch.heapTop) ho⟩
          · exact congrArg (fun o => ((meaning handle s.machine (Registry.block placed) w).1,
              (meaning handle s.machine (Registry.block placed) w).2.1, o.world.1)) ho.symm
          · exact place_marshalled hs hp rfl rfl hcount

/-- A native with arguments of all kinds. The array is handed over up to its first two entries. -/
theorem call_marshals_poke :
    let registry : Registry Unit := { natives := [("Poke", ())] }
    let arguments : List NativeArgument := [.reference 5, .text "hi", .array [1, 2, 3],
      .integer 2, .float ⟨0⟩, .buffer [9, 9]]
    let outcome := registry.call (fun _ => (Native.poke 7).noted) "Poke" arguments ((), [])
    (registry.find? "Poke" = some () ∧ Reachable registry.scratch [] ∧ arguments.length < 2 ^ 29
      ∧ (Native.poke 7).KeepsCursors) ∧
    ∃ (run : NativeRun) (placed : List PlacedArgument), outcome.world.2 = [run]
      ∧ Marshalled (registry.arrayLengths.offset "Poke") arguments placed run
      ∧ outcome.result = .ok run.result
      ∧ outcome.arguments = placed.map (·.after run.exit) := by
  intro registry arguments outcome
  have hname : registry.find? "Poke" = some () := by decide
  have hcount : arguments.length < 2 ^ 29 := by decide
  refine ⟨⟨hname, .new, hcount, Native.poke_keepsCursors 7⟩, ?_⟩
  have hran : ¬ (outcome.world.2 = [] ∧ ∃ e, outcome.result = .error e) := by
    rintro ⟨hnone, _⟩
    have hone : outcome.world.2.length = 1 := by decide
    rw [hnone] at hone
    exact absurd hone (by decide)
  obtain ⟨run, placed, h1, _, h2, h3, h4, _⟩ :=
    (@call_marshals Unit Unit registry (fun _ => Native.poke 7) "Poke" () arguments [] () hname
      .new hcount (Native.poke_keepsCursors 7)).1.resolve_left hran
  exact ⟨run, placed, h1, h2, h3, h4⟩

end ScriptBridge
