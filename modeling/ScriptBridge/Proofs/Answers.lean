import ScriptBridge.Proofs.Acceptance
import ScriptBridge.Proofs.Marshalling
import ScriptBridge.Proofs.TextLayouts

/-!
# What a script gets for a call

A value that the native writes goes through three places. The native leaves it in the cells at an
address; reading back puts it into a slot of the staging area; and the slot is read to make a value
of the script. Two countings have to agree along the way, because a text takes two slots and is
one value.

**The other way to say it.** `NativeRun.answer` goes straight from the memory that the native left
to the answer. It looks up the parameter that the native received for a slot and reads the cells
there. The staging area does not occur in it, and neither does anything that was there before.

**Nothing changes size.** Reading back puts as many bytes into a buffer and as many entries into an
array as there were. So the staging area is in order after every call.
-/

namespace ScriptBridge

open Scratch

/-! ## The answer, from the memory that was left -/

/-- The slots of a signature that the native writes, each with the place of its argument. -/
def references : List SlotType → Nat → List (SlotType × Nat)
  | [], _ => []
  | type :: types, place =>
    if type.isReference then (type, place) :: references types (place + Staging.width type)
    else references types (place + Staging.width type)

/-- **What cells mean for a slot that the native writes.** A text ends at its first zero, and at the
end of the buffer that it is copied to. -/
def SlotType.valueOf (type : SlotType) (cells : List Cell) : ScriptValue :=
  match type with
  | .intRef => .ofCell (cells.headD 0)
  | .floatRef => .number (Cell.toSingle (cells.headD 0)).toDouble
  | .textRef =>
    let bytes := CellText.decode (cells.take maxTextLength)
    .text (CodePage.decode ((bytes.takeWhile (· != 0)).take (maxTextLength - 1)))
  | _ => .undefined

namespace NativeRun

/-- The parameter of the argument at a place. The size of the block stands in front of the first. -/
def parameter (run : NativeRun) (place : Nat) : Cell := run.block.getD (place + 1) 0

/-- The cells that the native left at the address that it was given for a place. -/
def found (run : NativeRun) (place : Nat) : List Cell :=
  (run.exit.cells? (run.parameter place)).getD []

/-- The value that the native left for a slot. -/
def left (run : NativeRun) (type : SlotType) (place : Nat) : ScriptValue :=
  type.valueOf (run.found place)

/-- **The answer to a call.** It is the result of the native if the native writes nothing, and
otherwise what it wrote, in the order of the signature. -/
def answer (run : NativeRun) (signature : Signature) : ScriptValue :=
  match (references signature.slots 0).map fun r => run.left r.1 r.2 with
  | [] => .ofCell run.result
  | [value] => value
  | values => .array values

end NativeRun

theorem references_length (signature : Signature) (place : Nat) :
    (references signature.slots place).length = signature.referenceCount := by
  unfold Signature.referenceCount
  induction signature.slots generalizing place with
  | nil => rfl
  | cons type types ih =>
      rw [references, List.countP_cons]
      cases htype : type.isReference with
      | true => rw [if_pos rfl, List.length_cons, ih, if_pos rfl]
      | false => rw [if_neg (by decide), ih, if_neg (by decide), Nat.add_zero]

/-- **A text that fits is the same in both layouts.** -/
theorem valueOf_text {bytes : List UInt8} (hzero : 0 ∉ bytes) (hlen : bytes.length < maxTextLength)
    {cells : List Cell} (hcells : CellText.packedCells bytes <+: cells.take maxTextLength
      ∨ CellText.unpackedCells bytes <+: cells.take maxTextLength) :
    SlotType.textRef.valueOf cells = .text (CodePage.decode bytes) := by
  have hdecode : CellText.decode (cells.take maxTextLength) = bytes := by
    rcases hcells with ⟨rest, hrest⟩ | ⟨rest, hrest⟩
    · rw [← hrest, CellText.decode_packedCells hzero]
    · rw [← hrest, CellText.decode_unpackedCells hzero]
  unfold SlotType.valueOf
  dsimp only
  rw [hdecode, CellText.takeWhile_nonzero hzero, List.take_of_length_le (by omega)]

/-! ## Slots after the native -/

/-- **An argument with something else in it.** A list keeps its length. -/
inductive Rewritten : NativeArgument → NativeArgument → Prop where
  | refl (a : NativeArgument) : Rewritten a a
  | reference (v v' : Cell) : Rewritten (.reference v) (.reference v')
  | array {values values' : List Cell} : values'.length = values.length →
      Rewritten (.array values) (.array values')
  | buffer {bytes bytes' : List UInt8} : bytes'.length = bytes.length →
      Rewritten (.buffer bytes) (.buffer bytes')

theorem received_length (text bytes : List UInt8) :
    (NativeArgument.received text bytes).length = bytes.length := by
  unfold NativeArgument.received
  split
  · rename_i hb
    rw [hb]
  · rename_i hb
    have hpos : 0 < bytes.length := List.length_pos_iff.mpr hb
    rw [List.length_append, List.length_cons, List.length_take, List.length_drop]
    omega

/-- What is read back is as long as what was handed over. -/
theorem PlacedArgument.rewritten (m : Machine) {p : PlacedArgument}
    (hlen : ∀ values, p.argument = .array values → p.length ≤ values.length) :
    Rewritten p.argument (p.after m) := by
  unfold PlacedArgument.after
  cases ha : p.argument with
  | integer value => exact .refl _
  | float value => exact .refl _
  | reference value => exact .reference _ _
  | text t => exact .refl _
  | array values =>
      refine .array ?_
      have := hlen values ha
      rw [List.length_append, Machine.cellsFrom_length, List.length_drop]
      omega
  | buffer bytes => exact .buffer (received_length _ _)

namespace StagedSlot

theorem receive_kind (slot : StagedSlot) (a : NativeArgument) :
    (slot.receive a).kind = slot.kind := by
  cases a <;> rfl

/-- A slot that is not read afterwards stays one. -/
theorem receive_result? {slot : StagedSlot} (h : slot.result? = none) (a : NativeArgument) :
    (slot.receive a).result? = none := by
  unfold result? at h ⊢
  rw [receive_kind]
  cases hk : slot.kind <;> simp [hk] at h ⊢

theorem receive_sizes {slot : StagedSlot} {a : NativeArgument} (h : Rewritten slot.argument a)
    (ho : slot.output.length = maxTextLength) (ha : slot.array.length = maxArrayLength) :
    (slot.receive a).output.length = maxTextLength
      ∧ (slot.receive a).array.length = maxArrayLength := by
  unfold argument at h
  cases hk : slot.kind with
  | integer => rw [hk] at h; cases h; exact ⟨ho, ha⟩
  | float => rw [hk] at h; cases h; exact ⟨ho, ha⟩
  | intRef => rw [hk] at h; cases h <;> exact ⟨ho, ha⟩
  | floatRef => rw [hk] at h; cases h <;> exact ⟨ho, ha⟩
  | text => rw [hk] at h; cases h; exact ⟨ho, ha⟩
  | array =>
      rw [hk] at h
      cases h with
      | refl => exact ⟨ho, ha⟩
      | array hlen => exact ⟨ho, hlen.trans ha⟩
  | buffer =>
      rw [hk] at h
      cases h with
      | refl => exact ⟨ho, ha⟩
      | buffer hlen => exact ⟨hlen.trans ho, ha⟩

end StagedSlot

/-- Slots keep their sizes, those behind the arguments included. -/
theorem zipWith_receive_sizes : ∀ {slots : List StagedSlot} {count : Nat}
    {as : List NativeArgument},
    (∀ slot ∈ slots, slot.output.length = maxTextLength ∧ slot.array.length = maxArrayLength) →
    List.Forall₂ Rewritten ((slots.take count).map (·.argument)) as →
    ∀ slot ∈ List.zipWith StagedSlot.receive slots as ++ slots.drop as.length,
      slot.output.length = maxTextLength ∧ slot.array.length = maxArrayLength
  | [], count, as, _, h => by
      rw [List.take_nil] at h
      cases h
      exact fun slot hs => absurd hs (by simp)
  | slot :: slots, 0, as, hslots, h => by
      cases h
      exact hslots
  | slot :: slots, count + 1, as, hslots, h => by
      obtain ⟨hfirst, hrest⟩ := List.forall_mem_cons.mp hslots
      cases h with
      | cons ha has =>
          refine List.forall_mem_cons.mpr ⟨?_, zipWith_receive_sizes hrest has⟩
          exact StagedSlot.receive_sizes ha hfirst.1 hfirst.2

/-- **The staging area is in order after a call** that left lists as long as they were. -/
theorem Staging.Sound.receive {staging : Staging} (h : Sound staging) {count : Nat}
    {as : List NativeArgument} (has : List.Forall₂ Rewritten (staging.arguments count) as) :
    Sound (staging.receive as) := by
  have hsizes := zipWith_receive_sizes (fun slot hs => ⟨h.output slot hs, h.array slot hs⟩) has
  refine ⟨?_, fun slot hs => (hsizes slot hs).1, fun slot hs => (hsizes slot hs).2⟩
  -- no more arguments come back than slots were taken
  have hlen : as.length ≤ staging.slots.length := by
    rw [← has.length_eq, Staging.arguments, List.length_map, List.length_take]
    exact Nat.min_le_right _ _
  show (List.zipWith StagedSlot.receive staging.slots as
    ++ staging.slots.drop as.length).length = Signature.maxSlots
  rw [List.length_append, List.length_zipWith, List.length_drop, ← h.slots]
  omega

/-- The slots that are read afterwards are those that the native was given. -/
theorem Staging.receive_results {staging : Staging} {as : List NativeArgument}
    (h : as.length ≤ staging.slots.length) : (staging.receive as).results as.length =
      (List.zipWith StagedSlot.receive staging.slots as).filterMap (·.result?) := by
  have hlen : (List.zipWith StagedSlot.receive staging.slots as).length = as.length := by
    rw [List.length_zipWith, Nat.min_eq_right h]
  show ((List.zipWith StagedSlot.receive staging.slots as
    ++ staging.slots.drop as.length).take as.length).filterMap _ = _
  rw [List.take_left' hlen]

/-! ## Values in slots -/

theorem Machine.cellsFrom_take (m : Machine) (start : Nat) {k count : Nat} (h : k ≤ count) :
    (m.cellsFrom start count).take k = m.cellsFrom start k := by
  rw [show count = k + (count - k) by omega, Machine.cellsFrom_add,
    List.take_left' (Machine.cellsFrom_length _ _ _)]

theorem Machine.cellsFrom_headD (m : Machine) (start : Nat) {count : Nat} (h : 0 < count) :
    (m.cellsFrom start count).headD 0 = m.cellAt start := by
  rw [show count = 1 + (count - 1) by omega, Machine.cellsFrom_add]
  rfl

/-- A number that was read back is the one that was left. -/
theorem receive_number {m : Machine} {p : PlacedArgument} {v : Cell}
    (hp : p.argument = .reference v) {slot : StagedSlot} {count : Nat} (h : p.cells.length ≤ count) :
    (slot.kind = .intRef → (slot.receive (p.after m)).result? =
      some (SlotType.intRef.valueOf (m.cellsFrom p.start count))) ∧
    (slot.kind = .floatRef → (slot.receive (p.after m)).result? =
      some (SlotType.floatRef.valueOf (m.cellsFrom p.start count))) := by
  have hcells : p.cells.length = 1 := by
    unfold PlacedArgument.cells
    rw [hp]
    rfl
  have hnumber : (slot.receive (p.after m)).number = (m.cellsFrom p.start count).headD 0 := by
    rw [m.cellsFrom_headD p.start (by omega)]
    unfold PlacedArgument.after
    rw [hp]
    rfl
  unfold StagedSlot.result? SlotType.valueOf
  rw [StagedSlot.receive_kind, hnumber]
  refine ⟨fun hk => ?_, fun hk => ?_⟩
  · rw [hk]
  · rw [hk]

/-- **A text that was read back is the one that was left.** The buffer has a zero behind what was
put into it, so its old bytes are out of sight. -/
theorem receive_buffer {m : Machine} {p : PlacedArgument} {bytes : List UInt8}
    (hp : p.argument = .buffer bytes) (hlen : bytes.length = maxTextLength) {slot : StagedSlot}
    (hk : slot.kind = .buffer) {count : Nat} (h : p.cells.length ≤ count) :
    (slot.receive (p.after m)).result? =
      some (SlotType.textRef.valueOf (m.cellsFrom p.start count)) := by
  have hcells : p.cells.length = maxTextLength := by
    unfold PlacedArgument.cells
    rw [hp]
    exact List.length_replicate.trans hlen
  rw [hcells] at h
  have hbytes : bytes ≠ [] := by
    intro h0
    rw [h0] at hlen
    exact absurd hlen (by decide)
  unfold StagedSlot.result? SlotType.valueOf
  rw [StagedSlot.receive_kind, hk, m.cellsFrom_take p.start h]
  unfold PlacedArgument.after
  rw [hp]
  show some (ScriptValue.text (CodePage.decode ((NativeArgument.received
    (CellText.decode (m.cellsFrom p.start bytes.length)) bytes).takeWhile (· != 0)))) = _
  unfold NativeArgument.received
  rw [if_neg hbytes, CellText.takeWhile_zero, hlen, ← List.take_takeWhile]

/--
**The values in the slots are those that were left.** Arguments that were placed for the slots of
`types` are read back from `m` and received; `found` gives the cells at the parameter of each place.
-/
def Recovered (m : Machine) (found : Nat → List Cell) (types : List SlotType)
    (slots : List StagedSlot) : Prop :=
  ∀ (placed : List PlacedArgument) (place : Nat),
    placed.map (·.argument) = (slots.take (Staging.slotCount types)).map (·.argument) →
    (∀ (i : Nat) (p : PlacedArgument), placed[i]? = some p → p.argument.value? = none →
      ∃ count, p.cells.length ≤ count ∧ found (place + i) = m.cellsFrom p.start count) →
    (List.zipWith StagedSlot.receive slots (placed.map (·.after m))).filterMap (·.result?) =
      (references types place).map fun r => r.1.valueOf (found r.2)

namespace Recovered

variable {m : Machine} {found : Nat → List Cell} {types : List SlotType} {slots : List StagedSlot}

/-- A slot that the script supplies adds no value. -/
theorem value {type : SlotType} {slot : StagedSlot} (hplain : type.isReference = false)
    (hwidth : Staging.width type = 1) (hnone : slot.result? = none)
    (h : Recovered m found types slots) : Recovered m found (type :: types) (slot :: slots) := by
  intro placed place hargs hfound
  rw [Staging.taken_cons hwidth] at hargs
  obtain ⟨p, ps, rfl, _, hps⟩ := List.map_eq_cons_iff.mp hargs
  rw [references, if_neg (by rw [hplain]; decide), hwidth]
  rw [List.map_cons, List.zipWith_cons_cons,
    List.filterMap_cons_none (StagedSlot.receive_result? hnone _)]
  -- the place moves on by one, although no value was found
  refine h ps _ hps fun i q hq hv => ?_
  rw [Nat.add_assoc, Nat.add_comm 1 i]
  exact hfound (i + 1) q hq hv

/-- A number that the native writes takes one slot and is one value. -/
theorem number {type : SlotType} {slot : StagedSlot} {v : Cell} (href : type.isReference = true)
    (hwidth : Staging.width type = 1) (hslot : slot.argument = .reference v)
    (hvalue : ∀ {p : PlacedArgument} {count : Nat}, p.argument = .reference v →
      p.cells.length ≤ count → (slot.receive (p.after m)).result? =
        some (type.valueOf (m.cellsFrom p.start count)))
    (h : Recovered m found types slots) : Recovered m found (type :: types) (slot :: slots) := by
  intro placed place hargs hfound
  rw [Staging.taken_cons hwidth] at hargs
  obtain ⟨p, ps, rfl, hp, hps⟩ := List.map_eq_cons_iff.mp hargs
  rw [hslot] at hp
  obtain ⟨count, hcount, hcells⟩ := hfound 0 p rfl (by rw [hp]; rfl)
  have hfirst := hvalue hp hcount
  rw [← hcells, Nat.add_zero] at hfirst
  rw [references, if_pos href, hwidth, List.map_cons, List.map_cons, List.zipWith_cons_cons,
    List.filterMap_cons_some hfirst]
  refine congrArg _ (h ps _ hps fun i q hq hv => ?_)
  rw [Nat.add_assoc, Nat.add_comm 1 i]
  exact hfound (i + 1) q hq hv

/-- A text that the native writes takes two slots and is one value. -/
theorem text {slot size : StagedSlot} {bytes : List UInt8} (hk : slot.kind = .buffer)
    (hslot : slot.argument = .buffer bytes) (hlen : bytes.length = maxTextLength)
    (hnone : size.result? = none) (h : Recovered m found types slots) :
    Recovered m found (.textRef :: types) (slot :: size :: slots) := by
  intro placed place hargs hfound
  rw [Staging.taken_text] at hargs
  obtain ⟨p, ps, rfl, hp, hps⟩ := List.map_eq_cons_iff.mp hargs
  obtain ⟨q, qs, rfl, _, hqs⟩ := List.map_eq_cons_iff.mp hps
  have hp : p.argument = .buffer bytes := hp.trans hslot
  obtain ⟨count, hcount, hcells⟩ := hfound 0 p rfl (by rw [hp]; rfl)
  have hfirst := receive_buffer (m := m) hp hlen hk hcount
  rw [← hcells] at hfirst
  -- the slot behind the buffer is its size, and no value
  rw [List.map_cons, List.map_cons, List.zipWith_cons_cons, List.zipWith_cons_cons,
    List.filterMap_cons_some hfirst, List.filterMap_cons_none (StagedSlot.receive_result? hnone _)]
  refine congrArg _ (h qs _ hqs fun i r hr hv => ?_)
  rw [Nat.add_assoc, show Staging.width .textRef + i = i + 2 from Nat.add_comm 2 i]
  exact hfound (i + 2) r hr hv

end Recovered

/-- **From staged slots every value is recovered**, whatever the native left. -/
theorem Staging.Staged.recovered (m : Machine) (found : Nat → List Cell) {types : List SlotType}
    {values : List ScriptValue} {slots : List StagedSlot} (h : Staged types values slots) :
    Recovered m found types slots := by
  induction h with
  | nil =>
      intro placed place hargs _
      rw [show placed = [] from List.map_eq_nil_iff.mp hargs]
      simp [references]
  | value hb hnone _ ih => exact ih.value hb.plain hb.width hnone
  | @intRef types values slot slots hk _ _ ih =>
      have hslot : slot.argument = .reference slot.number := by simp [StagedSlot.argument, hk]
      exact ih.number rfl rfl hslot fun hp hcount => (receive_number hp hcount).1 hk
  | @floatRef types values slot slots hk _ _ ih =>
      have hslot : slot.argument = .reference slot.number := by simp [StagedSlot.argument, hk]
      exact ih.number rfl rfl hslot fun hp hcount => (receive_number hp hcount).2 hk
  | @textRef types values slot size behind slots hk ho hlen hsk _ _ ih =>
      have hslot : slot.argument = .buffer (0 :: behind) := by simp [StagedSlot.argument, hk, ho]
      refine ih.text hk hslot hlen ?_
      unfold StagedSlot.result?
      rw [hsk]

/-- A single value is the answer itself. -/
theorem NativeRun.answer_eq (run : NativeRun) (signature : Signature) :
    Invoker.answer signature run.result ((references signature.slots 0).map fun r =>
      r.1.valueOf (run.found r.2)) = run.answer signature := by
  have hcount := references_length signature 0
  unfold Invoker.answer NativeRun.answer NativeRun.left
  cases hrefs : references signature.slots 0 with
  | nil =>
      rw [hrefs, List.length_nil] at hcount
      rw [if_pos hcount.symm]
      rfl
  | cons r rs =>
      rw [hrefs, List.length_cons] at hcount
      rw [if_neg (by omega)]
      cases rs <;> rfl

/-! ## Calls through a registry -/

theorem placed_rewritten {placed : List PlacedArgument} {arguments : List NativeArgument}
    {lengthIndex : Nat → Nat}
    (h : ∀ (i : Nat) (p : PlacedArgument), placed[i]? = some p →
      p.argument.measure? arguments (lengthIndex i) = some p.length) (m : Machine) :
    List.Forall₂ Rewritten (placed.map (·.argument)) (placed.map (·.after m)) := by
  rw [List.forall₂_map_left_iff, List.forall₂_map_right_iff]
  refine List.forall₂_same.mpr fun p hp => PlacedArgument.rewritten m fun values ha => ?_
  obtain ⟨i, hi⟩ := List.getElem?_of_mem hp
  have hm := h i p hi
  rw [ha] at hm
  exact measure?_le hm

theorem NativeRun.parameter_of_placed {run : NativeRun} {placed : List PlacedArgument}
    (hblock : run.block = Registry.block placed) {i : Nat} {p : PlacedArgument}
    (hi : placed[i]? = some p) : run.parameter i = p.parameter := by
  unfold NativeRun.parameter
  rw [hblock, Registry.block, List.getD_cons_succ, List.getD_eq_getElem?_getD, List.getElem?_map, hi]
  rfl

/-- What a native left for an argument is found under its parameter. -/
theorem NativeRun.found_of_laid (run : NativeRun) {placed : List PlacedArgument} {s : Scratch} {start : Nat}
    (h : Sound s) (hentry : run.entry = s.machine) (hexit : run.entry.SameCursors run.exit)
    (hblock : run.block = Registry.block placed) (hlaid : Laid s.machine start placed s.used)
    {i : Nat} {p : PlacedArgument} (hi : placed[i]? = some p) (hv : p.argument.value? = none) :
    ∃ count, p.cells.length ≤ count ∧ run.found i = run.exit.cellsFrom p.start count := by
  have hlt := capacity_lt
  have hle := h.used_le
  obtain ⟨n, _, h2, h3, _⟩ := hlaid.mem p (List.mem_of_getElem? hi)
  rw [hv] at h3
  -- the native left the top where it was, so the blocks are in use on exit as well
  have hafter : Sound ⟨run.exit⟩ := h.sameCursors (hentry ▸ hexit)
  have hused : used ⟨run.exit⟩ = s.used := by
    unfold used Scratch.heapTop
    rw [hexit.heapTop, hentry]
  -- everything from the block up to the top is found
  refine ⟨s.used - n, by omega, ?_⟩
  unfold NativeRun.found
  rw [parameter_of_placed hblock hi, PlacedArgument.start_of_address h3 (by omega), h3]
  have hcells := hafter.cells?_getD (n := n) (by omega)
  rw [hused] at hcells
  exact hcells

namespace Invoker

variable {F W : Type}

theorem argumentsFor_eq {invoker : Invoker} {signature : Signature} {values : List ScriptValue}
    {staging' : Staging}
    (hload : invoker.staging.load signature.slots values 0 leading = (.ok (), staging')) :
    invoker.argumentsFor signature values = staging'.arguments signature.physicalCount := by
  unfold argumentsFor
  rw [hload]

/-- A call whose arguments cannot be placed ends with the reason, and the native does not run. -/
theorem invoke_unplaced {invoker : Invoker} (hs : invoker.staging.Sound) {registry : Registry F}
    (meaning : F → Native W) {arguments : List ScriptValue} {name : String}
    {signature : Signature} {values : List ScriptValue} {handle : F} (w : W)
    (ha : Accepted registry.knows arguments name signature values)
    (hname : registry.find? name = some handle) {e : CallError} {s : Scratch}
    (hp : Registry.place (registry.arrayLengths.offset name)
      (invoker.argumentsFor signature values) 0 0 (invoker.argumentsFor signature values)
      registry.scratch = (.error e, s)) :
    ∃ invoker' : Invoker, invoker'.staging.Sound
      ∧ invoker.invoke (Registry.dispatcher meaning) (registry, w) arguments =
        (.error (.call e), invoker', { registry with scratch := s.closeScope registry.scratch },
          w) := by
  rcases invoker.invoke_accepted hs (Registry.dispatcher meaning) (registry, w) ha with
    ⟨_, rfl, rfl, _⟩ | ⟨staging', hs', hload, _, hinvoke⟩
  · -- there is nothing to place
    exact absurd (show (Except.ok [], registry.scratch) = _ from hp) (by simp)
  · rw [argumentsFor_eq hload] at hp
    have hcall := Registry.call_refused meaning w hname hp
    -- the arguments come back as they were
    have hkept : List.Forall₂ Rewritten (staging'.arguments signature.physicalCount)
        (staging'.arguments signature.physicalCount) := List.forall₂_same.mpr fun a _ => .refl a
    refine ⟨_, hs'.receive hkept, ?_⟩
    rw [hinvoke]
    unfold callStaged Registry.dispatcher
    dsimp only
    rw [hcall]
    rfl

/--
**A call whose arguments can be placed is answered.** The native runs once, and the answer is what
it left.
-/
theorem invoke_reached {invoker : Invoker} (hs : invoker.staging.Sound) {registry : Registry F}
    {meaning : F → Native W} {arguments : List ScriptValue} {name : String}
    {signature : Signature} {values : List ScriptValue} {handle : F} (w : W)
    (runs : List NativeRun) (hscratch : Sound registry.scratch)
    (ha : Accepted registry.knows arguments name signature values)
    (hname : registry.find? name = some handle) (hkeeps : (meaning handle).KeepsCursors)
    {placed : List PlacedArgument} {s : Scratch}
    (hp : Registry.place (registry.arrayLengths.offset name)
      (invoker.argumentsFor signature values) 0 0 (invoker.argumentsFor signature values)
      registry.scratch = (.ok placed, s)) :
    let run := (meaning handle).run s.machine (Registry.block placed) w
    ∃ invoker' : Invoker, invoker'.staging.Sound
      ∧ invoker.invoke (Registry.dispatcher fun handle => (meaning handle).noted)
          (registry, (w, runs)) arguments =
        (.ok (run.answer signature), invoker',
          { registry with scratch := (Scratch.mk run.exit).closeScope registry.scratch },
          (meaning handle s.machine (Registry.block placed) w).2.2, runs ++ [run]) := by
  intro run
  rcases invoker.invoke_accepted hs (Registry.dispatcher fun handle => (meaning handle).noted)
    (registry, (w, runs)) ha with ⟨_, rfl, rfl, hinvoke⟩ | ⟨staging', hs', hload, hstaged, hinvoke⟩
  · -- a name alone stages nothing, and the answer is the result
    have hcall := Registry.call_reached w runs hscratch hname hkeeps hp
    refine ⟨invoker, hs, ?_⟩
    rw [hinvoke]
    unfold callBare Registry.dispatcher
    dsimp only
    rw [show registry.call (fun handle => (meaning handle).noted) name [] (w, runs) = _ from hcall]
    rfl
  · rw [argumentsFor_eq hload] at hp
    have hcall := Registry.call_reached w runs hscratch hname hkeeps hp
    obtain ⟨hs'', hargs, hlaid, _, hlen⟩ := place_ok hscratch hp
    have hkept : List.Forall₂ Rewritten (staging'.arguments signature.physicalCount)
        (placed.map (·.after run.exit)) := by
      rw [← hargs]
      exact placed_rewritten hlen run.exit
    have hcount : (placed.map (·.after run.exit)).length = signature.physicalCount := by
      rw [← hkept.length_eq, Staging.arguments, ← slotCount_eq, hstaged.physical.length]
    have hroom : signature.physicalCount ≤ staging'.slots.length := by
      rw [← hcount, ← hkept.length_eq, Staging.arguments, List.length_map, List.length_take]
      exact Nat.min_le_right _ _
    refine ⟨_, hs'.receive hkept, ?_⟩
    rw [hinvoke]
    unfold callStaged Registry.dispatcher
    dsimp only
    rw [hcall]
    -- the slots are read off the exit, each under the parameter of its place
    rw [Staging.arguments, ← slotCount_eq] at hargs
    have hresults := hstaged.recovered run.exit run.found placed 0 hargs fun i p hi hv => by
      rw [Nat.zero_add]
      exact run.found_of_laid hs'' rfl (hkeeps _ _ _) rfl hlaid hi hv
    rw [← Staging.receive_results (by rw [hcount]; exact hroom), hcount] at hresults
    rw [← run.answer_eq signature, hresults]
    rfl

end Invoker

/-! ## Where the values lie -/

/-- The number of cells of something that the native writes. -/
def SlotType.cellCount : SlotType → Nat
  | .textRef => maxTextLength
  | _ => 1

/-- Each slot that the native writes has an argument with cells of its own. -/
theorem Physical.reference {types : List SlotType} {values : List ScriptValue}
    {as : List NativeArgument} (h : Physical types values as) :
    ∀ {place : Nat}, ∀ r ∈ references types place, ∃ (i : Nat) (a : NativeArgument),
      r.2 = place + i ∧ as[i]? = some a ∧ a.value? = none
        ∧ ∀ length, (a.contents length).length = r.1.cellCount := by
  induction h with
  | nil => intro place r hr; exact absurd hr (by simp [references])
  | @value type types value values a as hb _ ih =>
      intro place r hr
      rw [references, if_neg (by rw [hb.plain]; decide), hb.width] at hr
      obtain ⟨i, a', h1, h2, h3⟩ := ih r hr
      exact ⟨i + 1, a', by omega, h2, h3⟩
  | @intRef types values as _ ih =>
      intro place r hr
      rcases List.mem_cons.mp hr with rfl | hr'
      · exact ⟨0, _, rfl, rfl, rfl, fun _ => rfl⟩
      · obtain ⟨i, a, h1, h2, h3⟩ := ih r hr'
        exact ⟨i + 1, a, h1.trans (by show place + 1 + i = _; omega), h2, h3⟩
  | @floatRef types values as _ ih =>
      intro place r hr
      rcases List.mem_cons.mp hr with rfl | hr'
      · exact ⟨0, _, rfl, rfl, rfl, fun _ => rfl⟩
      · obtain ⟨i, a, h1, h2, h3⟩ := ih r hr'
        exact ⟨i + 1, a, h1.trans (by show place + 1 + i = _; omega), h2, h3⟩
  | @textRef types values as behind hlen _ ih =>
      intro place r hr
      rcases List.mem_cons.mp hr with rfl | hr'
      · exact ⟨0, _, rfl, rfl, rfl, fun _ => List.length_replicate.trans hlen⟩
      · obtain ⟨i, a, h1, h2, h3⟩ := ih r hr'
        exact ⟨i + 2, a, h1.trans (by show place + 2 + i = _; omega), h2, h3⟩

/-- **Each slot that the native writes has its block**, and what the native left there is found. -/
theorem NativeRun.found_of_reference (run : NativeRun) {placed : List PlacedArgument} {s : Scratch}
    {start : Nat} (h : Sound s) (hentry : run.entry = s.machine)
    (hexit : run.entry.SameCursors run.exit) (hblock : run.block = Registry.block placed)
    (hlaid : Laid s.machine start placed s.used) {types : List SlotType}
    {values : List ScriptValue} {as : List NativeArgument} (hphysical : Physical types values as)
    (hargs : placed.map (·.argument) = as) :
    ∀ r ∈ references types 0, ∃ p, placed[r.2]? = some p ∧ p.parameter = run.parameter r.2
      ∧ p.cells.length = r.1.cellCount ∧ r.1.cellCount ≤ (run.found r.2).length := by
  intro r hr
  obtain ⟨i, a, h1, h2, h3, h4⟩ := hphysical.reference r hr
  rw [Nat.zero_add] at h1
  rw [← hargs, List.getElem?_map] at h2
  obtain ⟨p, hi, rfl⟩ := Option.map_eq_some_iff.mp h2
  obtain ⟨count, hcount, hfound⟩ := run.found_of_laid h hentry hexit hblock hlaid hi h3
  have hcells : p.cells.length = r.1.cellCount := h4 p.length
  rw [h1, hfound, Machine.cellsFrom_length]
  refine ⟨p, hi, (NativeRun.parameter_of_placed hblock hi).symm, hcells, ?_⟩
  rw [← hcells]
  exact hcount

/-- A text that the native left is the value, in either layout. -/
theorem NativeRun.left_text (run : NativeRun) {place : Nat} {bytes : List UInt8}
    (hzero : 0 ∉ bytes) (hlen : bytes.length < maxTextLength)
    (hfirst : CellText.packedCells bytes <+: run.found place
      ∨ CellText.unpackedCells bytes <+: run.found place) :
    run.left .textRef place = .text (CodePage.decode bytes) := by
  refine valueOf_text hzero hlen ?_
  rw [List.prefix_take_iff, List.prefix_take_iff]
  refine hfirst.imp (fun h => ⟨h, ?_⟩) (fun h => ⟨h, ?_⟩)
  · exact Nat.le_trans (CellText.packedCells_length_le bytes) hlen
  · rw [CellText.unpackedCells_length]
    exact hlen

/--
**The script gets what the native left.**

Take any call that is in order, through a registry whose natives keep the cursors. Either the
arguments cannot be placed, then nothing runs and the call says why. Or one native runs once, on
arguments that are handed over as they should be, and the answer is the one that can be read
off the memory it left. Each value comes from the cells at the address that the native was
given for its slot, as many as its block has. A text without zeros that fits is the same
whether it was left packed or unpacked.
-/
theorem invoke_answers_what_was_left {F W : Type} {invoker : Invoker}
    (hs : invoker.staging.Sound) {registry : Registry F} {meaning : F → Native W}
    {scopes : List Scratch} (w : W) (hreach : Reachable registry.scratch scopes)
    (hnatives : ∀ handle, (meaning handle).KeepsCursors) {arguments : List ScriptValue}
    {name : String} {signature : Signature} {values : List ScriptValue}
    (ha : Accepted registry.knows arguments name signature values) :
    let outcome := invoker.invoke (Registry.dispatcher fun handle => (meaning handle).noted)
      (registry, (w, [])) arguments
    (outcome.2.2.2.2 = [] ∧ ∃ e, outcome.1 = .error (.call e)) ∨
    ∃ (handle : F) (run : NativeRun) (physical : List NativeArgument)
      (placed : List PlacedArgument), registry.find? name = some handle
      ∧ outcome.2.2.2.2 = [run]
      ∧ meaning handle run.entry run.block w = (run.result, run.exit, outcome.2.2.2.1)
      ∧ Physical signature.slots values physical
      ∧ Marshalled (registry.arrayLengths.offset name) physical placed run
      ∧ outcome.1 = .ok (run.answer signature)
      ∧ (∀ r ∈ references signature.slots 0, ∃ p, placed[r.2]? = some p
        ∧ p.parameter = run.parameter r.2 ∧ p.cells.length = r.1.cellCount
        ∧ r.1.cellCount ≤ (run.found r.2).length)
      ∧ ∀ (place : Nat) (bytes : List UInt8), 0 ∉ bytes → bytes.length < maxTextLength →
        (CellText.packedCells bytes <+: run.found place
          ∨ CellText.unpackedCells bytes <+: run.found place) →
        run.left .textRef place = .text (CodePage.decode bytes) := by
  have hscratch := hreach.sound.1
  have hphysical := ha.physical hs
  obtain ⟨handle, hname⟩ := Option.isSome_iff_exists.mp ha.known
  intro outcome
  cases hp : Registry.place (registry.arrayLengths.offset name)
      (invoker.argumentsFor signature values) 0 0 (invoker.argumentsFor signature values)
      registry.scratch with
  | mk answer s =>
      cases answer with
      | error e =>
          obtain ⟨invoker', _, ho⟩ := Invoker.invoke_unplaced hs
            (fun handle => (meaning handle).noted) (w, ([] : List NativeRun)) ha hname hp
          exact Or.inl ⟨congrArg (·.2.2.2.2) ho, e, congrArg (·.1) ho⟩
      | ok placed =>
          obtain ⟨hs', hargs, hlaid, _, hlen⟩ := place_ok hscratch hp
          obtain ⟨invoker', _, ho⟩ := Invoker.invoke_reached hs w [] hscratch ha hname
            (hnatives handle) hp
          have hkeeps := hnatives handle s.machine (Registry.block placed) w
          refine Or.inr ⟨handle, (meaning handle).run s.machine (Registry.block placed) w,
            invoker.argumentsFor signature values, placed, hname, congrArg (·.2.2.2.2) ho, ?_,
            hphysical, ?_, congrArg (·.1) ho, ?_, ?_⟩
          · exact congrArg (fun o => ((meaning handle s.machine (Registry.block placed) w).1,
              (meaning handle s.machine (Registry.block placed) w).2.1, o.2.2.2.1)) ho.symm
          · exact place_marshalled hscratch hp rfl rfl (ha.length_lt hphysical)
          · exact ((meaning handle).run s.machine (Registry.block placed) w).found_of_reference
              hs' rfl hkeeps rfl hlaid hphysical hargs
          · exact fun place bytes hzero hlt hfirst =>
              ((meaning handle).run s.machine (Registry.block placed) w).left_text hzero hlt hfirst

/-- A native that writes the first of two values, which is a text. -/
theorem invoke_answers_poke :
    let invoker : Invoker := {}
    let registry : Registry Unit := { natives := [("Poke", ())] }
    let meaning : Unit → Native Unit := fun _ => Native.poke 65
    let signature : Signature := ⟨[.textRef, .intRef]⟩
    let outcome := invoker.invoke (Registry.dispatcher fun handle => (meaning handle).noted)
      (registry, ((), [])) [.text "Poke", .text "SI"]
    (invoker.staging.Sound ∧ Reachable registry.scratch []
      ∧ (∀ handle, (meaning handle).KeepsCursors)
      ∧ Accepted registry.knows [.text "Poke", .text "SI"] "Poke" signature []) ∧
    ∃ run : NativeRun, outcome.2.2.2.2 = [run] ∧ outcome.1 = .ok (run.answer signature)
      ∧ ∀ r ∈ references signature.slots 0, r.1.cellCount ≤ (run.found r.2).length := by
  intro invoker registry meaning signature
  have ha : Accepted registry.knows [.text "Poke", .text "SI"] "Poke" signature [] :=
    show Accepted registry.knows (.text "Poke" :: .text "SI" :: ([] ++ [])) "Poke" signature [] from
      .full (by decide) (by decide) (by decide) (by decide) .nil (Or.inl rfl)
  have hkeeps : ∀ handle, (meaning handle).KeepsCursors := fun _ => Native.poke_keepsCursors 65
  refine ⟨⟨Staging.sound_new, .new, hkeeps, ha⟩, ?_⟩
  have hs : invoker.staging.Sound := Staging.sound_new
  rcases invoke_answers_what_was_left hs () .new hkeeps ha with
    ⟨hnone, _⟩ | ⟨_, run, _, _, _, h1, _, _, _, h2, h3, _⟩
  · exact absurd (congrArg List.length hnone) (by decide +kernel)
  · refine ⟨run, h1, h2, fun r hr => ?_⟩
    obtain ⟨_, _, _, _, h4⟩ := h3 r hr
    exact h4

end ScriptBridge
