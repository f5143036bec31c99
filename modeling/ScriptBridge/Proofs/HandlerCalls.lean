import Mathlib.Data.List.Forall2
import ScriptBridge.Proofs.WordConversions
import ScriptBridge.Provided.Natives

/-!
# When a handler runs

A program calls a provided native with a block of parameters. The signature of the native says at
which places the handler finds its arguments, and references may stand between them. So it is not
enough that there are as many parameters as plain characters: each of these must have a parameter at
its own place.

**Calls that are in order.** `ProvidedNatives.Ready` says that a name has a handler and that the block
supplies every plain character of its signature. `ParameterBlock.Passes` says what the handler then
receives for one of them. A call that is in order runs the handler once, with exactly these arguments,
and any other call answers zero and changes nothing.

The signature of a native that is provided has no arrays. This is an invariant of the natives, since
they come to be by registration alone.
-/

namespace ScriptBridge

/-! ## Places -/

/-- The plain characters of a signature with their places, the first of which is given. -/
def plainFrom (place : Nat) (slots : List SlotType) : List (SlotType × Nat) :=
  (slots.zipIdx place).filter (!·.1.isReference)

/-- **The plain characters of a signature**, with their places among all of them. -/
def Signature.plain (signature : Signature) : List (SlotType × Nat) := plainFrom 0 signature.slots

section

variable {slot : SlotType} {slots : List SlotType} {place : Nat}

theorem plainFrom_reference (h : slot.isReference = true) :
    plainFrom place (slot :: slots) = plainFrom (place + 1) slots := by
  unfold plainFrom
  rw [List.zipIdx_cons, List.filter_cons_of_neg (by simp [h])]

theorem plainFrom_plain (h : slot.isReference = false) :
    plainFrom place (slot :: slots) = (slot, place) :: plainFrom (place + 1) slots := by
  unfold plainFrom
  rw [List.zipIdx_cons, List.filter_cons_of_pos (by simp [h])]

theorem countP_le_of_plainFrom {bound : Nat} (h : ∀ entry ∈ plainFrom place slots, entry.2 < bound) :
    slots.countP (!·.isReference) ≤ bound - place := by
  induction slots generalizing place with
  | nil => exact Nat.zero_le _
  | cons slot rest ih =>
      cases hslot : slot.isReference with
      | true =>
          rw [plainFrom_reference hslot] at h
          have hrest := ih h
          rw [List.countP_cons_of_neg (by simp [hslot])]
          omega
      | false =>
          rw [plainFrom_plain hslot] at h
          have hplace := h (slot, place) List.mem_cons_self
          have hrest := ih fun entry hentry => h entry (List.mem_cons_of_mem _ hentry)
          rw [List.countP_cons_of_pos (by simp [hslot])]
          simp only at hplace
          omega

end

/-! ## Parameters -/

namespace ParameterBlock

/-- **A block supplies a plain character**: its place is below the number of parameters, and for a text
the parameter is an address that can be used. -/
structure Supplies (block : ParameterBlock) (m : Machine) (slot : SlotType × Nat) : Prop where
  inside : slot.2 < block.count
  reachable : slot.1 = .text → ∀ address, block.get? slot.2 = some address →
    m.accessibleCells address ≠ 0 ∧ m.hasData = true

/-- **What a handler receives** for a plain character: the parameter at its place, as the number that it
is, as the number whose bits it holds, or as the text that it addresses. -/
inductive Passes (block : ParameterBlock) (m : Machine) : SlotType × Nat → ScriptValue → Prop where
  | int {place : Nat} {cell : Cell} : block.get? place = some cell →
      Passes block m (.int, place) (.ofCell cell)
  | float {place : Nat} {cell : Cell} : block.get? place = some cell →
      Passes block m (.float, place) (.number (Cell.toSingle cell).toDouble)
  | text {place : Nat} {address : Cell} {text : String} : block.get? place = some address →
      m.readText? address = some text → Passes block m (.text, place) (.text text)

variable {block : ParameterBlock} {m : Machine} {place : Nat}

theorem get?_isSome : (block.get? place).isSome = true ↔ place < block.count := by
  unfold get?
  split <;> simp_all

theorem readText?_isSome {address : Cell} :
    (m.readText? address).isSome = true ↔ m.accessibleCells address ≠ 0 ∧ m.hasData = true := by
  unfold Machine.readText? Machine.readBytes? Machine.cells? Machine.index?
  rw [Option.isSome_map, Option.isSome_map, Option.isSome_map]
  split <;> simp_all

theorem supplies_cell {slot : SlotType} (h : slot ≠ .text) :
    block.Supplies m (slot, place) ↔ (block.get? place).isSome = true := by
  rw [get?_isSome]
  exact ⟨fun hsupplies => hsupplies.inside, fun hinside => ⟨hinside, fun htext => absurd htext h⟩⟩

theorem supplies_text : block.Supplies m (.text, place) ↔ (block.text? m place).isSome = true := by
  unfold text?
  constructor
  · intro hsupplies
    obtain ⟨address, haddress⟩ := Option.isSome_iff_exists.mp (get?_isSome.mpr hsupplies.inside)
    rw [haddress]
    exact readText?_isSome.mpr (hsupplies.reachable rfl address haddress)
  · intro htext
    obtain ⟨text, htext⟩ := Option.isSome_iff_exists.mp htext
    obtain ⟨address, haddress, hread⟩ := Option.bind_eq_some_iff.mp htext
    refine ⟨get?_isSome.mp (by rw [haddress]; rfl), fun _ other hother => ?_⟩
    obtain rfl : address = other := Option.some.inj (haddress.symm.trans hother)
    exact readText?_isSome.mp (by rw [hread]; rfl)

end ParameterBlock

namespace ProvidedNatives

open ParameterBlock

section

variable {block : ParameterBlock} {m : Machine} {place : Nat} {slot : SlotType}
  {slots : List SlotType}

theorem argument?_isSome (hplain : slot.isReference = false) (harray : slot ≠ .array) :
    (argument? block m place slot).isSome = true ↔ block.Supplies m (slot, place) := by
  cases slot with
  | int =>
      rw [supplies_cell (by decide), argument?, Option.isSome_map]
  | float =>
      rw [supplies_cell (by decide), argument?, Option.isSome_map, float?, Option.isSome_map]
  | text => rw [supplies_text, argument?, Option.isSome_map]
  | array => exact absurd rfl harray
  | _ => exact absurd hplain (by decide)

theorem passes_of_argument? {value : ScriptValue} (h : argument? block m place slot = some value) :
    block.Passes m (slot, place) value := by
  cases slot with
  | int =>
      obtain ⟨cell, hcell, rfl⟩ := Option.map_eq_some_iff.mp h
      exact .int hcell
  | float =>
      obtain ⟨number, hnumber, rfl⟩ := Option.map_eq_some_iff.mp h
      obtain ⟨cell, hcell, rfl⟩ := Option.map_eq_some_iff.mp hnumber
      exact .float hcell
  | text =>
      obtain ⟨text, htext, rfl⟩ := Option.map_eq_some_iff.mp h
      obtain ⟨address, haddress, hread⟩ := Option.bind_eq_some_iff.mp htext
      exact .text haddress hread
  | _ => exact absurd h (by simp [argument?])

/-- **The arguments can be read exactly if all of them are supplied.** -/
theorem arguments?_isSome (harray : .array ∉ slots) :
    (arguments? block m place slots).isSome = true ↔
      ∀ entry ∈ plainFrom place slots, block.Supplies m entry := by
  induction slots generalizing place with
  | nil => simp [arguments?, plainFrom]
  | cons slot rest ih =>
      have hrest : (arguments? block m (place + 1) rest).isSome = true ↔
          ∀ entry ∈ plainFrom (place + 1) rest, block.Supplies m entry :=
        ih fun h => harray (List.mem_cons_of_mem _ h)
      have hslot : slot ≠ .array := fun h => harray (h ▸ List.mem_cons_self)
      unfold arguments?
      cases hreference : slot.isReference with
      | true =>
          rw [if_pos rfl, plainFrom_reference hreference]
          exact hrest
      | false =>
          rw [if_neg Bool.false_ne_true, plainFrom_plain hreference, List.forall_mem_cons, ← hrest,
            ← argument?_isSome hreference hslot]
          cases argument? block m place slot with
          | none => simp
          | some value => simp [Option.isSome_map]

/-- **A handler receives the plain parameters in order**, each from its own place. -/
theorem passes_of_arguments? {arguments : List ScriptValue}
    (h : arguments? block m place slots = some arguments) :
    List.Forall₂ (block.Passes m) (plainFrom place slots) arguments := by
  induction slots generalizing place arguments with
  | nil =>
      obtain rfl := Option.some.inj h
      exact .nil
  | cons slot rest ih =>
      unfold arguments? at h
      cases hreference : slot.isReference with
      | true =>
          rw [hreference, if_pos rfl] at h
          rw [plainFrom_reference hreference]
          exact ih h
      | false =>
          rw [hreference, if_neg Bool.false_ne_true] at h
          rw [plainFrom_plain hreference]
          split at h
          · exact absurd h (by simp)
          · rename_i value hvalue
            obtain ⟨later, hlater, rfl⟩ := Option.map_eq_some_iff.mp h
            exact .cons (passes_of_argument? hvalue) (ih hlater)

end

/-! ## Natives that came to be by registration -/

variable {H W : Type}

/-- **What natives can become**, from nothing but a list of names. -/
inductive Reachable : ProvidedNatives H → Prop where
  | new (known : List String) : Reachable { known }
  | register {provided provided' : ProvidedNatives H} {name signature : String} {handler : H} :
      Reachable provided → provided.register name signature handler = .ok provided' →
      Reachable provided'
  | switch {provided : ProvidedNatives H} (running : Bool) : Reachable provided →
      Reachable { provided with running }

theorem array_not_mem_providedSlots {chars : List Char} {position : Nat} {slots : List SlotType}
    (h : Signature.providedSlots chars position = .ok slots) : .array ∉ slots := by
  induction chars generalizing position slots with
  | nil =>
      obtain rfl := Except.ok.inj h
      exact List.not_mem_nil
  | cons c rest ih =>
      unfold Signature.providedSlots at h
      split at h
      · exact absurd h (by simp)
      · exact absurd h (by simp)
      · rename_i slot hslot _
        split at h
        · rename_i later hlater
          obtain rfl := Except.ok.inj h
          rw [List.mem_cons, not_or]
          exact ⟨fun heq => hslot heq.symm, ih hlater⟩
        · exact absurd h (by simp)

theorem array_not_mem_parseProvided {text : String} {signature : Signature}
    (h : Signature.parseProvided text = .ok signature) : .array ∉ signature.slots := by
  unfold Signature.parseProvided at h
  split at h
  · rename_i slots hslots
    unfold Signature.bounded at h
    split at h
    · exact absurd h (by simp)
    · obtain rfl := Except.ok.inj h
      exact array_not_mem_providedSlots hslots
  · exact absurd h (by simp)

theorem lookup_store (name other : String) (native : ProvidedNative H)
    (entries : List (String × ProvidedNative H)) :
    (store name native entries).lookup other =
      if other = name then some native else entries.lookup other := by
  induction entries with
  | nil =>
      by_cases hother : other = name <;> simp [store, hother]
  | cons entry rest ih =>
      obtain ⟨first, earlier⟩ := entry
      unfold store
      by_cases hfirst : first = name
      · subst hfirst
        rw [if_pos rfl, List.lookup_cons, List.lookup_cons]
        by_cases hother : other = first
        · simp [hother]
        · rw [if_neg hother, beq_eq_false_iff_ne.mpr hother]
      · rw [if_neg hfirst, List.lookup_cons, List.lookup_cons, ih]
        by_cases hother : other = first
        · subst hother
          simp [hfirst]
        · rw [beq_eq_false_iff_ne.mpr hother]

/-- **No signature of a provided native has an array.** -/
theorem Reachable.array_not_mem {provided : ProvidedNatives H} (h : provided.Reachable)
    {name : String} {native : ProvidedNative H} (hfind : provided.find? name = some native) :
    .array ∉ native.signature.slots := by
  induction h generalizing name native with
  | new known => exact absurd hfind (by simp [find?])
  | @register provided provided' other text handler _ hregister ih =>
      unfold ProvidedNatives.register at hregister
      split at hregister
      · exact absurd hregister (by simp)
      split at hregister
      · exact absurd hregister (by simp)
      split at hregister
      · exact absurd hregister (by simp)
      · rename_i signature hsignature
        obtain rfl := Except.ok.inj hregister
        unfold find? at hfind
        rw [lookup_store] at hfind
        split at hfind
        · obtain rfl := Option.some.inj hfind
          exact array_not_mem_parseProvided hsignature
        · exact ih hfind
  | switch running _ ih => exact ih hfind

end ProvidedNatives

/-! ## Answers -/

/-- **A value is a cell**: the number that equals it. -/
def ScriptValue.IsCell (value : ScriptValue) (c : Cell) : Prop :=
  ∃ x, value = .number x ∧ x.integer? = some c.toInt

theorem ScriptValue.exactCell?_eq_some_iff {value : ScriptValue} {c : Cell} :
    value.exactCell? = some c ↔ value.IsCell c := by
  cases value with
  | number x =>
      unfold IsCell
      rw [exactCell?_number_iff, ← Double.integer?_eq_some_iff]
      simp
  | _ => simp [exactCell?, IsCell]

/-- **An answer has a value for each reference.** -/
def Signature.Fits (signature : Signature) (answer : Option ScriptValue) : Prop :=
  ∃ values, answer = some (.array values) ∧ values.length = signature.referenceCount

/-- **What a call answers** for what its handler answered. -/
inductive Signature.Returns (signature : Signature) (answer : Option ScriptValue) : Cell → Prop where
  | nothing : signature.referenceCount = 0 → answer = none → Returns signature answer 0
  | cell {value : ScriptValue} {c : Cell} : signature.referenceCount = 0 → answer = some value →
      value.IsCell c → Returns signature answer c
  | other {value : ScriptValue} : signature.referenceCount = 0 → answer = some value →
      (∀ c, ¬ value.IsCell c) → Returns signature answer 1
  | written : signature.referenceCount ≠ 0 → signature.Fits answer → Returns signature answer 1
  | unsuitable : signature.referenceCount ≠ 0 → ¬ signature.Fits answer →
      Returns signature answer (-1)

namespace ProvidedNatives

variable {H W : Type}

theorem outputs?_isSome {signature : Signature} {answer : Option ScriptValue} :
    (outputs? signature answer).isSome = true ↔ signature.Fits answer := by
  unfold outputs? Signature.Fits
  cases answer with
  | none => simp
  | some value => cases value <;> simp [ScriptValue.entries?]

theorem returns_plainResult {signature : Signature} (h : signature.referenceCount = 0)
    (answer : Option ScriptValue) : signature.Returns answer (plainResult answer) := by
  cases answer with
  | none => exact .nothing h rfl
  | some value =>
      unfold plainResult
      dsimp only
      cases hcell : value.exactCell? with
      | some c => exact .cell h rfl (ScriptValue.exactCell?_eq_some_iff.mp hcell)
      | none =>
          refine .other h rfl fun c hc => ?_
          rw [ScriptValue.exactCell?_eq_some_iff.mpr hc] at hcell
          exact absurd hcell (by simp)

/-- **A call answers what its handler answered**, and writes only values for all references. -/
theorem returns_finish (parameters : Parameters) (signature : Signature) (m : Machine)
    (answer : Option ScriptValue) :
    signature.Returns answer (finish parameters signature m answer).1
      ∧ (signature.referenceCount = 0 ∨ ¬ signature.Fits answer →
        (finish parameters signature m answer).2 = m) := by
  unfold finish
  by_cases hcount : signature.referenceCount = 0
  · rw [if_pos hcount]
    exact ⟨returns_plainResult hcount answer, fun _ => rfl⟩
  · rw [if_neg hcount]
    have hfits : (outputs? signature answer).isSome = true ↔ signature.Fits answer :=
      outputs?_isSome
    cases houtputs : outputs? signature answer with
    | some values =>
        rw [houtputs] at hfits
        have hanswer : signature.Fits answer := hfits.mp rfl
        exact ⟨.written hcount hanswer, fun h => absurd hanswer (h.resolve_left hcount)⟩
    | none =>
        rw [houtputs] at hfits
        have hanswer : ¬ signature.Fits answer := fun h => absurd (hfits.mpr h) (by simp)
        exact ⟨.unsuitable hcount hanswer, fun _ => rfl⟩

/-! ## Calls -/

/-- **A call that is in order**: there is a native of the name, and its plain characters are supplied. -/
structure Ready (provided : ProvidedNatives H) (name : String) (block : ParameterBlock) (m : Machine)
    (native : ProvidedNative H) : Prop where
  found : provided.find? name = some native
  supplied : ∀ slot ∈ native.signature.plain, block.Supplies m slot

/-- Handlers that note when they run, and for what, the latest last. -/
def noted (meaning : H → Handler W) : H → Handler (W × List (H × List ScriptValue)) :=
  fun handle arguments s =>
    let (answer, w) := meaning handle arguments s.1
    (answer, w, s.2 ++ [(handle, arguments)])

/-- **The runs of handlers** in a call. -/
def runs (provided : ProvidedNatives H) (meaning : H → Handler W) (name : String)
    (parameters : Parameters) (m : Machine) (w : W) : List (H × List ScriptValue) :=
  (provided.call (noted meaning) name parameters m (w, [])).2.2.2

section

variable {provided : ProvidedNatives H} {name : String} {parameters : Parameters} {m : Machine}

/-- **A call that is in order runs its handler**, whatever the handler does. -/
theorem Ready.call {native : ProvidedNative H}
    (h : provided.Ready name (parameters.block m) m native) (hreachable : provided.Reachable) :
    ∃ arguments, List.Forall₂ ((parameters.block m).Passes m) native.signature.plain arguments ∧
      ∀ {W : Type} (meaning : H → Handler W) (w : W), provided.call meaning name parameters m w =
        let (answer, w) := meaning native.handler arguments w
        let (result, m) := finish parameters native.signature m answer
        (result, m, w) := by
  have hcount : ¬ (parameters.block m).count < native.signature.argumentCount := by
    have hle : native.signature.argumentCount ≤ (parameters.block m).count - 0 :=
      countP_le_of_plainFrom fun slot hslot => (h.supplied slot hslot).inside
    omega
  have hread : (arguments? (parameters.block m) m 0 native.signature.slots).isSome = true :=
    (arguments?_isSome (hreachable.array_not_mem h.found)).mpr h.supplied
  obtain ⟨arguments, harguments⟩ := Option.isSome_iff_exists.mp hread
  refine ⟨arguments, passes_of_arguments? harguments, fun meaning w => ?_⟩
  unfold ProvidedNatives.call
  rw [h.found]
  dsimp only
  rw [if_neg hcount, harguments]

/-- **Any other call answers zero**, and nothing happens. -/
theorem call_not_ready (hreachable : provided.Reachable)
    (h : ¬ ∃ native, provided.Ready name (parameters.block m) m native) {W : Type}
    (meaning : H → Handler W) (w : W) :
    provided.call meaning name parameters m w = (0, m, w) := by
  unfold ProvidedNatives.call
  cases hfound : provided.find? name with
  | none => rfl
  | some native =>
      dsimp only
      split
      · rfl
      · cases harguments : arguments? (parameters.block m) m 0 native.signature.slots with
        | none => rfl
        | some arguments =>
            have hread : (arguments? (parameters.block m) m 0 native.signature.slots).isSome =
                true := by
              rw [harguments]
              rfl
            have hsupplied := (arguments?_isSome (hreachable.array_not_mem hfound)).mp hread
            exact absurd ⟨native, hfound, hsupplied⟩ h

end

end ProvidedNatives

/--
**A handler runs exactly for a call that is in order.** Natives have come to be by registration, in
any way, and a program calls one of them, with any parameters, in its memory or apart from it, and any
memory.

If the name has a handler, and every plain character of its signature has a parameter at its own place,
which for a text is an address that can be used, then the handler runs once. It receives the plain
parameters in order, and the call answers what `Signature.Returns` says. Memory is left alone unless
the signature has references and the handler gave a value for each of them.

Otherwise no handler runs, the call answers zero, and nothing changes.
-/
theorem handler_runs_iff_supplied {H W : Type} {provided : ProvidedNatives H}
    (hreachable : provided.Reachable) (meaning : H → Handler W) (name : String)
    (parameters : Parameters) (m : Machine) (w : W) :
    let block := parameters.block m
    let outcome := provided.call meaning name parameters m w
    let runs := provided.runs meaning name parameters m w
    (∀ native, provided.Ready name block m native →
        ∃ arguments, List.Forall₂ (block.Passes m) native.signature.plain arguments
          ∧ runs = [(native.handler, arguments)]
          ∧ outcome.2.2 = (meaning native.handler arguments w).2
          ∧ native.signature.Returns (meaning native.handler arguments w).1 outcome.1
          ∧ (native.signature.referenceCount = 0
              ∨ ¬ native.signature.Fits (meaning native.handler arguments w).1 →
            outcome.2.1 = m))
      ∧ ((¬ ∃ native, provided.Ready name block m native) → runs = [] ∧ outcome = (0, m, w)) := by
  intro block outcome runs
  refine ⟨fun native hready => ?_, fun hnone => ?_⟩
  · obtain ⟨arguments, hpasses, hcall⟩ := hready.call hreachable
    have hruns : runs = [(native.handler, arguments)] := by
      unfold runs ProvidedNatives.runs
      rw [hcall]
      rfl
    have houtcome := hcall meaning w
    obtain ⟨hreturns, hkeeps⟩ := ProvidedNatives.returns_finish parameters native.signature m
      (meaning native.handler arguments w).1
    refine ⟨arguments, hpasses, hruns, ?_⟩
    rw [show outcome = _ from houtcome]
    exact ⟨rfl, hreturns, hkeeps⟩
  · constructor
    · unfold runs ProvidedNatives.runs
      rw [ProvidedNatives.call_not_ready hreachable hnone]
    · exact ProvidedNatives.call_not_ready hreachable hnone meaning w

section

/-- Natives with one name and a signature that was given for it. -/
def ProvidedNatives.single (signature : Signature) : ProvidedNatives Unit :=
  { known := ["Ask"], natives := [("Ask", ⟨signature, ()⟩)] }

/-- A handler that answers five for one reference. -/
def Handler.five : Handler Unit := fun _ w => (some (.array [.number (Double.ofInt 5)]), w)

/-- A machine with a text behind a free cell. -/
def Machine.greeting : Machine := { cells := #[0, 0, 104, 105, 0], hasData := true, heapTop := 20 }

/-- A reference in front of a text: the text is the second parameter. -/
theorem handler_runs_iff_supplied_interleaved :
    let provided := ProvidedNatives.single ⟨[.intRef, .text]⟩
    let block := ParameterBlock.ofList [4, 8]
    let native : ProvidedNative Unit := ⟨⟨[.intRef, .text]⟩, ()⟩
    provided.Reachable ∧ provided.Ready "Ask" block .greeting native
      ∧ (∃ arguments, List.Forall₂ (block.Passes .greeting) [(.text, 1)] arguments
        ∧ provided.runs (fun _ => .five) "Ask" (.apart block) .greeting () = [((), arguments)])
      ∧ (provided.call (fun _ => .five) "Ask" (.apart block) .greeting ()).1 = 1 := by
  intro provided block native
  have hregister : ({ known := ["Ask"] } : ProvidedNatives Unit).register "Ask" "Is" () =
      .ok provided := rfl
  have hreachable : provided.Reachable := .register (.new ["Ask"]) hregister
  have hready : provided.Ready "Ask" block .greeting native := by
    refine ⟨rfl, fun slot hslot => ?_⟩
    obtain rfl : slot = (.text, 1) := List.mem_singleton.mp hslot
    refine ⟨by decide, fun _ address haddress => ?_⟩
    obtain rfl : (8 : Cell) = address := Option.some.inj haddress
    decide
  obtain ⟨hruns, _⟩ := handler_runs_iff_supplied hreachable (fun _ => Handler.five) "Ask"
    (.apart block) .greeting ()
  obtain ⟨arguments, hpasses, hone, _, hreturns, _⟩ := hruns native hready
  refine ⟨hreachable, hready, ⟨arguments, hpasses, hone⟩, ?_⟩
  -- the answer has one value for one reference
  have hfits : native.signature.Fits (some (.array [.number (Double.ofInt 5)])) := ⟨_, rfl, rfl⟩
  generalize (provided.call (fun _ => .five) "Ask" (.apart block) .greeting ()).1 = result at hreturns ⊢
  cases hreturns with
  | written _ _ => rfl
  | unsuitable _ h => exact absurd hfits h
  | nothing h _ => exact absurd h (by decide)
  | cell h _ _ => exact absurd h (by decide)
  | other h _ _ => exact absurd h (by decide)

/-- As many parameters as plain characters are not enough if a reference takes a place. -/
example : ((ProvidedNatives.single ⟨[.intRef, .int]⟩).call (fun _ => .five) "Ask"
    (.apart (.ofList [4])) .greeting ()).1 = 0 := by decide

end

end ScriptBridge
