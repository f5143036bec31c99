import Mathlib.Data.List.TakeWhile
import ScriptBridge.Proofs.Answers
import ScriptBridge.Proofs.PublicIndices
import ScriptBridge.Proofs.WriteBack

/-!
# One text on three routes

A text of a script gets into native memory in three ways: as an argument of a native, through the
scratch heap; as an output of a provided native, into a buffer of the program; and as an argument of
a public function, through the server. Each route has code of its own for the terminator, for zeros
inside the text and for the room there is.

**The bytes of a text.** `nativeBytes` is what all of them should hand over: the text in the code
page, up to its first zero. The heap gets the zero and what is behind it as well, and the reader stops
in front of it. A buffer is cut before the zero is looked for, which comes to the same as cutting
behind. The server is handed the bytes without any zero, so there is always something to hand over.

**Buffers.** The address and the size of a buffer are parameters, and an output can be written over
parameters. So a buffer is what they say when the turn of its text comes (`Parameters.TextOutput`).

**Back again.** A text that a program stores without zeros has one character for each byte, and the
bytes of these are the ones that were stored.
-/

namespace ScriptBridge

/-! ## The bytes of a text -/

namespace CodePage

/-- **The bytes of a text in native memory**: the text in the code page, up to its first zero. -/
def nativeBytes (text : String) : List UInt8 := (encode text).takeWhile (· != 0)

theorem zero_not_mem_nativeBytes (text : String) : 0 ∉ nativeBytes text := by
  intro h
  have hzero := List.mem_takeWhile_imp (p := fun b => b != 0) h
  exact absurd hzero (by decide)

theorem nativeBytes_length_le (text : String) : (nativeBytes text).length ≤ text.length := by
  rw [← encode_length text]
  exact (List.takeWhile_prefix _).length_le

/-- Bytes without a zero are the bytes of the text that they are. -/
theorem nativeBytes_decode {bytes : List UInt8} (h : 0 ∉ bytes) :
    nativeBytes (decode bytes) = bytes := by
  unfold nativeBytes
  rw [encode_decode, CellText.takeWhile_nonzero h]

end CodePage

open CodePage

/-- **An unpacked text is read** from the cells that it lies in. -/
theorem Machine.readBytes?_of_cells? {m : Machine} {address : Cell} {bytes : List UInt8}
    {behind : List Cell}
    (h : m.cells? address = some (CellText.unpackedCells bytes ++ behind)) :
    m.readBytes? address = some (bytes.takeWhile (· != 0)) := by
  unfold Machine.readBytes?
  rw [h, Option.map_some, CellText.decode_unpackedCells_cut]

/-! ## Arguments of natives -/

/-- **The texts that the script supplies** for a call, each with the place of its argument. -/
def suppliedTexts : List SlotType → List ScriptValue → Nat → List (Nat × String)
  | [], _, _ => []
  | type :: types, values, place =>
    if type.isReference then suppliedTexts types values (place + Staging.width type)
    else
      match values with
      | [] => []
      | value :: values =>
        let later := suppliedTexts types values (place + Staging.width type)
        if type = .text then (place, value.toText) :: later else later

/-- Each of them is the argument at its place. -/
theorem Physical.supplied {types : List SlotType} {values : List ScriptValue}
    {as : List NativeArgument} (h : Physical types values as) :
    ∀ {place : Nat}, ∀ supplied ∈ suppliedTexts types values place,
      ∃ i, supplied.1 = place + i ∧ as[i]? = some (.text supplied.2) := by
  induction h with
  | nil => intro place supplied hmem; exact absurd hmem List.not_mem_nil
  | @value type types value values a as hb _ ih =>
      intro place supplied hmem
      have hlater : supplied ∈ suppliedTexts types values (place + 1) →
          ∃ i, supplied.1 = place + i ∧ (a :: as)[i]? = some (.text supplied.2) := by
        intro hmem
        obtain ⟨i, hplace, hi⟩ := ih supplied hmem
        exact ⟨i + 1, by omega, hi⟩
      rw [suppliedTexts, if_neg (by rw [hb.plain]; decide), hb.width] at hmem
      by_cases htype : type = .text
      · subst htype
        rcases List.mem_cons.mp hmem with rfl | hmem
        · cases hb with
          | text _ => exact ⟨0, rfl, rfl⟩
        · exact hlater hmem
      · dsimp only at hmem
        rw [if_neg htype] at hmem
        exact hlater hmem
  | intRef _ ih =>
      intro place supplied hmem
      obtain ⟨i, hplace, hi⟩ := @ih (place + 1) supplied hmem
      exact ⟨i + 1, by omega, hi⟩
  | floatRef _ ih =>
      intro place supplied hmem
      obtain ⟨i, hplace, hi⟩ := @ih (place + 1) supplied hmem
      exact ⟨i + 1, by omega, hi⟩
  | textRef _ _ ih =>
      intro place supplied hmem
      obtain ⟨i, hplace, hi⟩ := @ih (place + 2) supplied hmem
      exact ⟨i + 2, by omega, hi⟩

/-- **A text on the heap is read** by its address, whatever was put there behind it. -/
theorem Scratch.Sound.readBytes?_text {s : Scratch} (h : Sound s) {n : Nat} {text : String}
    (hfit : n + (CellText.unpackedCells (encode text)).length ≤ s.used)
    (hcells : s.machine.cellsFrom n (CellText.unpackedCells (encode text)).length =
      CellText.unpackedCells (encode text)) :
    s.machine.readBytes? (Machine.addressOf n) = some (nativeBytes text) := by
  have hlength := CellText.unpackedCells_length (encode text)
  obtain ⟨behind, hbehind⟩ := Nat.exists_eq_add_of_le
    (show (CellText.unpackedCells (encode text)).length ≤ s.used - n by omega)
  have hread : s.machine.cells? (Machine.addressOf n) = some (CellText.unpackedCells (encode text)
      ++ s.machine.cellsFrom (n + (CellText.unpackedCells (encode text)).length) behind) := by
    unfold Machine.cells?
    rw [h.index?_addressOf (by omega), Option.map_some, h.accessibleCells (by omega), hbehind,
      Machine.cellsFrom_add, hcells]
  exact Machine.readBytes?_of_cells? hread

/-- A native reads the text that it was given under its parameter. -/
theorem NativeRun.readBytes?_of_laid (run : NativeRun) {placed : List PlacedArgument} {s : Scratch}
    {start : Nat} (h : Scratch.Sound s) (hentry : run.entry = s.machine)
    (hblock : run.block = Registry.block placed) (hlaid : Laid s.machine start placed s.used)
    {i : Nat} {p : PlacedArgument} (hi : placed[i]? = some p) {text : String}
    (htext : p.argument = .text text) :
    run.entry.readBytes? (run.parameter i) = some (nativeBytes text) := by
  obtain ⟨n, _, hfit, hparameter, hcells⟩ := hlaid.mem p (List.mem_of_getElem? hi)
  have hcontents : p.cells = CellText.unpackedCells (encode text) := by
    unfold PlacedArgument.cells
    rw [htext]
    rfl
  rw [hcontents] at hfit hcells
  rw [htext] at hparameter
  rw [NativeRun.parameter_of_placed hblock hi, hparameter, hentry]
  exact h.readBytes?_text hfit hcells

/-- A native that is reached runs once, whatever it does. -/
theorem Registry.call_runs {F W : Type} {registry : Registry F} (meaning : F → Native W)
    {name : String} {handle : F} {arguments : List NativeArgument} (w : W) (runs : List NativeRun)
    {s : Scratch} {placed : List PlacedArgument} (hname : registry.find? name = some handle)
    (hp : Registry.place (registry.arrayLengths.offset name) arguments 0 0 arguments
      registry.scratch = (.ok placed, s)) :
    (registry.call (fun handle => (meaning handle).noted) name arguments (w, runs)).world.2 =
      runs ++ [(meaning handle).run s.machine (Registry.block placed) w] := by
  unfold Registry.call Scratch.inScope Registry.callIn
  rw [hname]
  dsimp only
  rw [hp]
  rfl

/-- A call that is in order leaves what the call of its native leaves. -/
theorem Invoker.invoke_state {S : Type} {invoker : Invoker} (hs : invoker.staging.Sound)
    (dispatcher : Dispatcher S) (s : S) {arguments : List ScriptValue} {name : String}
    {signature : Signature} {values : List ScriptValue}
    (ha : Accepted (dispatcher.knows s) arguments name signature values) :
    (invoker.invoke dispatcher s arguments).2.2 =
      (dispatcher.call s name (invoker.argumentsFor signature values)).2.2 := by
  rcases invoker.invoke_accepted hs dispatcher s ha with
    ⟨_, rfl, rfl, hinvoke⟩ | ⟨staging', _, hload, _, hinvoke⟩
  · rw [hinvoke]
    show (callBare invoker dispatcher s name).2.2 = (dispatcher.call s name []).2.2
    unfold callBare
    dsimp only
    split
    · rfl
    · rfl
  · rw [hinvoke, argumentsFor_eq hload]
    unfold callStaged
    dsimp only
    split
    · rfl
    · rfl

/-- **A native reads the texts that the script supplied**, if it is called at all. -/
theorem Invoker.invoke_reads_texts {F W : Type} {invoker : Invoker}
    (hs : invoker.staging.Sound) {registry : Registry F} (meaning : F → Native W)
    (hscratch : Scratch.Sound registry.scratch) (w : W) {arguments : List ScriptValue}
    {name : String} {signature : Signature} {values : List ScriptValue}
    (ha : Accepted registry.knows arguments name signature values) :
    let outcome := invoker.invoke (Registry.dispatcher fun handle => (meaning handle).noted)
      (registry, (w, [])) arguments
    (outcome.2.2.2.2 = [] ∧ ∃ e, outcome.1 = .error (.call e)) ∨
    ∃ run : NativeRun, outcome.2.2.2.2 = [run] ∧
      ∀ supplied ∈ suppliedTexts signature.slots values 0,
        run.entry.readBytes? (run.parameter supplied.1) = some (nativeBytes supplied.2) := by
  have hphysical := ha.physical hs
  obtain ⟨handle, hname⟩ := Option.isSome_iff_exists.mp ha.known
  intro outcome
  rcases hp : Registry.place (registry.arrayLengths.offset name)
      (invoker.argumentsFor signature values) 0 0 (invoker.argumentsFor signature values)
      registry.scratch with ⟨answer, s⟩
  cases answer with
  | error e =>
      obtain ⟨invoker', _, hrefused⟩ := Invoker.invoke_unplaced hs
        (fun handle => (meaning handle).noted) (w, ([] : List NativeRun)) ha hname hp
      exact .inl ⟨congrArg (·.2.2.2.2) hrefused, e, congrArg (·.1) hrefused⟩
  | ok placed =>
      obtain ⟨hsound, hargs, hlaid, _, _⟩ := place_ok hscratch hp
      have hruns : outcome.2.2.2.2 =
          [(meaning handle).run s.machine (Registry.block placed) w] := by
        have hstate := invoker.invoke_state hs
          (Registry.dispatcher fun handle => (meaning handle).noted) (registry, (w, [])) ha
        exact (congrArg (·.2.2) hstate).trans (Registry.call_runs meaning w [] hname hp)
      refine .inr ⟨_, hruns, fun supplied hmem => ?_⟩
      obtain ⟨i, hplace, hi⟩ := hphysical.supplied supplied hmem
      rw [Nat.zero_add] at hplace
      rw [← hargs, List.getElem?_map] at hi
      obtain ⟨p, hp, htext⟩ := Option.map_eq_some_iff.mp hi
      rw [hplace]
      exact NativeRun.readBytes?_of_laid _ hsound rfl rfl hlaid hp htext

/-! ## Outputs of provided natives -/

/-- **A buffer for a text**: the parameter addresses the cell at an index, and a text may take no more
than `limit` of the cells from there on. -/
inductive ParameterBlock.Buffer (block : ParameterBlock) (signature : Signature) (m : Machine)
    (place : Nat) (address : Cell) (index limit : Nat) : Prop
  | mk {room : Nat} : block.get? place = some address → m.Usable address index room →
      block.LimitedTo signature place room limit → Buffer block signature m place address index limit

namespace ParameterBlock

variable {block block' : ParameterBlock} {signature : Signature} {m m' : Machine} {place room : Nat}

theorem LimitedTo.le {limit : Nat} (h : block.LimitedTo signature place room limit) :
    limit ≤ room := by
  cases h with
  | size _ _ _ => exact Nat.min_le_right _ _
  | region _ => exact Nat.le_refl _

/-- The limit of a text depends on what the parameters are. -/
theorem LimitedTo.congr {limit : Nat} (hsame : ∀ i, block'.get? i = block.get? i)
    (h : block.LimitedTo signature place room limit) :
    block'.LimitedTo signature place room limit := by
  cases h with
  | size hplace hsize hpos => exact .size hplace ((hsame _).trans hsize) hpos
  | region hnone =>
      exact .region fun size hplace hsize => hnone size hplace ((hsame _).symm.trans hsize)

/-- A buffer depends on what the parameters are, and not on what the cells hold. -/
theorem Buffer.congr {address : Cell} {index limit : Nat}
    (hsame : ∀ i, block'.get? i = block.get? i) (hrest : m = { m' with cells := m.cells })
    (h : block.Buffer signature m place address index limit) :
    block'.Buffer signature m' place address index limit := by
  obtain ⟨haddress, husable, hlimit⟩ := h
  exact ⟨(hsame _).trans haddress, husable.of_rest hrest, hlimit.congr hsame⟩

/-- **A text whose place can be used is put there**: as much of it as its limit lets, and a
terminator. -/
theorem SlotWritten.text {text : String} {address : Cell} {index limit : Nat}
    (h : block.SlotWritten signature m (.textRef, place) (.text text) m')
    (hbuffer : block.Buffer signature m place address index limit) :
    m.Replaced index (CellText.unpackedCells ((encode text).take (limit - 1))) m'
      ∧ (CellText.unpackedCells ((encode text).take (limit - 1))).length =
        min limit (text.length + 1) := by
  obtain ⟨haddress, husable, hlimit⟩ := hbuffer
  cases h with
  | missing hnone => exact absurd (haddress.symm.trans hnone) (by simp)
  | unusable haddress' hnone =>
      rw [Option.some.inj (haddress.symm.trans haddress')] at husable
      exact absurd husable (hnone _ _)
  | written htarget hreplaced =>
      cases htarget with
      | mk haddress' husable' hlimit' hrow _ =>
          obtain rfl := Option.some.inj (haddress.symm.trans haddress')
          obtain ⟨rfl, rfl⟩ := husable.unique husable'
          obtain rfl := hlimit.unique hlimit'
          cases hrow with
          | text hrow hlength =>
              subst hrow
              exact ⟨hreplaced, hlength⟩
          | noText hno => exact absurd rfl (hno text)

/-- What a handler receives is one value. -/
theorem Passes.unique {slot : SlotType × Nat} {value value' : ScriptValue}
    (h : block.Passes m slot value) (h' : block.Passes m slot value') : value = value' := by
  cases h with
  | int hcell =>
      cases h' with
      | int hcell' => rw [Option.some.inj (hcell.symm.trans hcell')]
  | float hcell =>
      cases h' with
      | float hcell' => rw [Option.some.inj (hcell.symm.trans hcell')]
  | text haddress hread =>
      cases h' with
      | text haddress' hread' =>
          obtain rfl := Option.some.inj (haddress.symm.trans haddress')
          rw [Option.some.inj (hread.symm.trans hread')]

end ParameterBlock

namespace Parameters

variable {parameters : Parameters} {signature : Signature} {m m' : Machine} {place : Nat}

/-- **No value is written into a row of cells**, whichever turn it is. -/
def Leaves (parameters : Parameters) (signature : Signature)
    (entries : List ((SlotType × Nat) × ScriptValue)) (m : Machine) (index count : Nat) : Prop :=
  ∀ entry between, parameters.Turn signature entries m entry between → ∀ start row,
    (parameters.block between).Target signature between entry.1 entry.2 start row →
    start + row.length ≤ index ∨ index + count ≤ start

/-- **A text among the outputs of a call**, which stays as it is written: in its turn it has a buffer,
and no later output reaches into what it takes of that. -/
inductive TextOutput (parameters : Parameters) (signature : Signature) (m : Machine) (place : Nat)
    (text : String) (address : Cell) (limit : Nat) : List ((SlotType × Nat) × ScriptValue) → Prop
  | mk {earlier later : List ((SlotType × Nat) × ScriptValue)} {between written : Machine}
      {index : Nat} :
      parameters.WrittenInTurn signature earlier m between →
      (parameters.block between).Buffer signature between place address index limit →
      (parameters.block between).SlotWritten signature between (.textRef, place) (.text text) written →
      parameters.Leaves signature later written index (min limit (text.length + 1)) →
      TextOutput parameters signature m place text address limit
        (earlier ++ ((.textRef, place), .text text) :: later)

/-- A row that no value is written into is as it was. -/
theorem WrittenInTurn.cellsFrom {entries : List ((SlotType × Nat) × ScriptValue)}
    (h : parameters.WrittenInTurn signature entries m m') {index count : Nat}
    (hleaves : parameters.Leaves signature entries m index count) :
    m'.cellsFrom index count = m.cellsFrom index count := by
  refine Machine.cellsFrom_congr fun i hlow hhigh => ?_
  by_contra hchanged
  obtain ⟨_, _, hframe⟩ := h.frame
  obtain ⟨entry, between, hturn, start, row, htarget, hstart, hstop⟩ := hframe i hchanged
  have := hleaves entry between hturn start row htarget
  omega

/-- **A text that a handler gave is read at its buffer** once all outputs are written, up to its
first zero and to its limit. -/
theorem TextOutput.readBytes? {outputs : List ((SlotType × Nat) × ScriptValue)} {text : String}
    {address : Cell} {limit : Nat}
    (h : parameters.TextOutput signature m place text address limit outputs)
    (hwritten : parameters.WrittenInTurn signature outputs m m') :
    m'.readBytes? address = some ((nativeBytes text).take (limit - 1)) := by
  cases h with
  | @mk earlier later between written index hearlier hbuffer hslot hleaves =>
      -- what is done in turn has one outcome, so the call comes through the same memories
      obtain ⟨before, hbefore, hrest⟩ := hwritten.split
      obtain rfl := hbefore.unique hearlier
      cases hrest with
      | cons hslot' hlater =>
          obtain rfl := hslot'.unique hslot
          obtain ⟨hreplaced, hlength⟩ := hslot.text hbuffer
          obtain ⟨haddress, husable, hlimit⟩ := hbuffer
          -- neither the text itself nor the later outputs move a cursor
          obtain ⟨hafter, _, _⟩ := hlater.frame
          have husable' : m'.Usable address index _ :=
            husable.of_rest (by rw [Machine.rest_trans hreplaced.rest hafter])
          obtain ⟨hindex, hroom⟩ := Machine.usable_iff.mp husable'
          have hrow : m'.cellsFrom index (min limit (text.length + 1)) =
              CellText.unpackedCells ((encode text).take (limit - 1)) := by
            rw [hlater.cellsFrom hleaves, ← hlength]
            exact hreplaced.written
          obtain ⟨behind, hbehind⟩ := Nat.exists_eq_add_of_le
            (Nat.le_trans (Nat.min_le_left limit (text.length + 1)) hlimit.le)
          have hcells : m'.cells? address = some (CellText.unpackedCells
              ((encode text).take (limit - 1)) ++
                m'.cellsFrom (index + min limit (text.length + 1)) behind) := by
            unfold Machine.cells?
            rw [hindex, Option.map_some, hroom, hbehind, Machine.cellsFrom_add, hrow]
          rw [Machine.readBytes?_of_cells? hcells, nativeBytes, List.take_takeWhile]

/-- Parameters that no value is written to address the buffer of a text from the start. -/
theorem TextOutput.get? {outputs : List ((SlotType × Nat) × ScriptValue)} {text : String}
    {address : Cell} {limit : Nat}
    (h : parameters.TextOutput signature m place text address limit outputs)
    (hspared : parameters.Spared signature outputs m) :
    (parameters.block m).get? place = some address := by
  cases h with
  | mk hearlier hbuffer _ _ =>
      obtain ⟨haddress, _, _⟩ := hbuffer
      rw [← hspared.get? hearlier, haddress]

/-- **Parameters that no value is written to** give the same buffers in each turn. -/
theorem Spared.buffer_iff {entries : List ((SlotType × Nat) × ScriptValue)}
    {entry : (SlotType × Nat) × ScriptValue} {between : Machine}
    (h : parameters.Spared signature entries m)
    (hturn : parameters.Turn signature entries m entry between) {address : Cell} {index limit : Nat} :
    (parameters.block between).Buffer signature between place address index limit ↔
      (parameters.block m).Buffer signature m place address index limit := by
  obtain ⟨rfl, hearlier⟩ := hturn
  have hsame := h.get? hearlier
  obtain ⟨hrest, _, _⟩ := hearlier.frame
  exact ⟨ParameterBlock.Buffer.congr (fun i => (hsame i).symm) hrest,
    ParameterBlock.Buffer.congr hsame (by rw [hrest])⟩

end Parameters

namespace ProvidedNatives

variable {H W : Type} {provided : ProvidedNatives H} {meaning : H → Handler W} {name : String}
  {parameters : Parameters} {m : Machine} {w : W} {native : ProvidedNative H}
  {values : List ScriptValue}

/-- **A call that is answered**: it is in order, and its handler gives a value for each reference. -/
structure Answered (provided : ProvidedNatives H) (meaning : H → Handler W) (name : String)
    (parameters : Parameters) (m : Machine) (w : W) (native : ProvidedNative H)
    (values : List ScriptValue) : Prop where
  reachable : provided.Reachable
  whole : m.Whole
  ready : provided.Ready name (parameters.block m) m native
  answer : ∃ arguments, List.Forall₂ ((parameters.block m).Passes m) native.signature.plain arguments
    ∧ (meaning native.handler arguments w).1 = some (.array values)
  count : values.length = native.signature.referenceCount

theorem Answered.writtenInTurn (h : provided.Answered meaning name parameters m w native values) :
    parameters.WrittenInTurn native.signature (native.signature.references.zip values) m
      (provided.call meaning name parameters m w).2.1 := by
  obtain ⟨arguments, hpasses, hanswer⟩ := h.answer
  obtain ⟨received, hreceived, hcall⟩ := h.ready.call h.reachable
  have hunique : Relator.RightUnique ((parameters.block m).Passes m) := fun _ _ _ h h' => h.unique h'
  obtain rfl : arguments = received := hunique.forall₂ hpasses hreceived
  have hafter : (provided.call meaning name parameters m w).2.1 =
      (finish parameters native.signature m (some (.array values))).2 := by
    rw [hcall meaning w, ← hanswer]
  rw [hafter]
  exact writtenInTurn_finish h.whole h.count

/-- **A text that a handler gave is read by the program**: all of it if it has room, and otherwise its
first characters. -/
theorem Answered.reads_text (h : provided.Answered meaning name parameters m w native values)
    {place limit : Nat} {text : String} {address : Cell}
    (hout : parameters.TextOutput native.signature m place text address limit
      (native.signature.references.zip values)) :
    let after := (provided.call meaning name parameters m w).2.1
    after.readBytes? address = some ((nativeBytes text).take (limit - 1)) ∧
      ∃ read, after.readText? address = some read
        ∧ (parameters.Spared native.signature (native.signature.references.zip values) m →
          (parameters.block after).text? after place = some read)
        ∧ read.toList = (decode (nativeBytes text)).toList.take (limit - 1)
        ∧ (text.length + 1 ≤ limit → read = decode (nativeBytes text)) := by
  intro after
  have hread : after.readBytes? address = some ((nativeBytes text).take (limit - 1)) :=
    hout.readBytes? h.writtenInTurn
  have htext : after.readText? address = some (decode ((nativeBytes text).take (limit - 1))) := by
    unfold Machine.readText?
    rw [hread, Option.map_some]
  refine ⟨hread, _, htext, fun hspared => ?_, ?_, fun hroom => ?_⟩
  · have haddress := hout.get? hspared
    rw [← List.append_nil (native.signature.references.zip values)] at hspared
    unfold ParameterBlock.text?
    rw [hspared.get? h.writtenInTurn, haddress, Option.bind_some, htext]
  · rw [toList_decode, toList_decode, List.map_take]
  · have hlength := nativeBytes_length_le text
    rw [List.take_of_length_le (by omega)]

end ProvidedNatives

/-! ## Arguments of public functions -/

/-- The bytes of the text that an argument is, if it is one. -/
def ArgumentValue.handedOver : ArgumentValue → List (List UInt8)
  | .text value => [nativeBytes value]
  | _ => []

/-- **A server that notes the texts that are pushed**, the latest last. -/
def ServerFunctions.heard {W : Type} (server : ServerFunctions W) :
    ServerFunctions (W × List (List UInt8)) where
  findPublic := beside server.findPublic
  push := beside server.push
  pushArray := beside server.pushArray
  pushText := server.pushText.map fun f program bytes s =>
    let (answer, w) := f program bytes s.1
    (answer, w, s.2 ++ [bytes])
  exec := beside server.exec
  release := beside server.release

namespace PublicCaller

/-- **There is always something to hand over**, and it is the bytes of the text. -/
theorem pushedBytes_eq (text : String) : pushedBytes text = nativeBytes text := by
  have hzero : (nativeBytes text).contains 0 = false :=
    Bool.eq_false_iff.mpr fun h => zero_not_mem_nativeBytes text (List.contains_iff_mem.mp h)
  show (zeroEnded? (nativeBytes text)).getD [] = nativeBytes text
  unfold zeroEnded?
  rw [hzero]
  rfl

section

variable {W : Type} (server : ServerFunctions W) (w : W) (told : List (List UInt8))

/-- A push that goes well notes the text that its argument is. -/
theorem push_heard (program : ProgramId) (argument : ArgumentValue) :
    ∃ more, push server.heard program argument (w, told) =
        ((push server program argument w).1, (push server program argument w).2, told ++ more)
      ∧ more <+: argument.handedOver
      ∧ ∀ taken, (push server program argument w).1 = .ok taken → more = argument.handedOver := by
  cases argument with
  | integer value =>
      refine ⟨[], ?_, List.prefix_rfl, fun _ _ => rfl⟩
      simp only [push, ServerFunctions.heard, ServerFunctions.run_beside, List.append_nil]
  | float value =>
      refine ⟨[], ?_, List.prefix_rfl, fun _ _ => rfl⟩
      simp only [push, ServerFunctions.heard, ServerFunctions.run_beside, List.append_nil]
  | cells values =>
      refine ⟨[], ?_, List.prefix_rfl, fun _ _ => rfl⟩
      simp only [push, ServerFunctions.heard, ServerFunctions.run_beside, List.append_nil]
  | text text =>
      unfold push ServerFunctions.heard ServerFunctions.run ArgumentValue.handedOver
      dsimp only
      rw [pushedBytes_eq]
      cases server.pushText with
      | none => exact ⟨[], by rw [List.append_nil]; rfl, List.nil_prefix, fun _ h => by cases h⟩
      | some f => exact ⟨[nativeBytes text], rfl, List.prefix_rfl, fun _ _ => rfl⟩

/-- Texts are pushed in order, up to the first push that fails. -/
theorem pushAll_heard (program : ProgramId) (arguments : List ArgumentValue) (first : Option Cell) :
    ∃ more, pushAll server.heard program arguments first (w, told) =
        ((pushAll server program arguments first w).1,
          (pushAll server program arguments first w).2.1,
          (pushAll server program arguments first w).2.2, told ++ more)
      ∧ more <+: arguments.flatMap ArgumentValue.handedOver
      ∧ ((pushAll server program arguments first w).1 = .ok () →
        more = arguments.flatMap ArgumentValue.handedOver) := by
  induction arguments generalizing first w told with
  | nil => exact ⟨[], by rw [List.append_nil]; rfl, List.prefix_rfl, fun _ => rfl⟩
  | cons argument rest ih =>
      obtain ⟨text, hpush, hprefix, hall⟩ := push_heard server w told program argument
      unfold pushAll
      rw [hpush, List.flatMap_cons]
      generalize push server program argument w = pushed at hall ⊢
      obtain ⟨answer, w'⟩ := pushed
      cases answer with
      | error code =>
          exact ⟨text, rfl, hprefix.trans (List.prefix_append _ _), fun h => by cases h⟩
      | ok taken =>
          obtain rfl := hall taken rfl
          obtain ⟨more, hrest, hmore, hdone⟩ := ih w' (told ++ argument.handedOver) (first <|> taken)
          refine ⟨argument.handedOver ++ more, ?_, (List.prefix_append_right_inj _).mpr hmore,
            fun hok => congrArg _ (hdone hok)⟩
          rw [← List.append_assoc]
          exact hrest

/-- Pushing and executing notes the texts that are pushed. -/
theorem execute_heard (program : ProgramId) (index : Cell) (arguments : List ArgumentValue) :
    ∃ more, execute server.heard program index arguments (w, []) =
        ((execute server program index arguments w).1,
          (execute server program index arguments w).2, more)
      ∧ more <+: arguments.reverse.flatMap ArgumentValue.handedOver
      ∧ ∀ value, (execute server program index arguments w).1 = .ok value →
        more = arguments.reverse.flatMap ArgumentValue.handedOver := by
  have hrelease : server.heard.release = ServerFunctions.beside server.release := rfl
  obtain ⟨more, hpush, hprefix, hall⟩ := pushAll_heard server w [] program arguments.reverse none
  unfold execute
  rw [hpush, List.nil_append]
  generalize pushAll server program arguments.reverse none w = pushed at hall ⊢
  obtain ⟨answer, first, w'⟩ := pushed
  cases answer with
  | error code =>
      refine ⟨more, ?_, hprefix, fun _ h => by cases h⟩
      simp only [release_beside hrelease]
  | ok _ =>
      refine ⟨more, ?_, hprefix, fun _ _ => hall rfl⟩
      have hexec := ServerFunctions.run_beside server.exec program index w' more
      dsimp only
      rw [show server.heard.exec = ServerFunctions.beside server.exec from rfl, hexec]
      simp only [release_beside hrelease]

/-- **A call hands over the texts among its arguments**, from the last one on. All of them if it
succeeds, and noting them changes nothing. -/
theorem call_heard (caller : PublicCaller) (name : String) (arguments : List ArgumentValue) :
    ∃ more, caller.call server.heard name arguments (w, []) =
        ((caller.call server name arguments w).1, (caller.call server name arguments w).2.1,
          (caller.call server name arguments w).2.2, more)
      ∧ more <+: arguments.reverse.flatMap ArgumentValue.handedOver
      ∧ ∀ value, (caller.call server name arguments w).1 = .ok value →
        more = arguments.reverse.flatMap ArgumentValue.handedOver := by
  have hfind : server.heard.findPublic = ServerFunctions.beside server.findPublic := rfl
  rcases caller.call_cases with ⟨e, hcall⟩ | ⟨program, _, hcall⟩
  · refine ⟨[], ?_, List.nil_prefix, fun value hok => ?_⟩
    · rw [hcall, hcall]
    · rw [hcall] at hok
      cases hok
  · rw [hcall, hcall, caller.findIndex_beside hfind]
    rcases caller.findIndex server program name w with ⟨found, caller', w'⟩
    cases found with
    | none => exact ⟨[], rfl, List.nil_prefix, fun _ h => by cases h⟩
    | some index =>
        obtain ⟨more, hexecute, hprefix, hall⟩ := execute_heard server w' program index arguments
        dsimp only
        rw [hexecute]
        generalize execute server program index arguments w' = executed at hall ⊢
        obtain ⟨answer, left⟩ := executed
        cases answer with
        | error code => exact ⟨more, rfl, hprefix, fun _ h => by cases h⟩
        | ok value => exact ⟨more, rfl, hprefix, fun _ _ => hall value rfl⟩

end

end PublicCaller

/-! ## Texts that a program stores -/

/-- **Bytes lie at an address as a text**, in one layout or the other, with anything behind it. -/
inductive Machine.Stores (m : Machine) (address : Cell) (bytes : List UInt8) : Prop
  | packed {behind : List Cell} :
      m.cells? address = some (CellText.packedCells bytes ++ behind) → Stores m address bytes
  | unpacked {behind : List Cell} :
      m.cells? address = some (CellText.unpackedCells bytes ++ behind) → Stores m address bytes

/-- A text is read as it is stored. -/
theorem Machine.Stores.readBytes? {m : Machine} {address : Cell} {bytes : List UInt8}
    (h : m.Stores address bytes) (hzero : 0 ∉ bytes) : m.readBytes? address = some bytes := by
  unfold Machine.readBytes?
  cases h with
  | packed hcells => rw [hcells, Option.map_some, CellText.decode_packedCells hzero]
  | unpacked hcells => rw [hcells, Option.map_some, CellText.decode_unpackedCells hzero]

/-- **A handler receives a text as it is stored**, one character for each byte. -/
theorem ParameterBlock.Passes.of_stores {block : ParameterBlock} {m : Machine} {place : Nat}
    {address : Cell} {bytes : List UInt8} {value : ScriptValue} (h : m.Stores address bytes)
    (hzero : 0 ∉ bytes) (haddress : block.get? place = some address)
    (hpasses : block.Passes m (.text, place) value) : value = .text (decode bytes) := by
  have hread : m.readText? address = some (decode bytes) := by
    unfold Machine.readText?
    rw [h.readBytes? hzero, Option.map_some]
  exact hpasses.unique (.text haddress hread)

/-! ## All routes -/

/--
**All routes hand over the same text.** Take any text, and what `nativeBytes` says of it.

A call of a native that is in order either runs nothing, because its arguments have no room or no
length, or runs the native once; and the native reads the bytes of each text that the script supplied
at the address that it received for it.

A provided native is called, and its handler gives a value for each reference. A text among these,
whose cells no later output is written to, is read by the program up to the limit of its buffer. If
the buffer has a cell for each character and one more, it is read as all of its bytes. The buffer is
what the parameters say when it is the turn of the text. Unless an output is written over the
parameters themselves that is what they said to begin with, and the text is read under its parameter.

A call of a public function hands the bytes of its texts to the server, the last one first, each of
them once and nothing in place of one. A call that succeeds has handed over all of them.

So bytes without a zero that a program stores, in either layout, come to a handler as a text which
becomes the same bytes if the handler gives it back and there is room.
-/
theorem routes_hand_over_the_same_text :
    (∀ {F W : Type} {invoker : Invoker}, invoker.staging.Sound →
      ∀ {registry : Registry F} {scopes : List Scratch},
      Scratch.Reachable registry.scratch scopes → ∀ (meaning : F → Native W) (w : W)
        {arguments : List ScriptValue} {name : String} {signature : Signature}
        {values : List ScriptValue}, Accepted registry.knows arguments name signature values →
      let outcome := invoker.invoke (Registry.dispatcher fun handle => (meaning handle).noted)
        (registry, (w, [])) arguments
      (outcome.2.2.2.2 = [] ∧ ∃ e, outcome.1 = .error (.call e)) ∨
        ∃ run : NativeRun, outcome.2.2.2.2 = [run] ∧
          ∀ supplied ∈ suppliedTexts signature.slots values 0,
            run.entry.readBytes? (run.parameter supplied.1) = some (nativeBytes supplied.2)) ∧
    (∀ {H W : Type} {provided : ProvidedNatives H} {meaning : H → Handler W} {name : String}
      {parameters : Parameters} {m : Machine} {w : W} {native : ProvidedNative H}
      {values : List ScriptValue}, provided.Answered meaning name parameters m w native values →
      let outputs := native.signature.references.zip values
      let after := (provided.call meaning name parameters m w).2.1
      (∀ {place limit : Nat} {text : String} {address : Cell},
        parameters.TextOutput native.signature m place text address limit outputs →
        after.readBytes? address = some ((nativeBytes text).take (limit - 1)) ∧
          ∃ read, after.readText? address = some read
            ∧ (parameters.Spared native.signature outputs m →
              (parameters.block after).text? after place = some read)
            ∧ read.toList = (decode (nativeBytes text)).toList.take (limit - 1)
            ∧ (text.length + 1 ≤ limit → read = decode (nativeBytes text))) ∧
      (parameters.Spared native.signature outputs m → ∀ {entry between},
        parameters.Turn native.signature outputs m entry between →
        ∀ {place index limit : Nat} {address : Cell},
          (parameters.block between).Buffer native.signature between place address index limit ↔
            (parameters.block m).Buffer native.signature m place address index limit)) ∧
    (∀ {W : Type} (server : ServerFunctions W) (w : W) (caller : PublicCaller) (name : String)
      (arguments : List ArgumentValue),
      ∃ told, caller.call server.heard name arguments (w, []) =
          ((caller.call server name arguments w).1, (caller.call server name arguments w).2.1,
            (caller.call server name arguments w).2.2, told)
        ∧ told <+: arguments.reverse.flatMap ArgumentValue.handedOver
        ∧ ∀ value, (caller.call server name arguments w).1 = .ok value →
          told = arguments.reverse.flatMap ArgumentValue.handedOver) ∧
    ∀ {bytes : List UInt8} {m : Machine} {source : Cell}, 0 ∉ bytes → m.Stores source bytes →
      (∀ {block : ParameterBlock} {place : Nat} {value : ScriptValue},
        block.get? place = some source → block.Passes m (.text, place) value →
        value = .text (decode bytes)) ∧
      ∀ {H W : Type} {provided : ProvidedNatives H} {meaning : H → Handler W} {name : String}
        {parameters : Parameters} {w : W} {native : ProvidedNative H} {values : List ScriptValue},
        provided.Answered meaning name parameters m w native values →
        ∀ {place limit : Nat} {address : Cell},
        parameters.TextOutput native.signature m place (decode bytes) address limit
          (native.signature.references.zip values) → bytes.length + 1 ≤ limit →
        (provided.call meaning name parameters m w).2.1.readBytes? address = some bytes := by
  refine ⟨fun hs _ _ hreach meaning w _ _ _ _ ha =>
      Invoker.invoke_reads_texts hs meaning hreach.sound.1 w ha,
    fun hanswered => ⟨fun hout => hanswered.reads_text hout, fun hspared _ _ hturn _ _ _ _ =>
      hspared.buffer_iff hturn⟩,
    fun server w caller name arguments => PublicCaller.call_heard server w caller name arguments,
    fun hzero hstores => ⟨fun haddress hpasses => hpasses.of_stores hstores hzero haddress, ?_⟩⟩
  intro H W provided meaning name parameters w native values hanswered place limit address hout hroom
  obtain ⟨hread, _⟩ := hanswered.reads_text hout
  rw [hread, nativeBytes_decode hzero, List.take_of_length_le (by omega)]

/-- A server that takes everything. -/
def ServerFunctions.taking : ServerFunctions Unit where
  findPublic := some fun _ _ w => (.ok 0, w)
  push := some fun _ _ w => (.ok (), w)
  pushArray := some fun _ _ w => (.ok 0, w)
  pushText := some fun _ _ w => (.ok 0, w)
  exec := some fun _ _ w => (.ok 1, w)
  release := some fun _ _ w => (.ok (), w)

/-- A text with a zero inside is given to a native and to a public function, and a text that a program
stores is given back by a handler, into a buffer with room for it. -/
theorem routes_hand_over_the_same_text_zero :
    let registry : Registry Unit := { natives := [("Poke", ())] }
    let outcome := ({} : Invoker).invoke (Registry.dispatcher fun _ => (Native.poke 65).noted)
      (registry, ((), [])) [.text "Poke", .text "s", .text "h\x00i"]
    let provided := ProvidedNatives.single ⟨[.text, .textRef]⟩
    let after := (provided.call (fun _ => .answering [.text "hi"]) "Ask"
      (.apart (ParameterBlock.ofList [8, 4])) .greeting ()).2.1
    let caller : PublicCaller := { hasExports := true, program := some 3 }
    (∃ run : NativeRun, outcome.2.2.2.2 = [run]
      ∧ run.entry.readBytes? (run.parameter 0) = some [104])
      ∧ after.readBytes? 4 = some [104, 105]
      ∧ (caller.call ServerFunctions.taking.heard "OnTest" [.text "h\x00i", .integer 5, .text "a"]
        ((), [])).2.2.2 = [[97], [104]] := by
  intro registry outcome provided after caller
  obtain ⟨hnative, hoffer, hpublic, hback⟩ := routes_hand_over_the_same_text
  refine ⟨?_, ?_, ?_⟩
  · have hs : ({} : Invoker).staging.Sound := Staging.sound_new
    have ha : Accepted registry.knows (.text "Poke" :: .text "s" :: ([.text "h\x00i"] ++ [])) "Poke"
        ⟨[.text]⟩ [.text "h\x00i"] :=
      .full (by decide) (by decide) (by decide) (by decide)
        (.cons ⟨_, .text (by decide)⟩ .nil) (.inl rfl)
    rcases hnative hs .new (fun _ => Native.poke 65) () ha with ⟨hnone, _⟩ | ⟨run, hrun, hreads⟩
    · exact absurd (congrArg List.length hnone) (by decide +kernel)
    · exact ⟨run, hrun, hreads (0, "h\x00i") (by decide)⟩
  · have hregister : ({ known := ["Ask"] } : ProvidedNatives Unit).register "Ask" "sS" () =
        .ok provided := rfl
    have hstores : Machine.greeting.Stores 8 [104, 105] := @Machine.Stores.unpacked _ _ _ [] (by decide)
    have hanswered : provided.Answered (fun _ => Handler.answering [.text "hi"]) "Ask"
        (.apart (ParameterBlock.ofList [8, 4])) .greeting () ⟨⟨[.text, .textRef]⟩, ()⟩
        [.text "hi"] := by
      refine ⟨.register (.new ["Ask"]) hregister, ⟨fun _ => by decide, fun _ => by decide⟩,
        ⟨rfl, fun slot hslot => ?_⟩, ⟨[.text "hi"], ?_, rfl⟩, rfl⟩
      · obtain rfl : slot = (.text, 0) := List.mem_singleton.mp hslot
        refine ⟨by decide, fun _ address haddress => ?_⟩
        obtain rfl : (8 : Cell) = address := Option.some.inj haddress
        decide
      · exact .cons (.text rfl (by decide)) .nil
    have husable : Machine.greeting.Usable 4 1 4 := Machine.usable_iff.mpr (by decide)
    have hbuffer : (ParameterBlock.ofList [8, 4]).Buffer ⟨[.text, .textRef]⟩ .greeting 1 4 1 4 :=
      .mk rfl husable (.region fun _ _ h => by cases h)
    have hout : (Parameters.apart (ParameterBlock.ofList [8, 4])).TextOutput ⟨[.text, .textRef]⟩
        .greeting 1 (decode [104, 105]) 4 4 [((.textRef, 1), .text (decode [104, 105]))] :=
      @Parameters.TextOutput.mk _ _ _ _ _ _ _ [] [] _ _ _ .nil hbuffer
        (ProvidedNatives.slotWritten_writeOne hanswered.whole rfl (by decide))
        fun _ _ ⟨hentries, _⟩ => absurd hentries (by simp)
    exact (hback (by decide) hstores).2 hanswered hout (by decide)
  · obtain ⟨told, hcall, _, hall⟩ := hpublic ServerFunctions.taking () caller "OnTest"
      [.text "h\x00i", .integer 5, .text "a"]
    rw [hcall]
    exact hall 1 (by decide +kernel)

end ScriptBridge
