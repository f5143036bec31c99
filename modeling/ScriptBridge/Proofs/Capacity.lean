import Mathlib.Algebra.Order.BigOperators.Group.List
import Mathlib.Data.String.Basic
import ScriptBridge.Proofs.Answers
import ScriptBridge.Proofs.Transcoding

/-!
# Why a call never runs out of room

Four limits have to fit together. A native has at most `maxSlots` arguments, a text has fewer than
`maxTextLength` bytes, an array at most `maxArrayLength` entries, and the heap of scratch memory
has `capacity` cells. They are counted in different units: a text is measured in the bytes that it
takes as UTF-8 and is placed with one cell for each character and one for the terminator.

**Room.** `NativeArgument.room` is the most cells that an argument can take, whatever lengths stand
beside it. No argument of a call that is in order has more room than a text of full length, so all
of them together have no more than the heap. Then the only thing that can go wrong when they are
placed is that the length of an array cannot be told.

**Slots.** The staging area has as many slots as a native has arguments, and what a signature needs
is counted before anything is staged. That loading stays within them is said by putting slots
behind the area: it ends the same and leaves them alone.
-/

namespace ScriptBridge

open Scratch

/-! ## The room of an argument -/

/-- **The most cells that an argument can take.** -/
def NativeArgument.room : NativeArgument → Nat
  | .reference _ => 1
  | .text t => (CodePage.encode t).length + 1
  | .array values => values.length
  | .buffer bytes => bytes.length
  | _ => 0

theorem contents_length_le (a : NativeArgument) (length : Nat) :
    (a.contents length).length ≤ a.room := by
  cases a with
  | text t => exact Nat.le_of_eq (CellText.unpackedCells_length _)
  | array values => exact List.length_take_le' length values
  | buffer bytes => exact Nat.le_of_eq List.length_replicate
  | _ => exact Nat.le_refl _

/-- A text has no more characters in the code page than it has bytes as UTF-8. -/
theorem encode_length_le (text : String) :
    (CodePage.encode text).length ≤ text.utf8ByteSize := by
  have hlen := length_le_utf8Len text.toList
  rw [← String.utf8ByteSize_ofList, String.ofList_toList] at hlen
  unfold CodePage.encode
  rw [List.length_map]
  exact hlen

theorem Becomes.room_le {type : SlotType} {value : ScriptValue} {a : NativeArgument}
    (h : Becomes type value a) : a.room ≤ maxTextLength := by
  cases h with
  | int x => exact Nat.zero_le _
  | float x => exact Nat.zero_le _
  | @text value hlt =>
      -- the byte that is left over is the cell of the terminator
      have hlen := encode_length_le value.toText
      show (CodePage.encode value.toText).length + 1 ≤ maxTextLength
      omega
  | @array numbers hlen =>
      have hmax : maxArrayLength ≤ maxTextLength := by decide
      show (numbers.map ScriptValue.wrapNumber ++ List.replicate _ 0).length ≤ maxTextLength
      rw [List.length_append, List.length_map, List.length_replicate]
      omega

/-- **No argument has more room than a text of full length.** -/
theorem Physical.room_le {types : List SlotType} {values : List ScriptValue}
    {as : List NativeArgument} (h : Physical types values as) :
    ∀ a ∈ as, a.room ≤ maxTextLength := by
  have hone : 1 ≤ maxTextLength := by decide
  induction h with
  | nil => intro a ha; exact absurd ha (by simp)
  | value hb _ ih => exact List.forall_mem_cons.mpr ⟨hb.room_le, ih⟩
  | intRef _ ih => exact List.forall_mem_cons.mpr ⟨hone, ih⟩
  | floatRef _ ih => exact List.forall_mem_cons.mpr ⟨hone, ih⟩
  | textRef hlen _ ih =>
      exact List.forall_mem_cons.mpr ⟨Nat.le_of_eq hlen,
        List.forall_mem_cons.mpr ⟨Nat.zero_le _, ih⟩⟩

/-- **The heap has room for the arguments of every call that is in order.** -/
theorem Physical.room_sum_le {types : List SlotType} {values : List ScriptValue}
    {as : List NativeArgument} (h : Physical types values as)
    (hcount : Staging.slotCount types ≤ Signature.maxSlots) :
    (as.map (·.room)).sum ≤ capacity := by
  have hroom : ∀ n ∈ as.map (·.room), n ≤ maxTextLength := by
    intro n hn
    obtain ⟨a, ha, rfl⟩ := List.mem_map.mp hn
    exact h.room_le a ha
  calc (as.map (·.room)).sum
      ≤ (as.map (·.room)).length • maxTextLength := List.sum_le_card_nsmul _ _ hroom
    _ = Staging.slotCount types * maxTextLength := by
        rw [List.length_map, h.length, Nat.nsmul_eq_mul]
    _ ≤ capacity := Nat.mul_le_mul_right _ hcount

/-! ## Placing arguments that there is room for -/

/-- **An error that says that the length of an array cannot be told**, and is right about it. `rest` are
the arguments from an index on, with a number of arrays in front of them. -/
def LengthUnknown (offset : Nat → Nat) (arguments : List NativeArgument) (index occurrence : Nat)
    (rest : List NativeArgument) (e : CallError) : Prop :=
  ∃ (i : Nat) (values : List Cell),
    let lengthIndex := index + i + offset (occurrence + arraysBefore rest i)
    rest[i]? = some (.array values)
      ∧ Registry.lengthAt? arguments lengthIndex values = none
      ∧ e = .arrayLength (index + i) lengthIndex

theorem lengthUnknown_head {offset : Nat → Nat} {arguments rest : List NativeArgument}
    {index occurrence : Nat} {a : NativeArgument}
    (hm : a.measure? arguments (index + offset occurrence) = none) :
    LengthUnknown offset arguments index occurrence (a :: rest)
      (.arrayLength index (index + offset occurrence)) := by
  cases a with
  | array values => exact ⟨0, values, rfl, hm, rfl⟩
  | _ => exact absurd hm (by simp [NativeArgument.measure?])

theorem LengthUnknown.cons {offset : Nat → Nat} {arguments rest : List NativeArgument}
    {index occurrence : Nat} {a : NativeArgument} {e : CallError}
    (h : LengthUnknown offset arguments (index + 1)
      (if Registry.isArray a then occurrence + 1 else occurrence) rest e) :
    LengthUnknown offset arguments index occurrence (a :: rest) e := by
  obtain ⟨i, values, hi, hlength, he⟩ := h
  -- the arrays are counted on from the first argument
  have hocc : (if Registry.isArray a then occurrence + 1 else occurrence) + arraysBefore rest i
      = occurrence + arraysBefore (a :: rest) (i + 1) := by
    rw [arraysBefore_succ]
    split <;> omega
  have hindex : index + 1 + i = index + (i + 1) := by omega
  rw [hocc, hindex] at hlength he
  exact ⟨i + 1, values, hi, hlength, he⟩

/-- **Arguments that there is room for are refused for the length of an array only.** -/
theorem place_error {offset : Nat → Nat} {arguments : List NativeArgument} :
    ∀ {rest : List NativeArgument} {index occurrence : Nat} {s s' : Scratch} {e : CallError},
      Sound s → s.used + (rest.map (·.room)).sum ≤ capacity →
      Registry.place offset arguments index occurrence rest s = (.error e, s') →
      LengthUnknown offset arguments index occurrence rest e
  | [], _, _, _, _, _, _, _, hp => by exact absurd hp (by simp [Registry.place])
  | a :: rest, index, occurrence, s, s', e, h, hroom, hp => by
      rw [List.map_cons, List.sum_cons] at hroom
      rw [Registry.place, h.placeOne] at hp
      cases hm : a.measure? arguments (index + offset occurrence) with
      | none =>
          simp only [hm] at hp
          obtain rfl := Except.error.inj (Prod.mk.inj hp).1
          exact lengthUnknown_head hm
      | some length =>
          have hlen := contents_length_le a length
          have hfit : s.used + (a.contents length).length ≤ capacity := by omega
          simp only [hm] at hp
          rw [if_pos hfit] at hp
          dsimp only at hp
          split at hp
          · rename_i e₁ s₁ hr
            -- the first argument took no more than its room, so the others have theirs
            have hrest : (s.extended (a.contents length)).used + (rest.map (·.room)).sum
                ≤ capacity := by
              rw [extended_used hfit]
              omega
            obtain rfl := Except.error.inj (Prod.mk.inj hp).1
            exact (place_error (h.extended hfit) hrest hr).cons
          · simp at hp

/-- **A call that there is room for** ends with the answer of its native, or because the length of an
array cannot be told. -/
theorem Registry.call_error {F W : Type} {registry : Registry F} {meaning : F → Native W}
    {name : String} {handle : F} {arguments : List NativeArgument} (w : W) {e : CallError}
    (hs : Sound registry.scratch) (hname : registry.find? name = some handle)
    (hkeeps : (meaning handle).KeepsCursors)
    (hroom : registry.scratch.used + (arguments.map (·.room)).sum ≤ capacity)
    (he : (registry.call meaning name arguments w).result = .error e) :
    LengthUnknown (registry.arrayLengths.offset name) arguments 0 0 arguments e := by
  cases hp : place (registry.arrayLengths.offset name) arguments 0 0 arguments
      registry.scratch with
  | mk answer s =>
      cases answer with
      | error e₁ =>
          rw [call_refused meaning w hname hp] at he
          obtain rfl : e₁ = e := Except.error.inj he
          exact place_error hs hroom hp
      | ok placed =>
          unfold call at he
          rw [hname] at he
          simp only [inScope, callIn_ok hs hkeeps hp] at he
          exact absurd he (by simp)

namespace Invoker

variable {S : Type}

/-- A staged call goes wrong where the native's call does. -/
theorem callStaged_error {invoker : Invoker} {dispatcher : Dispatcher S} {s : S} {name : String}
    {signature : Signature} {e : InvokeError}
    (he : (invoker.callStaged dispatcher s name signature).1 = .error e) :
    ∃ e', e = .call e'
      ∧ (dispatcher.call s name (invoker.staging.arguments signature.physicalCount)).1
        = .error e' := by
  unfold callStaged at he
  dsimp only at he
  split at he
  · rename_i e' hcall
    exact ⟨e', (Except.error.inj he).symm, hcall⟩
  · exact absurd he (by simp)

theorem callBare_error {invoker : Invoker} {dispatcher : Dispatcher S} {s : S} {name : String}
    {e : InvokeError} (he : (invoker.callBare dispatcher s name).1 = .error e) :
    ∃ e', e = .call e' ∧ (dispatcher.call s name []).1 = .error e' := by
  unfold callBare at he
  dsimp only at he
  split at he
  · rename_i e' hcall
    exact ⟨e', (Except.error.inj he).symm, hcall⟩
  · exact absurd he (by simp)

/-- **A call that is in order goes wrong where the call of its native does**, and with that error. -/
theorem invoke_error {invoker : Invoker} (hs : invoker.staging.Sound) {dispatcher : Dispatcher S}
    {s : S} {arguments : List ScriptValue} {name : String} {signature : Signature}
    {values : List ScriptValue} {e : InvokeError}
    (ha : Accepted (dispatcher.knows s) arguments name signature values)
    (he : (invoker.invoke dispatcher s arguments).1 = .error e) :
    ∃ e', e = .call e'
      ∧ (dispatcher.call s name (invoker.argumentsFor signature values)).1 = .error e' := by
  rcases invoker.invoke_accepted hs dispatcher s ha with
    ⟨_, rfl, rfl, hinvoke⟩ | ⟨staging', _, hload, _, hinvoke⟩
  · rw [hinvoke] at he
    exact callBare_error he
  · rw [hinvoke] at he
    rw [argumentsFor_eq hload]
    exact callStaged_error he

end Invoker

/-! ## Slots and values that loading does not run out of -/

/-- **An error that says that something ran out** while values were staged, slots or values. Neither is
the fault of a script. -/
def InvokeError.RanOut : InvokeError → Prop
  | .noSlot _ => True
  | .typeMismatch _ _ found => found = "nothing"
  | _ => False

theorem typeName_ne_nothing (value : ScriptValue) : value.typeName ≠ "nothing" := by
  cases value <;> simp [ScriptValue.typeName]

theorem arrayCells_found : ∀ {entries : List ScriptValue} {found : String},
    (Staging.arrayCells entries).2 = some found → found ≠ "nothing"
  | [], _, h => by exact absurd h (by simp [Staging.arrayCells])
  | entry :: entries, found, h => by
      unfold Staging.arrayCells at h
      split at h
      · rw [← Option.some.inj h]
        exact typeName_ne_nothing entry
      · exact arrayCells_found h

theorem refusal?_not_ranOut {type : SlotType} {index : Nat} {value : ScriptValue}
    {e : InvokeError} (h : type.refusal? index value = some e) : ¬ e.RanOut := by
  cases type with
  | int =>
      simp only [SlotType.refusal?] at h
      split at h
      · exact absurd h (by simp)
      · rw [← Option.some.inj h]; exact typeName_ne_nothing value
  | float =>
      simp only [SlotType.refusal?] at h
      split at h
      · exact absurd h (by simp)
      · rw [← Option.some.inj h]; exact typeName_ne_nothing value
  | text =>
      simp only [SlotType.refusal?] at h
      split at h
      · rw [← Option.some.inj h]; exact id
      · exact absurd h (by simp)
  | array =>
      simp only [SlotType.refusal?] at h
      split at h
      · rw [← Option.some.inj h]; exact typeName_ne_nothing value
      · split at h
        · rw [← Option.some.inj h]; exact id
        · obtain ⟨found, hfound, rfl⟩ := Option.map_eq_some_iff.mp h
          exact arrayCells_found hfound
  | _ => exact absurd h (by simp [SlotType.refusal?])

/-- As many values as the signature asks for are enough. -/
theorem refusals?_not_ranOut : ∀ {types : List SlotType} {values : List ScriptValue} {index : Nat}
    {e : InvokeError}, values.length = (plainSlots types).length →
    refusals? types values index = some e → ¬ e.RanOut
  | [], values, _, _, _, h => by exact absurd h (by simp [refusals?])
  | type :: types, values, index, e, hcount, h => by
      unfold refusals? at h
      cases htype : type.isReference with
      | true =>
          rw [if_pos htype] at h
          rw [plainSlots_reference htype] at hcount
          exact refusals?_not_ranOut hcount h
      | false =>
          rw [if_neg (by rw [htype]; decide)] at h
          rw [plainSlots_value htype] at hcount
          cases values with
          | nil => exact absurd hcount (by simp)
          | cons value values =>
              rcases Option.or_eq_some_iff.mp h with h | ⟨_, h⟩
              · exact refusal?_not_ranOut h
              · exact refusals?_not_ranOut (Nat.succ.inj hcount) h

namespace Staging

/-- **A staging area with more slots behind it.** -/
def followedBy (staging : Staging) (behind : List StagedSlot) : Staging :=
  ⟨staging.slots ++ behind⟩

/-- **Loading that stays within the first slots.** It keeps the number of slots, and it does the same in
an area that has more of them, whatever those hold. -/
structure Within (count : Nat) (act : Staging → Loaded) : Prop where
  length : ∀ staging, count ≤ staging.slots.length →
    (act staging).2.slots.length = staging.slots.length
  followedBy : ∀ staging behind, count ≤ staging.slots.length →
    act (staging.followedBy behind) = ((act staging).1, (act staging).2.followedBy behind)

theorem modify_append_of_lt {α : Type} {xs : List α} {i : Nat} (h : i < xs.length) (f : α → α)
    (behind : List α) : (xs ++ behind).modify i f = xs.modify i f ++ behind := by
  rw [List.modify_eq_take_drop, List.modify_eq_take_drop,
    List.take_append_of_le_length (Nat.le_of_lt h), List.drop_append_of_le_length (Nat.le_of_lt h),
    List.drop_eq_getElem_cons h, List.append_assoc]
  rfl

theorem within_skip (count : Nat) (answer : Except InvokeError Unit) :
    Within count fun staging => (answer, staging) :=
  ⟨fun _ _ => rfl, fun _ _ _ => rfl⟩

theorem within_load1 {place count : Nat} (hp : place < count) (change : StagedSlot → StagedSlot) :
    Within count fun staging => staging.load1 place change := by
  constructor
  · intro staging hcount
    unfold load1 update?
    rw [if_pos (by omega)]
    exact List.length_modify ..
  · intro staging behind hcount
    have hlt : place < staging.slots.length := by omega
    have hlt' : place < (staging.slots ++ behind).length := by rw [List.length_append]; omega
    unfold load1 update? Staging.followedBy
    rw [if_pos hlt, if_pos hlt', modify_append_of_lt hlt]

/-- An answer of one's own does not make loading reach further. -/
theorem Within.answer {count : Nat} {act : Staging → Loaded} (h : Within count act)
    (answer : Except InvokeError Unit) :
    Within count fun staging => (answer, (act staging).2) := by
  refine ⟨h.length, fun staging behind hcount => ?_⟩
  dsimp only
  rw [h.followedBy staging behind hcount]

/-- Loading goes on where it went well. -/
theorem Within.andThen {count : Nat} {first second : Staging → Loaded} (h₁ : Within count first)
    (h₂ : Within count second) :
    Within count fun staging =>
      match first staging with
      | (.error e, staging) => (.error e, staging)
      | (.ok (), staging) => second staging := by
  constructor
  · intro staging hcount
    have hlen := h₁.length staging hcount
    revert hlen
    rcases first staging with ⟨e | _, staging₁⟩ <;> intro hlen
    · exact hlen
    · have hlen₁ : staging₁.slots.length = staging.slots.length := hlen
      exact (h₂.length staging₁ (by omega)).trans hlen₁
  · intro staging behind hcount
    have hlen := h₁.length staging hcount
    rw [h₁.followedBy staging behind hcount]
    revert hlen
    rcases first staging with ⟨e | _, staging₁⟩ <;> intro hlen
    · rfl
    · have hlen₁ : staging₁.slots.length = staging.slots.length := hlen
      exact h₂.followedBy staging₁ behind (by omega)

theorem within_loadArray {place count : Nat} (hp : place < count) (index : Nat)
    (value : ScriptValue) : Within count fun staging => staging.loadArray place index value := by
  unfold loadArray
  cases value.entries? with
  | none => exact within_skip count _
  | some entries =>
      dsimp only
      by_cases hlong : maxArrayLength < entries.length
      · simp only [if_pos hlong]
        exact within_skip count _
      · simp only [if_neg hlong]
        rcases arrayCells entries with ⟨cells, _ | found⟩
        · exact within_load1 hp _
        · -- the entries in front of a wrong one go into the same slot
          exact (within_load1 hp _).answer _

/-- A value goes into the slot of its place. -/
theorem within_loadValue {place count : Nat} (hp : place < count) (index : Nat) (type : SlotType)
    (value : ScriptValue) :
    Within count fun staging => staging.loadValue place index type value := by
  cases type with
  | int =>
      unfold loadValue
      cases value.wrappedCell? with
      | none => exact within_skip count _
      | some cell => exact within_load1 hp _
  | float =>
      unfold loadValue
      cases value.number? with
      | none => exact within_skip count _
      | some number => exact within_load1 hp _
  | text =>
      unfold loadValue
      by_cases hlong : maxTextLength ≤ value.toText.utf8ByteSize
      · simp only [if_pos hlong]
        exact within_skip count _
      · simp only [if_neg hlong]
        exact within_load1 hp _
  | array => exact within_loadArray hp index value
  | _ => exact within_skip count _

/-- What the native writes goes into the slots of its place, as many as its type has. -/
theorem within_loadReference {place count : Nat} {type : SlotType}
    (hp : place + width type ≤ count) (href : type.isReference = true) :
    Within count fun staging => staging.loadReference place type := by
  cases type with
  | intRef => exact within_load1 hp _
  | floatRef => exact within_load1 hp _
  | textRef =>
      have hp' : place + 2 ≤ count := hp
      exact (within_load1 (by omega) _).andThen (within_load1 (by omega) _)
  | _ => exact absurd href (by decide)

/-- **Loading stays within the slots that the signature asks for.** -/
theorem within_load : ∀ (types : List SlotType) (values : List ScriptValue) {place count : Nat}
    (index : Nat), place + slotCount types ≤ count →
    Within count fun staging => staging.load types values place index
  | [], _, _, count, _, _ => within_skip count _
  | type :: types, values, place, count, index, hroom => by
      rw [slotCount_cons] at hroom
      unfold load
      cases htype : type.isReference with
      | true =>
          simp only [if_true]
          exact (within_loadReference (by omega) htype).andThen
            (within_load types values index (by omega))
      | false =>
          simp only [Bool.false_eq_true, if_false]
          cases values with
          | nil => exact within_skip count _
          | cons value values =>
              have hwidth : 1 ≤ width type := by cases type <;> decide
              exact (within_loadValue (by omega) index type value).andThen
                (within_load types values (index + 1) (by omega))

end Staging

/-- **Loading neither leaves the slots nor runs out of values**, whatever comes of it. The signature was
checked against the number of arguments before. -/
theorem Invoker.load_stays {invoker : Invoker} (hs : invoker.staging.Sound)
    {arguments : List ScriptValue} {v : ScriptValue} {signature : Signature}
    (hcheck : Invoker.checkedSignature arguments v = .ok signature) :
    let load := fun staging : Staging => staging.load signature.slots
      ((arguments.drop Invoker.leading).take signature.argumentCount) 0 Invoker.leading
    Staging.Within Signature.maxSlots load
      ∧ ∀ e, (load invoker.staging).1 = .error e → ¬ e.RanOut := by
  rcases Invoker.checkedSignature_cases arguments v with
    ⟨e, _, hrefused⟩ | ⟨text, signature', _, _, hcount, hlen, hok⟩
  · exact absurd (hcheck.symm.trans hrefused) (by simp)
  obtain rfl : signature = signature' := Except.ok.inj (hcheck.symm.trans hok)
  have hroom : 0 + Staging.slotCount signature.slots ≤ Signature.maxSlots := by
    rw [slotCount_eq]
    omega
  have hvalues : ((arguments.drop Invoker.leading).take signature.argumentCount).length
      = (plainSlots signature.slots).length := by
    rw [plainSlots_length, List.length_take, List.length_drop]
    omega
  intro load
  refine ⟨Staging.within_load _ _ _ hroom, fun e he => ?_⟩
  cases href : refusals? signature.slots
      ((arguments.drop Invoker.leading).take signature.argumentCount) Invoker.leading with
  | none =>
      obtain ⟨staging', _, hload, _⟩ := hs.load_staged 0 Invoker.leading hroom hvalues href
      have hloaded : load invoker.staging = (.ok (), staging') := hload
      rw [hloaded] at he
      exact absurd he (by simp)
  | some e' =>
      obtain ⟨staging', _, hload⟩ := hs.load_refused 0 hroom href
      have hloaded : load invoker.staging = (.error e', staging') := hload
      rw [hloaded] at he
      obtain rfl : e' = e := Except.error.inj he
      exact refusals?_not_ranOut hvalues href

/--
**Every call that is in order fits.**

Take a registry in any state that it can be in, with an empty heap. All that the arguments of a
call that is in order can take together is no more than the heap. So the call of a native that
keeps the cursors never ends for want of memory. It is answered, or the length of an array cannot
be told, and the same holds for the call of the script. Before that, whenever the signature suits
the number of arguments, loading stays within the slots there are and never asks for a value that
is not there.
-/
theorem accepted_call_fits {F W : Type} {invoker : Invoker} (hs : invoker.staging.Sound)
    {registry : Registry F} {meaning : F → Native W} {scopes : List Scratch} (w : W)
    (hreach : Reachable registry.scratch scopes) (htop : registry.scratch.heapTop = 0) :
    (∀ (arguments : List ScriptValue) (name : String) (signature : Signature)
        (values : List ScriptValue), Accepted registry.knows arguments name signature values →
      (∀ handle, registry.find? name = some handle → (meaning handle).KeepsCursors) →
      let physical := invoker.argumentsFor signature values
      (physical.map (·.room)).sum ≤ capacity
        ∧ (∀ e, (registry.call meaning name physical w).result = .error e →
          LengthUnknown (registry.arrayLengths.offset name) physical 0 0 physical e)
        ∧ ∀ e, (invoker.invoke (Registry.dispatcher meaning) (registry, w) arguments).1 = .error e →
          ∃ e', e = .call e'
            ∧ LengthUnknown (registry.arrayLengths.offset name) physical 0 0 physical e') ∧
    ∀ (arguments : List ScriptValue) (v : ScriptValue) (signature : Signature),
      Invoker.checkedSignature arguments v = .ok signature →
      let load := fun staging : Staging => staging.load signature.slots
        ((arguments.drop Invoker.leading).take signature.argumentCount) 0 Invoker.leading
      Staging.Within Signature.maxSlots load
        ∧ ∀ e, (load invoker.staging).1 = .error e → ¬ e.RanOut := by
  refine ⟨?_, fun _ _ _ hcheck => Invoker.load_stays hs hcheck⟩
  intro arguments name signature values ha hnative
  have hscratch := hreach.sound.1
  have hempty : registry.scratch.used = 0 := used_of_heapTop htop (Nat.zero_le _)
  obtain ⟨handle, hname⟩ := Option.isSome_iff_exists.mp ha.known
  have hsum : ((invoker.argumentsFor signature values).map (·.room)).sum ≤ capacity :=
    (ha.physical hs).room_sum_le (by rw [slotCount_eq]; exact ha.physicalCount_le)
  have hcall : ∀ e, (registry.call meaning name (invoker.argumentsFor signature values) w).result
      = .error e → LengthUnknown (registry.arrayLengths.offset name)
        (invoker.argumentsFor signature values) 0 0 (invoker.argumentsFor signature values) e :=
    fun e he => Registry.call_error w hscratch hname (hnative handle hname) (by omega) he
  refine ⟨hsum, hcall, fun e he => ?_⟩
  obtain ⟨e', rfl, he'⟩ := Invoker.invoke_error hs ha he
  exact ⟨e', rfl, hcall e' he'⟩

/-! ## A call at the limit -/

theorem utf8ByteSize_replicate (n : Nat) (c : Char) :
    (String.ofList (List.replicate n c)).utf8ByteSize = n * c.utf8Size := by
  rw [String.utf8ByteSize_ofList]
  induction n with
  | zero => rw [Nat.zero_mul]; rfl
  | succ n ih => rw [List.replicate_succ, String.utf8Len_cons, ih, Nat.succ_mul]

theorem room_replicate (n : Nat) (c : Char) :
    (NativeArgument.text (String.ofList (List.replicate n c))).room = n + 1 := by
  unfold NativeArgument.room CodePage.encode
  dsimp only
  rw [List.length_map, String.toList_ofList, List.length_replicate]

theorem forall₂_replicate {α β : Type} {r : α → β → Prop} {a : α} {b : β} (h : r a b) (n : Nat) :
    List.Forall₂ r (List.replicate n a) (List.replicate n b) := by
  induction n with
  | zero => exact .nil
  | succ n ih => exact .cons h ih

/-- A text of full length for every argument takes the heap up to its last cell. -/
theorem accepted_call_fits_full :
    let invoker : Invoker := {}
    let registry : Registry Unit := { natives := [("Poke", ())] }
    let long := String.ofList (List.replicate 2047 'x')
    let values := List.replicate 24 (ScriptValue.text long)
    let signature : Signature := ⟨List.replicate 24 .text⟩
    let arguments := .text "Poke" :: .text (String.ofList (List.replicate 24 's')) :: (values ++ [])
    let physical := invoker.argumentsFor signature values
    ((List.replicate 24 (NativeArgument.text long)).map (·.room)).sum = capacity ∧
    (physical.map (·.room)).sum ≤ capacity ∧
    ∀ e, (invoker.invoke (Registry.dispatcher fun _ => Native.poke 7) (registry, ()) arguments).1
      = .error e →
        ∃ e', e = .call e'
          ∧ LengthUnknown (registry.arrayLengths.offset "Poke") physical 0 0 physical e' := by
  intro invoker registry long values signature arguments physical
  have hshort : long.utf8ByteSize < maxTextLength := by
    rw [utf8ByteSize_replicate]
    decide
  have hfits : List.Forall₂ Fits (plainSlots signature.slots) values :=
    forall₂_replicate ⟨_, .text hshort⟩ 24
  have ha : Accepted registry.knows arguments "Poke" signature values :=
    .full (by decide) (by decide) (by decide) (by decide) hfits (Or.inl rfl)
  have hfit := (@accepted_call_fits Unit Unit invoker Staging.sound_new registry
    (fun _ => Native.poke 7) [] () .new (by decide)).1 arguments "Poke" signature values ha
    fun _ _ => Native.poke_keepsCursors 7
  refine ⟨?_, hfit.1, hfit.2.2⟩
  rw [List.map_replicate, List.sum_replicate, room_replicate]
  rfl

end ScriptBridge
