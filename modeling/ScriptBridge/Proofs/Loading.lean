import Mathlib.Algebra.GroupWithZero.Nat
import Mathlib.Data.List.Forall2
import ScriptBridge.Native.Invoke

/-!
# How the values of a call are staged

Loading walks along a signature with two hands that do not move alike. One takes the next value
of the script, on every slot that the script supplies; the other takes the next slot of the
staging area, once on most types and twice on a text that the native writes. Three things
have to be said about it.

**Which values fit.** `Becomes` says it for one slot, without the code that checks it: the
values that fit, and for each the argument that the native gets. `refusals?` is the first reason
against a whole list of values; it depends on the signature and the values alone, which is why no
earlier call can change what a script is told.

**What the slots hold afterwards.** `Staged` follows the signature and says for each slot of the
area what it stands for. It leaves open only the bytes of an output buffer behind the first.

**What a slot does not hold.** Whatever an earlier call left in a slot stays there, in the fields
that its new kind does not show. So nothing here compares whole slots.
-/

namespace ScriptBridge

/-- **A value that fits a slot, and the argument that it becomes.** -/
inductive Becomes : SlotType → ScriptValue → NativeArgument → Prop where
  | int (x : Double) : Becomes .int (.number x) (.integer (ScriptValue.wrapNumber x))
  | float (x : Double) : Becomes .float (.number x) (.float x.toSingle)
  | text {value : ScriptValue} : value.toText.utf8ByteSize < maxTextLength →
      Becomes .text value (.text value.toText)
  | array {numbers : List Double} : numbers.length ≤ maxArrayLength →
      Becomes .array (.array (numbers.map .number))
        (.array (numbers.map ScriptValue.wrapNumber
          ++ List.replicate (maxArrayLength - numbers.length) 0))

def Fits (type : SlotType) (value : ScriptValue) : Prop := ∃ a, Becomes type value a

/-- **The arguments of a call**, for a signature and the values that the script supplies. A text that
the native writes is followed by the size of its buffer. What the buffer holds behind its first
byte is left open. -/
inductive Physical : List SlotType → List ScriptValue → List NativeArgument → Prop where
  | nil : Physical [] [] []
  | value {type : SlotType} {types : List SlotType} {value : ScriptValue}
      {values : List ScriptValue} {a : NativeArgument} {as : List NativeArgument} :
      Becomes type value a → Physical types values as →
      Physical (type :: types) (value :: values) (a :: as)
  | intRef {types : List SlotType} {values : List ScriptValue} {as : List NativeArgument} :
      Physical types values as → Physical (.intRef :: types) values (.reference 0 :: as)
  | floatRef {types : List SlotType} {values : List ScriptValue} {as : List NativeArgument} :
      Physical types values as → Physical (.floatRef :: types) values (.reference 0 :: as)
  | textRef {types : List SlotType} {values : List ScriptValue} {as : List NativeArgument}
      {behind : List UInt8} : behind.length + 1 = maxTextLength → Physical types values as →
      Physical (.textRef :: types) values
        (.buffer (0 :: behind) :: .integer (Cell.ofSize maxTextLength) :: as)

/-- Why a value does not fit a slot. -/
def SlotType.refusal? (type : SlotType) (index : Nat) (value : ScriptValue) : Option InvokeError :=
  match type with
  | .int =>
    if value.isNumber then none else some (.typeMismatch index "number" value.typeName)
  | .float =>
    if value.isNumber then none else some (.typeMismatch index "number" value.typeName)
  | .text =>
    if maxTextLength ≤ value.toText.utf8ByteSize then some (.textOverflow index) else none
  | .array =>
    match value.entries? with
    | none => some (.typeMismatch index "array" value.typeName)
    | some entries =>
      if maxArrayLength < entries.length then some (.arrayOverflow index)
      else
        (Staging.arrayCells entries).2.map fun found =>
          .typeMismatch index "array of numbers" found
  | _ => none

/-- **The first reason against the values of a call**, the first of them being argument `index`. -/
def refusals? : List SlotType → List ScriptValue → Nat → Option InvokeError
  | [], _, _ => none
  | type :: types, values, index =>
    if type.isReference then refusals? types values index
    else
      match values with
      | [] => some (.typeMismatch 2 (Staging.expectation type) "nothing")
      | value :: values => (type.refusal? index value).or (refusals? types values (index + 1))

/-! ## One value -/

theorem arrayCells_numbers : ∀ numbers : List Double,
    Staging.arrayCells (numbers.map .number) = (numbers.map ScriptValue.wrapNumber, none)
  | [] => rfl
  | x :: numbers => by
      rw [List.map_cons, Staging.arrayCells, arrayCells_numbers numbers]
      rfl

/-- A list in which nothing is wrong is a list of numbers. -/
theorem numbers_of_arrayCells : ∀ {entries : List ScriptValue},
    (Staging.arrayCells entries).2 = none → ∃ numbers : List Double, entries = numbers.map .number
  | [], _ => ⟨[], rfl⟩
  | .number x :: entries, h => by
      obtain ⟨numbers, rfl⟩ := numbers_of_arrayCells (show (Staging.arrayCells entries).2 = none from h)
      exact ⟨x :: numbers, rfl⟩

theorem number_of_isNumber {value : ScriptValue} (h : value.isNumber = true) :
    ∃ x, value = .number x := by
  cases value with
  | number x => exact ⟨x, rfl⟩
  | _ => exact absurd h (by simp [ScriptValue.isNumber])

theorem array_of_entries? {value : ScriptValue} {entries : List ScriptValue}
    (h : value.entries? = some entries) : value = .array entries := by
  cases value with
  | array es => exact congrArg _ (Option.some.inj h)
  | _ => exact absurd h (by simp [ScriptValue.entries?])

theorem wrappedCell?_of_not_number {value : ScriptValue} (h : ¬ value.isNumber = true) :
    value.wrappedCell? = none := by
  cases value with
  | number x => exact absurd rfl h
  | _ => rfl

theorem number?_of_not_number {value : ScriptValue} (h : ¬ value.isNumber = true) :
    value.number? = none := by
  cases value with
  | number x => exact absurd rfl h
  | _ => rfl

theorem arrayCells_length_le : ∀ entries : List ScriptValue,
    (Staging.arrayCells entries).1.length ≤ entries.length
  | [] => Nat.le_refl _
  | entry :: entries => by
      have ih := arrayCells_length_le entries
      unfold Staging.arrayCells
      split
      · exact Nat.zero_le _
      · exact Nat.succ_le_succ ih

theorem toSingle_ofSingle (x : Single) : Cell.toSingle (Cell.ofSingle x) = x := rfl

/-- A value that nothing is said against fits. -/
theorem fits_of_refusal? {type : SlotType} (hplain : type.isReference = false) {index : Nat}
    {value : ScriptValue} (h : type.refusal? index value = none) : Fits type value := by
  cases type with
  | int =>
      simp only [SlotType.refusal?] at h
      split at h
      · rename_i hnum
        obtain ⟨x, rfl⟩ := number_of_isNumber hnum
        exact ⟨_, .int x⟩
      · exact absurd h (by simp)
  | float =>
      simp only [SlotType.refusal?] at h
      split at h
      · rename_i hnum
        obtain ⟨x, rfl⟩ := number_of_isNumber hnum
        exact ⟨_, .float x⟩
      · exact absurd h (by simp)
  | text =>
      simp only [SlotType.refusal?] at h
      split at h
      · exact absurd h (by simp)
      · rename_i hlt
        exact ⟨_, .text (Nat.lt_of_not_le hlt)⟩
  | array =>
      simp only [SlotType.refusal?] at h
      split at h
      · exact absurd h (by simp)
      · rename_i entries hentries
        split at h
        · exact absurd h (by simp)
        · rename_i hlen
          obtain ⟨numbers, rfl⟩ := numbers_of_arrayCells (Option.map_eq_none_iff.mp h)
          rw [array_of_entries? hentries]
          rw [List.length_map] at hlen
          exact ⟨_, .array (Nat.le_of_not_lt hlen)⟩
  | _ => exact absurd hplain (by decide)

/-- Nothing is said against a value that fits. -/
theorem Becomes.refusal? {type : SlotType} {value : ScriptValue} {a : NativeArgument}
    (h : Becomes type value a) (index : Nat) : type.refusal? index value = none := by
  cases h with
  | int x => rfl
  | float x => rfl
  | text hlt => exact if_neg (Nat.not_le.mpr hlt)
  | @array numbers hlen =>
      show (if maxArrayLength < (numbers.map ScriptValue.number).length then _ else _) = none
      rw [if_neg (by rw [List.length_map]; omega), arrayCells_numbers]
      rfl

theorem Becomes.plain {type : SlotType} {value : ScriptValue} {a : NativeArgument}
    (h : Becomes type value a) : type.isReference = false := by
  cases h <;> rfl

theorem Becomes.width {type : SlotType} {value : ScriptValue} {a : NativeArgument}
    (h : Becomes type value a) : Staging.width type = 1 := by
  cases h <;> rfl

/-- The slots of a signature that the script supplies. -/
def plainSlots (types : List SlotType) : List SlotType := types.filter (!·.isReference)

theorem plainSlots_reference {type : SlotType} (h : type.isReference = true)
    (types : List SlotType) : plainSlots (type :: types) = plainSlots types := by
  simp [plainSlots, h]

theorem plainSlots_value {type : SlotType} (h : type.isReference = false)
    (types : List SlotType) : plainSlots (type :: types) = type :: plainSlots types := by
  simp [plainSlots, h]

/-- **Nothing is said against values exactly if each of them fits its slot.** -/
theorem refusals?_eq_none_iff : ∀ {types : List SlotType} {values : List ScriptValue} {index : Nat},
    values.length = (plainSlots types).length →
    (refusals? types values index = none ↔ List.Forall₂ Fits (plainSlots types) values)
  | [], [], _, _ => ⟨fun _ => .nil, fun _ => rfl⟩
  | [], _ :: _, _, h => by exact absurd h (by simp [plainSlots])
  | type :: types, values, index, h => by
      unfold refusals?
      cases htype : type.isReference with
      | true =>
          rw [plainSlots_reference htype] at h ⊢
          simpa using refusals?_eq_none_iff h
      | false =>
          -- only a slot like this one uses up a value
          rw [plainSlots_value htype] at h ⊢
          cases values with
          | nil => exact absurd h (by simp)
          | cons value values =>
              have ih : refusals? types values (index + 1) = none ↔ _ :=
                refusals?_eq_none_iff (Nat.succ.inj h)
              have hfits : type.refusal? index value = none ↔ Fits type value :=
                ⟨fits_of_refusal? htype, fun ⟨a, ha⟩ => ha.refusal? index⟩
              simp [Option.or_eq_none_iff, ih, hfits]

/-! ## One slot -/

/-- **A staging area of its sizes**, which nothing can change. -/
structure Staging.Sound (staging : Staging) : Prop where
  slots : staging.slots.length = Signature.maxSlots
  output : ∀ slot ∈ staging.slots, slot.output.length = maxTextLength
  array : ∀ slot ∈ staging.slots, slot.array.length = maxArrayLength

/-- A change of a slot that leaves its sizes alone. -/
def KeepsSizes (change : StagedSlot → StagedSlot) : Prop :=
  ∀ slot : StagedSlot, slot.output.length = maxTextLength → slot.array.length = maxArrayLength →
    (change slot).output.length = maxTextLength ∧ (change slot).array.length = maxArrayLength

theorem keepsSizes_of_eq {change : StagedSlot → StagedSlot}
    (ho : ∀ slot, (change slot).output = slot.output)
    (ha : ∀ slot, (change slot).array = slot.array) : KeepsSizes change := by
  intro slot h1 h2
  rw [ho, ha]
  exact ⟨h1, h2⟩

theorem padded_length {cells : List Cell} (h : cells.length ≤ maxArrayLength) :
    (StagedSlot.padded cells).length = maxArrayLength := by
  unfold StagedSlot.padded
  rw [List.length_append, List.length_replicate]
  omega

theorem keepsSizes_array {cells : List Cell} (h : cells.length ≤ maxArrayLength) :
    KeepsSizes fun slot => { slot with array := StagedSlot.padded cells } :=
  fun _ h1 _ => ⟨h1, padded_length h⟩

theorem keepsSizes_loadBuffer : KeepsSizes StagedSlot.loadBuffer := by
  intro slot h1 h2
  refine ⟨?_, h2⟩
  show (0 :: slot.output.drop 1).length = maxTextLength
  rw [List.length_cons, List.length_drop, h1]
  rfl

namespace Staging

theorem sound_new : Sound {} := by
  refine ⟨List.length_replicate, fun slot hs => ?_, fun slot hs => ?_⟩
  · rw [List.eq_of_mem_replicate hs]; exact List.length_replicate
  · rw [List.eq_of_mem_replicate hs]; exact List.length_replicate

/-- The staging area with one slot changed. -/
def changed (staging : Staging) (place : Nat) (change : StagedSlot → StagedSlot) : Staging :=
  ⟨staging.slots.modify place change⟩

theorem Sound.changed {staging : Staging} (h : Sound staging) (place : Nat)
    {change : StagedSlot → StagedSlot} (hc : KeepsSizes change) :
    Sound (staging.changed place change) := by
  have hsizes : ∀ slot ∈ staging.slots.modify place change,
      slot.output.length = maxTextLength ∧ slot.array.length = maxArrayLength := by
    intro slot hs
    obtain ⟨i, hi⟩ := List.getElem?_of_mem hs
    rw [List.getElem?_modify] at hi
    obtain ⟨old, hold, rfl⟩ := Option.map_eq_some_iff.mp hi
    have hmem := List.mem_of_getElem? hold
    have hsize := And.intro (h.output old hmem) (h.array old hmem)
    split
    · exact hc old hsize.1 hsize.2
    · exact hsize
  exact ⟨(List.length_modify ..).trans h.slots, fun slot hs => (hsizes slot hs).1,
    fun slot hs => (hsizes slot hs).2⟩

/-- There is a slot for every place that a call can have. -/
theorem Sound.load1 {staging : Staging} (h : Sound staging) {place : Nat}
    (hp : place < Signature.maxSlots) (change : StagedSlot → StagedSlot) :
    staging.load1 place change = (.ok (), staging.changed place change) := by
  unfold Staging.load1 update?
  rw [if_pos (by rw [h.slots]; exact hp)]
  rfl

theorem Sound.loadArray_refused {staging : Staging} (h : Sound staging) {place index : Nat}
    (hp : place < Signature.maxSlots) {value : ScriptValue} {e : InvokeError}
    (he : SlotType.array.refusal? index value = some e) :
    ∃ staging', Sound staging' ∧ staging.loadArray place index value = (.error e, staging') := by
  unfold SlotType.refusal? at he
  unfold Staging.loadArray
  cases hentries : value.entries? with
  | none =>
      simp only [hentries] at he
      rw [← Option.some.inj he]
      exact ⟨staging, h, rfl⟩
  | some entries =>
      simp only [hentries] at he
      dsimp only
      by_cases hlong : maxArrayLength < entries.length
      · rw [if_pos hlong] at he
        rw [if_pos hlong, ← Option.some.inj he]
        exact ⟨staging, h, rfl⟩
      · rw [if_neg hlong] at he
        rw [if_neg hlong]
        obtain ⟨found, hfound, rfl⟩ := Option.map_eq_some_iff.mp he
        have hcells : (arrayCells entries).1.length ≤ maxArrayLength :=
          Nat.le_trans (arrayCells_length_le entries) (Nat.le_of_not_lt hlong)
        -- the entries in front of the wrong one stay in the slot
        refine ⟨_, h.changed place (keepsSizes_array hcells), ?_⟩
        rw [show arrayCells entries = ((arrayCells entries).1, some found) from
          Prod.ext rfl hfound]
        simp only [h.load1 hp]

/-- A refused value leaves the area in order, whatever it put into its slot before. -/
theorem Sound.loadValue_refused {staging : Staging} (h : Sound staging) (place : Nat) {index : Nat}
    (hp : place < Signature.maxSlots) {type : SlotType} {value : ScriptValue} {e : InvokeError}
    (he : type.refusal? index value = some e) :
    ∃ staging', Sound staging' ∧ staging.loadValue place index type value = (.error e, staging') := by
  cases type with
  | int =>
      simp only [SlotType.refusal?] at he
      split at he
      · exact absurd he (by simp)
      · rename_i hnum
        unfold Staging.loadValue
        rw [wrappedCell?_of_not_number hnum, ← Option.some.inj he]
        exact ⟨staging, h, rfl⟩
  | float =>
      simp only [SlotType.refusal?] at he
      split at he
      · exact absurd he (by simp)
      · rename_i hnum
        unfold Staging.loadValue
        rw [number?_of_not_number hnum, ← Option.some.inj he]
        exact ⟨staging, h, rfl⟩
  | text =>
      simp only [SlotType.refusal?] at he
      split at he
      · rename_i hlong
        unfold Staging.loadValue
        rw [← Option.some.inj he]
        exact ⟨staging, h, if_pos hlong⟩
      · exact absurd he (by simp)
  | array => exact h.loadArray_refused hp he
  | _ => exact absurd he (by simp [SlotType.refusal?])

/-- **A value that fits is staged** as the argument that it becomes. -/
theorem Sound.loadValue_fits {staging : Staging} (h : Sound staging) {place : Nat} (index : Nat)
    (hp : place < Signature.maxSlots) {type : SlotType} {value : ScriptValue} {a : NativeArgument}
    (ha : Becomes type value a) :
    ∃ change, KeepsSizes change
      ∧ staging.loadValue place index type value = (.ok (), staging.changed place change)
      ∧ ∀ slot, (change slot).argument = a ∧ (change slot).result? = none := by
  cases ha with
  | int x =>
      refine ⟨StagedSlot.loadInteger (ScriptValue.wrapNumber x), ?_, h.load1 hp _, ?_⟩
      · exact keepsSizes_of_eq (fun _ => rfl) (fun _ => rfl)
      · exact fun slot => ⟨rfl, rfl⟩
  | float x =>
      refine ⟨StagedSlot.loadFloat x.toSingle, ?_, h.load1 hp _, ?_⟩
      · exact keepsSizes_of_eq (fun _ => rfl) (fun _ => rfl)
      · exact fun slot => ⟨congrArg NativeArgument.float (toSingle_ofSingle _), rfl⟩
  | text hlt =>
      refine ⟨StagedSlot.loadText value.toText, ?_, ?_, ?_⟩
      · exact keepsSizes_of_eq (fun _ => rfl) (fun _ => rfl)
      · unfold Staging.loadValue
        exact (if_neg (Nat.not_le.mpr hlt)).trans (h.load1 hp _)
      · exact fun slot => ⟨rfl, rfl⟩
  | @array numbers hlen =>
      have hcells : (numbers.map ScriptValue.wrapNumber).length ≤ maxArrayLength := by
        rw [List.length_map]; exact hlen
      refine ⟨StagedSlot.loadArray (numbers.map ScriptValue.wrapNumber), ?_, ?_, ?_⟩
      · exact fun _ h1 _ => ⟨h1, padded_length hcells⟩
      · show (if maxArrayLength < (numbers.map ScriptValue.number).length then _ else _) = _
        rw [if_neg (by rw [List.length_map]; omega), arrayCells_numbers]
        exact h.load1 hp _
      · refine fun slot => ⟨?_, rfl⟩
        show NativeArgument.array (StagedSlot.padded _) = _
        rw [StagedSlot.padded, List.length_map]

/-! ## The whole call -/

/--
**The slots of a call as they are staged**, with any slots behind them. Each stands for the
argument of its place, and those that the native writes are of a kind that is read afterwards.
-/
inductive Staged : List SlotType → List ScriptValue → List StagedSlot → Prop where
  | nil {slots : List StagedSlot} : Staged [] [] slots
  | value {type : SlotType} {types : List SlotType} {value : ScriptValue}
      {values : List ScriptValue} {slot : StagedSlot} {slots : List StagedSlot} :
      Becomes type value slot.argument → slot.result? = none → Staged types values slots →
      Staged (type :: types) (value :: values) (slot :: slots)
  | intRef {types : List SlotType} {values : List ScriptValue} {slot : StagedSlot}
      {slots : List StagedSlot} :
      slot.kind = .intRef → slot.number = 0 → Staged types values slots →
      Staged (.intRef :: types) values (slot :: slots)
  | floatRef {types : List SlotType} {values : List ScriptValue} {slot : StagedSlot}
      {slots : List StagedSlot} :
      slot.kind = .floatRef → slot.number = 0 → Staged types values slots →
      Staged (.floatRef :: types) values (slot :: slots)
  | textRef {types : List SlotType} {values : List ScriptValue} {slot size : StagedSlot}
      {behind : List UInt8} {slots : List StagedSlot} :
      slot.kind = .buffer → slot.output = 0 :: behind → behind.length + 1 = maxTextLength →
      size.kind = .integer → size.number = Cell.ofSize maxTextLength → Staged types values slots →
      Staged (.textRef :: types) values (slot :: size :: slots)

def slotCount (types : List SlotType) : Nat := (types.map width).sum

theorem take_changed (staging : Staging) {place k : Nat} (h : k ≤ place)
    (change : StagedSlot → StagedSlot) :
    (staging.changed place change).slots.take k = staging.slots.take k := by
  refine List.ext_getElem? fun i => ?_
  rw [List.getElem?_take, List.getElem?_take]
  by_cases hi : i < k
  · show (if i < k then (staging.slots.modify place change)[i]? else none) = _
    rw [List.getElem?_modify_ne change staging.slots (by omega)]
  · rw [if_neg hi, if_neg hi]

theorem take_eq_of_le {slots slots' : List StagedSlot} {j k : Nat} (h : j ≤ k)
    (ht : slots.take k = slots'.take k) : slots.take j = slots'.take j := by
  have hcut := congrArg (List.take j) ht
  rwa [List.take_take, List.take_take, Nat.min_eq_left h] at hcut

/-- A slot that was changed stands at its place in every area that agrees up to there. -/
theorem Sound.drop_changed {staging : Staging} (h : Sound staging) {place k : Nat}
    (hp : place < Signature.maxSlots) (hk : place < k) (change : StagedSlot → StagedSlot)
    {slots : List StagedSlot}
    (ht : slots.take k = (staging.changed place change).slots.take k) :
    ∃ slot ∈ staging.slots, slots.drop place = change slot :: slots.drop (place + 1) := by
  have hlt : place < staging.slots.length := by rw [h.slots]; exact hp
  refine ⟨staging.slots[place], List.getElem_mem hlt, ?_⟩
  have hget : slots[place]? = some (change staging.slots[place]) := by
    have hsame := congrArg (·[place]?) ht
    simp only [List.getElem?_take, if_pos hk] at hsame
    rw [hsame]
    show (staging.slots.modify place change)[place]? = _
    rw [List.getElem?_modify_eq, List.getElem?_eq_getElem hlt]
    rfl
  obtain ⟨hlt', hslot⟩ := List.getElem?_eq_some_iff.mp hget
  rw [List.drop_eq_getElem_cons hlt', hslot]

/-- **A value that fits takes one slot**, and what is loaded behind it leaves that slot alone. -/
theorem Sound.loadValue_staged {staging : Staging} (h : Sound staging) (place index : Nat)
    {type : SlotType} {value : ScriptValue} {a : NativeArgument}
    (hp : place + width type ≤ Signature.maxSlots) (ha : Becomes type value a) :
    ∃ staging', Sound staging'
      ∧ staging.loadValue place index type value = (.ok (), staging')
      ∧ staging'.slots.take place = staging.slots.take place
      ∧ ∀ {types : List SlotType} {values : List ScriptValue} {slots : List StagedSlot},
          slots.take (place + width type) = staging'.slots.take (place + width type) →
          Staged types values (slots.drop (place + width type)) →
          Staged (type :: types) (value :: values) (slots.drop place) := by
  rw [ha.width] at hp ⊢
  obtain ⟨change, hkeep, hload, hslot⟩ := h.loadValue_fits index hp ha
  refine ⟨_, h.changed place hkeep, hload, staging.take_changed (Nat.le_refl _) change, ?_⟩
  -- what is staged behind this slot may change anything but the slot itself
  intro types values slots ht hrest
  obtain ⟨slot, _, hdrop⟩ := h.drop_changed hp (Nat.lt_succ_self _) change ht
  rw [hdrop]
  exact .value ((hslot slot).1 ▸ ha) (hslot slot).2 hrest

/-- A number that the native writes takes one slot. -/
theorem Sound.loadNumber_staged {staging : Staging} (h : Sound staging) {place : Nat}
    (hp : place < Signature.maxSlots) (kind : SlotKind) {slots : List StagedSlot}
    (ht : slots.take (place + 1) =
      (staging.changed place (StagedSlot.loadReference kind)).slots.take (place + 1)) :
    ∃ slot : StagedSlot, slot.kind = kind ∧ slot.number = 0
      ∧ slots.drop place = slot :: slots.drop (place + 1) := by
  obtain ⟨slot, _, hdrop⟩ := h.drop_changed hp (Nat.lt_succ_self _) _ ht
  exact ⟨_, rfl, rfl, hdrop⟩

/-- A text that the native writes takes two slots, for the buffer and for its size. -/
theorem Sound.loadBuffer_staged {staging : Staging} (h : Sound staging) {place : Nat}
    (hp : place + 1 < Signature.maxSlots) {slots : List StagedSlot}
    (ht : slots.take (place + 2) =
      ((staging.changed place StagedSlot.loadBuffer).changed (place + 1)
        (StagedSlot.loadInteger (Cell.ofSize maxTextLength))).slots.take (place + 2)) :
    ∃ (slot size : StagedSlot) (behind : List UInt8), slot.kind = .buffer
      ∧ slot.output = 0 :: behind ∧ behind.length + 1 = maxTextLength ∧ size.kind = .integer
      ∧ size.number = Cell.ofSize maxTextLength
      ∧ slots.drop place = slot :: size :: slots.drop (place + 2) := by
  have h₁ := h.changed place keepsSizes_loadBuffer
  obtain ⟨size, _, hsize⟩ := h₁.drop_changed hp (Nat.lt_succ_self _) _ ht
  -- the second load is behind the buffer
  have ht₁ : slots.take (place + 1) =
      (staging.changed place StagedSlot.loadBuffer).slots.take (place + 1) := by
    rw [take_eq_of_le (by omega) ht, take_changed _ (Nat.le_refl _)]
  obtain ⟨slot, hmem, hslot⟩ := h.drop_changed (by omega) (Nat.lt_succ_self _) _ ht₁
  refine ⟨_, _, slot.output.drop 1, rfl, rfl, ?_, rfl, rfl, by rw [hslot, hsize]⟩
  rw [List.length_drop, h.output slot hmem]
  rfl

/-- **What the native writes takes its slots** without a value. -/
theorem Sound.loadReference_staged {staging : Staging} (h : Sound staging) (place : Nat)
    {type : SlotType} (hp : place + width type ≤ Signature.maxSlots)
    (href : type.isReference = true) :
    ∃ staging', Sound staging'
      ∧ staging.loadReference place type = (.ok (), staging')
      ∧ staging'.slots.take place = staging.slots.take place
      ∧ ∀ {types : List SlotType} {values : List ScriptValue} {slots : List StagedSlot},
          slots.take (place + width type) = staging'.slots.take (place + width type) →
          Staged types values (slots.drop (place + width type)) →
          Staged (type :: types) values (slots.drop place) := by
  have hnumber : ∀ kind, KeepsSizes (StagedSlot.loadReference kind) := fun kind =>
    keepsSizes_of_eq (fun _ => rfl) (fun _ => rfl)
  cases type with
  | intRef =>
      refine ⟨_, h.changed place (hnumber .intRef), h.load1 hp _,
        staging.take_changed (Nat.le_refl _) _, ?_⟩
      intro types values slots ht hrest
      obtain ⟨slot, hkind, hzero, hdrop⟩ := h.loadNumber_staged hp .intRef ht
      rw [hdrop]
      exact .intRef hkind hzero hrest
  | floatRef =>
      refine ⟨_, h.changed place (hnumber .floatRef), h.load1 hp _,
        staging.take_changed (Nat.le_refl _) _, ?_⟩
      intro types values slots ht hrest
      obtain ⟨slot, hkind, hzero, hdrop⟩ := h.loadNumber_staged hp .floatRef ht
      rw [hdrop]
      exact .floatRef hkind hzero hrest
  | textRef =>
      have hp' : place + 1 < Signature.maxSlots := hp
      have h₁ := h.changed place keepsSizes_loadBuffer
      have h₂ := h₁.changed (place + 1)
        (show KeepsSizes (StagedSlot.loadInteger (Cell.ofSize maxTextLength)) from
          keepsSizes_of_eq (fun _ => rfl) (fun _ => rfl))
      refine ⟨_, h₂, ?_, ?_, ?_⟩
      · unfold Staging.loadReference
        simp only [h.load1 (show place < Signature.maxSlots by omega), h₁.load1 hp']
      · rw [take_changed _ (by omega), take_changed _ (Nat.le_refl _)]
      · intro types values slots ht hrest
        obtain ⟨slot, size, behind, h3, h4, h5, h6, h7, hdrop⟩ := h.loadBuffer_staged hp' ht
        rw [hdrop]
        exact .textRef h3 h4 h5 h6 h7 hrest
  | _ => exact absurd href (by decide)

theorem slotCount_cons (type : SlotType) (types : List SlotType) :
    slotCount (type :: types) = width type + slotCount types := by
  unfold slotCount
  rw [List.map_cons, List.sum_cons]

/-- The arguments in the slots of a signature, the first of which takes one slot. -/
theorem taken_cons {type : SlotType} (h : width type = 1) (types : List SlotType) (slot : StagedSlot)
    (slots : List StagedSlot) :
    ((slot :: slots).take (slotCount (type :: types))).map (·.argument) =
      slot.argument :: (slots.take (slotCount types)).map (·.argument) := by
  rw [slotCount_cons, h, Nat.add_comm, List.take_succ_cons, List.map_cons]

/-- A text that the native writes takes two. -/
theorem taken_text (types : List SlotType) (slot size : StagedSlot) (slots : List StagedSlot) :
    ((slot :: size :: slots).take (slotCount (.textRef :: types))).map (·.argument) =
      slot.argument :: size.argument :: (slots.take (slotCount types)).map (·.argument) := by
  rw [slotCount_cons, show width .textRef = 1 + 1 from rfl, Nat.add_comm, ← Nat.add_assoc,
    List.take_succ_cons, List.take_succ_cons, List.map_cons, List.map_cons]

/-- **Values that nothing is said against are staged.** -/
theorem Sound.load_staged : ∀ {types : List SlotType} {values : List ScriptValue}
    (place index : Nat) {staging : Staging}, Sound staging →
    place + slotCount types ≤ Signature.maxSlots → values.length = (plainSlots types).length →
    refusals? types values index = none →
    ∃ staging', Sound staging'
      ∧ staging.load types values place index = (.ok (), staging')
      ∧ staging'.slots.take place = staging.slots.take place
      ∧ Staged types values (staging'.slots.drop place)
  | [], [], _, _, staging, h, _, _, _ => ⟨staging, h, rfl, rfl, .nil⟩
  | [], _ :: _, _, _, _, _, _, hcount, _ => by exact absurd hcount (by simp [plainSlots])
  | type :: types, values, place, index, staging, h, hroom, hcount, hnone => by
      rw [slotCount_cons] at hroom
      unfold refusals? at hnone
      unfold Staging.load
      cases htype : type.isReference with
      | true =>
          rw [if_pos htype] at hnone
          rw [plainSlots_reference htype] at hcount
          obtain ⟨staging₁, h₁, hload₁, hfront₁, hstage⟩ :=
            h.loadReference_staged place (by omega) htype
          obtain ⟨staging₂, h₂, hload₂, hfront₂, hstaged⟩ :=
            h₁.load_staged (place + width type) _ (by omega) hcount hnone
          -- the slots in front of a place are not touched by what is loaded from there on
          refine ⟨staging₂, h₂, ?_, ?_, hstage hfront₂ hstaged⟩
          · rw [if_pos rfl, hload₁]
            exact hload₂
          · exact (take_eq_of_le (Nat.le_add_right _ _) hfront₂).trans hfront₁
      | false =>
          rw [if_neg (by rw [htype]; decide)] at hnone
          rw [plainSlots_value htype] at hcount
          cases values with
          | nil => exact absurd hcount (by simp)
          | cons value values =>
              obtain ⟨hfits, hnone⟩ := Option.or_eq_none_iff.mp hnone
              obtain ⟨a, ha⟩ := fits_of_refusal? htype hfits
              obtain ⟨staging₁, h₁, hload₁, hfront₁, hstage⟩ :=
                h.loadValue_staged place index (by omega) ha
              obtain ⟨staging₂, h₂, hload₂, hfront₂, hstaged⟩ :=
                h₁.load_staged (place + width type) _ (by omega) (Nat.succ.inj hcount) hnone
              refine ⟨staging₂, h₂, ?_, ?_, hstage hfront₂ hstaged⟩
              · rw [if_neg (by decide)]
                dsimp only
                rw [hload₁]
                exact hload₂
              · exact (take_eq_of_le (Nat.le_add_right _ _) hfront₂).trans hfront₁

/-- **Values that something is said against are refused** with the first thing that is said. -/
theorem Sound.load_refused : ∀ {types : List SlotType} {values : List ScriptValue}
    (place : Nat) {index : Nat} {staging : Staging} {e : InvokeError}, Sound staging →
    place + slotCount types ≤ Signature.maxSlots → refusals? types values index = some e →
    ∃ staging', Sound staging' ∧ staging.load types values place index = (.error e, staging')
  | [], values, _, _, _, _, _, _, he => by exact absurd he (by simp [refusals?])
  | type :: types, values, place, index, staging, e, h, hroom, he => by
      rw [slotCount_cons] at hroom
      unfold refusals? at he
      unfold Staging.load
      cases htype : type.isReference with
      | true =>
          rw [if_pos htype] at he
          obtain ⟨staging₁, h₁, hload₁, _, _⟩ :=
            h.loadReference_staged place (by omega) htype
          obtain ⟨staging₂, h₂, hload₂⟩ :=
            h₁.load_refused (place + width type) (by omega) he
          refine ⟨staging₂, h₂, ?_⟩
          rw [if_pos rfl, hload₁]
          exact hload₂
      | false =>
          rw [if_neg (by rw [htype]; decide)] at he
          rw [if_neg (by decide)]
          cases values with
          | nil => exact ⟨staging, h, by rw [← Option.some.inj he]⟩
          | cons value values =>
              dsimp only at he ⊢
              have hwidth : 1 ≤ width type := by cases type <;> decide
              -- the slots up to the refused value are staged, and stay so
              cases hvalue : type.refusal? index value with
              | some e₁ =>
                  rw [hvalue] at he
                  obtain ⟨staging₁, h₁, hload₁⟩ :=
                    h.loadValue_refused place (by omega) hvalue
                  refine ⟨staging₁, h₁, ?_⟩
                  rw [hload₁, ← Option.some.inj he]
              | none =>
                  rw [hvalue] at he
                  obtain ⟨a, ha⟩ := fits_of_refusal? htype hvalue
                  obtain ⟨staging₁, h₁, hload₁, _, _⟩ :=
                    h.loadValue_staged place index (by omega) ha
                  obtain ⟨staging₂, h₂, hload₂⟩ :=
                    h₁.load_refused (place + width type) (by omega) he
                  refine ⟨staging₂, h₂, ?_⟩
                  rw [hload₁]
                  exact hload₂

end Staging

end ScriptBridge
