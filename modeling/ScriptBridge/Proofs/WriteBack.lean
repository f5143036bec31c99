import ScriptBridge.Proofs.HandlerCalls
import ScriptBridge.Proofs.ScratchHeap
import ScriptBridge.Proofs.Transcoding

/-!
# What a provided native writes

A handler answers a value for each reference of its signature, and the values are written where the
parameters of the references point. Addresses come from a program and may be anything: outside of
memory, into another buffer, into a cell that was just written. This file says which cells change
and what they hold then.

**One reference.** `SlotWritten` is all that can happen. There is no parameter, or it addresses
nothing that can be used, and then nothing is written. Otherwise a row of cells is put at the address:
one cell for a number, and for a text as much of it as fits, with a terminator. What fits is counted
from the address up to the end of its region (`Machine.Usable`), and for a text in the last place the
parameter behind it can be the smaller bound.

**All references.** They are written one after the other (`WrittenInTurn`). No write moves a cursor,
so what can be used from an address is the same for all of them, and no cell changes that lies outside
of what a parameter addresses.

**The parameters themselves** can lie in the memory that is written, and they are looked at anew when
the turn of a reference comes (`Turn`). An output that reaches into them sends those after it elsewhere,
or makes them disappear. Parameters that no output reaches stay what they were (`Spared`).

What is done in turn has one outcome (`WrittenInTurn.unique`), so saying what happens says what is left.
-/

namespace ScriptBridge

namespace Machine

/-! ## Regions -/

/-- **The region that an address lies in**, by its end. What is below the top of the heap counts as heap. -/
inductive LiesIn (m : Machine) (address : Cell) : Cell → Prop where
  | heap : address < m.heapTop → LiesIn m address m.heapTop
  | stack : ¬ address < m.heapTop → m.stackTop ≤ address → address < m.stackEnd →
      LiesIn m address m.stackEnd

/-- **Cells that can be used from an address on.** It is the address of the cell at `index`, and from
there `room` whole cells, one at least, lie in front of the end of its region. -/
structure Usable (m : Machine) (address : Cell) (index room : Nat) : Prop where
  hasData : m.hasData = true
  start : address.toInt = 4 * index
  region : ∃ last, m.LiesIn address last ∧ 4 * (index + room : Int) ≤ last.toInt
    ∧ last.toInt < 4 * (index + room + 1 : Int)
  pos : 0 < room

/-- **A machine whose regions lie in its data**, if it can use any. -/
structure Whole (m : Machine) : Prop where
  heap : m.hasData = true → m.heapTop.toInt ≤ 4 * (m.cells.size : Int)
  stack : m.hasData = true → m.stackEnd.toInt ≤ 4 * (m.cells.size : Int)

variable {m m' : Machine} {address : Cell} {index room : Nat}

theorem regionEnd?_eq_some_iff {last : Cell} :
    m.regionEnd? address = some last ↔ m.LiesIn address last := by
  unfold regionEnd?
  constructor
  · intro h
    split at h
    · rename_i hheap
      obtain rfl := Option.some.inj h
      exact .heap hheap
    · rename_i hheap
      split at h
      · rename_i hstack
        obtain rfl := Option.some.inj h
        exact .stack hheap hstack.1 hstack.2
      · exact absurd h (by simp)
  · intro h
    cases h with
    | heap hheap => rw [if_pos hheap]
    | stack hheap hlow hhigh => rw [if_neg hheap, if_pos ⟨hlow, hhigh⟩]

/-- An address that is not refused is that of a cell. -/
theorem valid_iff : ¬ (address < 0 ∨ address % 4 ≠ 0) ↔
    ∃ index : Nat, address.toInt = 4 * (index : Int) := by
  have hmod : (address % 4).toInt = address.toInt.tmod 4 := Int32.toInt_mod address 4
  have hneg : address < 0 ↔ address.toInt < 0 := by
    rw [Int32.lt_iff_toInt_lt, Int32.toInt_zero]
  have hzero : address % 4 = 0 ↔ address.toInt.tmod 4 = 0 := by
    rw [← Int32.toInt_inj, hmod, Int32.toInt_zero]
  constructor
  · intro h
    rw [not_or, not_not, hneg, hzero] at h
    obtain ⟨hnonneg, haligned⟩ := h
    refine ⟨address.toInt.toNat / 4, ?_⟩
    rw [Int.tmod_eq_emod_of_nonneg (by omega)] at haligned
    omega
  · rintro ⟨index, hindex⟩
    rw [not_or, not_not, hneg, hzero, hindex, Int.tmod_eq_emod_of_nonneg (by omega)]
    omega

/-- **What can be used is what the machine lets a program use.** -/
theorem usable_iff : m.Usable address index room ↔
    m.index? address = some index ∧ m.accessibleCells address = room := by
  constructor
  · rintro ⟨hdata, haddress, ⟨last, hlast, hlow, hhigh⟩, hpos⟩
    have hroom : m.accessibleCells address = room := by
      unfold accessibleCells cellSize
      rw [if_neg (valid_iff.mpr ⟨index, haddress⟩), regionEnd?_eq_some_iff.mpr hlast]
      dsimp only
      omega
    refine ⟨?_, hroom⟩
    unfold index? cellSize
    rw [hroom, if_pos ⟨by omega, hdata⟩]
    refine congrArg some ?_
    omega
  · rintro ⟨hindex, hroom⟩
    unfold index? at hindex
    split at hindex
    · rename_i hany
      obtain ⟨hany, hdata⟩ := hany
      have hindex := Option.some.inj hindex
      unfold cellSize at hindex
      rw [hroom] at hany
      unfold accessibleCells cellSize at hroom
      split at hroom
      · omega
      · rename_i hvalid
        obtain ⟨place, hplace⟩ := valid_iff.mp hvalid
        split at hroom
        · rename_i last hlast
          refine ⟨hdata, by omega, ⟨last, regionEnd?_eq_some_iff.mp hlast, ?_, ?_⟩, by omega⟩
          · omega
          · omega
        · omega
    · exact absurd hindex (by simp)

theorem Usable.unique {index' room' : Nat} (h : m.Usable address index room)
    (h' : m.Usable address index' room') : index = index' ∧ room = room' := by
  obtain ⟨hindex, hroom⟩ := usable_iff.mp h
  obtain ⟨hindex', hroom'⟩ := usable_iff.mp h'
  exact ⟨Option.some.inj (hindex.symm.trans hindex'), hroom.symm.trans hroom'⟩

/-- What can be used lies in the data. -/
theorem Usable.fits (h : m.Usable address index room) (hwhole : m.Whole) :
    index + room ≤ m.cells.size := by
  obtain ⟨hdata, _, ⟨last, hlast, hlow, _⟩, _⟩ := h
  have hheap := hwhole.heap hdata
  have hstack := hwhole.stack hdata
  cases hlast with
  | heap _ => omega
  | stack _ _ _ => omega

/-- Two changes of nothing but cells are one. -/
theorem rest_trans {m'' : Machine} (h : m' = { m with cells := m'.cells })
    (h' : m'' = { m' with cells := m''.cells }) : m'' = { m with cells := m''.cells } := by
  rw [h] at h'
  exact h'

/-- What can be used does not depend on what the cells hold. -/
theorem Usable.of_rest (hrest : m' = { m with cells := m'.cells })
    (h : m'.Usable address index room) : m.Usable address index room := by
  obtain ⟨hdata, hstart, ⟨last, hlast, hregion⟩, hpos⟩ := h
  rw [hrest] at hdata hlast
  refine ⟨hdata, hstart, ⟨last, ?_, hregion⟩, hpos⟩
  cases hlast with
  | heap hheap => exact .heap hheap
  | stack hheap hlow hhigh => exact .stack hheap hlow hhigh

theorem Whole.of_rest (hrest : m' = { m with cells := m'.cells })
    (hsize : m'.cells.size = m.cells.size) (h : m.Whole) : m'.Whole := by
  have hdata : m'.hasData = m.hasData := by rw [hrest]
  have hheap : m'.heapTop = m.heapTop := by rw [hrest]
  have hstack : m'.stackEnd = m.stackEnd := by rw [hrest]
  constructor
  · rw [hdata, hheap, hsize]
    exact h.heap
  · rw [hdata, hstack, hsize]
    exact h.stack

/-! ## Rows of cells -/

/-- **A row of cells is put at an index.** Nothing else becomes different. -/
structure Replaced (m : Machine) (index : Nat) (row : List Cell) (m' : Machine) : Prop where
  rest : m' = { m with cells := m'.cells }
  size : m'.cells.size = m.cells.size
  written : m'.cellsFrom index row.length = row
  others : ∀ i, i < index ∨ index + row.length ≤ i → m'.cellAt i = m.cellAt i

/-- A row that is put at an index leaves one machine. -/
theorem Replaced.unique {m'' : Machine} {row : List Cell} (h : m.Replaced index row m')
    (h' : m.Replaced index row m'') : m' = m'' := by
  have hcells : m'.cells = m''.cells := by
    refine Array.ext (h.size.trans h'.size.symm) fun i hi hi' => ?_
    -- inside of the row both hold the row, and outside of it both hold what was there
    have hcell : m'.cellAt i = m''.cellAt i := by
      by_cases hrow : index ≤ i ∧ i < index + row.length
      · exact cellAt_of_cellsFrom_eq (h.written.trans h'.written.symm) hrow.1 hrow.2
      · rw [h.others i (by omega), h'.others i (by omega)]
    unfold cellAt at hcell
    rwa [Array.getD_eq_getD_getElem?, Array.getD_eq_getD_getElem?, Array.getElem?_eq_getElem hi,
      Array.getElem?_eq_getElem hi'] at hcell
  rw [h.rest, h'.rest, hcells]

/-- Writing a row reaches no cell behind it. -/
theorem overwrite_getD_of_le : ∀ (values : List Cell) (cells : Array Cell) {index i : Nat},
    index + values.length ≤ i → (overwrite cells index values).getD i 0 = cells.getD i 0
  | [], _, _, _, _ => rfl
  | v :: values, cells, index, i, h => by
      rw [List.length_cons] at h
      rw [overwrite, overwrite_getD_of_le values _ (by omega), Array.getD_eq_getD_getElem?,
        Array.getD_eq_getD_getElem?, Array.getElem?_setIfInBounds_ne (by omega)]

theorem replaced_setCells {row : List Cell} (hfits : index + row.length ≤ m.cells.size) :
    m.Replaced index row (m.setCells index row) where
  rest := rfl
  size := overwrite_size row m.cells index
  written := setCells_cellsFrom hfits
  others := by
    intro i hi
    rcases hi with hbefore | hbehind
    · exact overwrite_getD_of_lt row m.cells hbefore
    · exact overwrite_getD_of_le row m.cells hbehind

/-- **A text becomes a row of cells**: as much of it as fits in front of a terminator. -/
theorem writeBytes?_of_usable (h : m.Usable address index room) {capacity : Option Nat}
    {bytes : List UInt8} (hcapacity : 0 < capacity.getD room) :
    (m.writeBytes? address capacity bytes).map (·.2) = some (m.setCells index
      (CellText.unpackedCells (bytes.take (min (capacity.getD room) room - 1)))) := by
  obtain ⟨hindex, hroom⟩ := usable_iff.mp h
  have hpos : 0 < min (capacity.getD room) room := by
    have := h.pos
    omega
  have hlength := cellsFrom_length m index (min (capacity.getD room) room)
  unfold writeBytes?
  rw [hindex, hroom, Option.map_some, Option.map_some]
  dsimp only
  generalize m.cellsFrom index (min (capacity.getD room) room) = cells at hlength
  cases cells with
  | nil => exact absurd hlength (by simp only [List.length_nil]; omega)
  | cons first later =>
      unfold CellText.encode CellText.overlay
      dsimp only
      rw [hlength, List.take_left]

end Machine

/-! ## References -/

/-- The references of a signature with their places, the first of which is given. -/
def referencesFrom (place : Nat) (slots : List SlotType) : List (SlotType × Nat) :=
  (slots.zipIdx place).filter (·.1.isReference)

/-- **The references of a signature**, with their places among all of its characters. -/
def Signature.references (signature : Signature) : List (SlotType × Nat) :=
  referencesFrom 0 signature.slots

section

variable {slot : SlotType} {slots : List SlotType} {place : Nat}

theorem referencesFrom_reference (h : slot.isReference = true) :
    referencesFrom place (slot :: slots) = (slot, place) :: referencesFrom (place + 1) slots := by
  unfold referencesFrom
  rw [List.zipIdx_cons, List.filter_cons_of_pos (by simp [h])]

theorem referencesFrom_plain (h : slot.isReference = false) :
    referencesFrom place (slot :: slots) = referencesFrom (place + 1) slots := by
  unfold referencesFrom
  rw [List.zipIdx_cons, List.filter_cons_of_neg (by simp [h])]

theorem referencesFrom_length :
    (referencesFrom place slots).length = slots.countP SlotType.isReference := by
  induction slots generalizing place with
  | nil => rfl
  | cons slot rest ih =>
      cases hslot : slot.isReference with
      | true =>
          rw [referencesFrom_reference hslot, List.length_cons, ih,
            List.countP_cons_of_pos hslot]
      | false =>
          rw [referencesFrom_plain hslot, ih, List.countP_cons_of_neg (by simp [hslot])]

end

/-! ## Values -/

/-- **The number of cells that a text may take** of those in its region. For the last place of a
signature the parameter behind it is a second bound, if there is one and it is positive. -/
inductive ParameterBlock.LimitedTo (block : ParameterBlock) (signature : Signature)
    (place room : Nat) : Nat → Prop where
  | size {size : Cell} : place + 1 = signature.slots.length → block.get? (place + 1) = some size →
      0 < size → LimitedTo block signature place room (min size.toInt.toNat room)
  | region : (∀ size, place + 1 = signature.slots.length → block.get? (place + 1) = some size →
      ¬ 0 < size) → LimitedTo block signature place room room

/-- **The cells of a value** for a reference: one for a number, and for a text no more than the limit. A
value that is not of the right kind becomes minus one, or a text without characters. -/
inductive ScriptValue.Row (limit : Nat) : SlotType → ScriptValue → List Cell → Prop where
  | int {value : ScriptValue} {c : Cell} : value.IsCell c → Row limit .intRef value [c]
  | noInt {value : ScriptValue} : (∀ c, ¬ value.IsCell c) → Row limit .intRef value [-1]
  | float {x : Double} : Row limit .floatRef (.number x) [Cell.ofSingle x.toSingle]
  | noFloat {value : ScriptValue} : (∀ x, value ≠ .number x) →
      Row limit .floatRef value [Cell.ofSingle Single.minusOne]
  | text {text : String} {row : List Cell} :
      row = CellText.unpackedCells ((CodePage.encode text).take (limit - 1)) →
      row.length = min limit (text.length + 1) → Row limit .textRef (.text text) row
  | noText {value : ScriptValue} : (∀ text, value ≠ .text text) → Row limit .textRef value [0]

/-- **Where a value goes and what it becomes there.** Its parameter addresses cells that can be used,
and the row of its cells is not longer than they are. -/
inductive ParameterBlock.Target (block : ParameterBlock) (signature : Signature) (m : Machine) :
    SlotType × Nat → ScriptValue → Nat → List Cell → Prop where
  | mk {slot : SlotType} {place : Nat} {value : ScriptValue} {address : Cell}
      {index room limit : Nat} {row : List Cell} : block.get? place = some address →
      m.Usable address index room → block.LimitedTo signature place room limit →
      value.Row limit slot row → row.length ≤ room →
      Target block signature m (slot, place) value index row

/-- **What can happen for one reference.** Nothing does without a parameter, or without cells that can
be used at its address. -/
inductive ParameterBlock.SlotWritten (block : ParameterBlock) (signature : Signature) (m : Machine)
    (slot : SlotType × Nat) (value : ScriptValue) : Machine → Prop where
  | missing : block.get? slot.2 = none → SlotWritten block signature m slot value m
  | unusable {address : Cell} : block.get? slot.2 = some address →
      (∀ index room, ¬ m.Usable address index room) → SlotWritten block signature m slot value m
  | written {index : Nat} {row : List Cell} {m' : Machine} :
      block.Target signature m slot value index row → m.Replaced index row m' →
      SlotWritten block signature m slot value m'

/-- **Values are written in turn**, each to its reference, by what the parameters are at that time. -/
inductive Parameters.WrittenInTurn (parameters : Parameters) (signature : Signature) :
    List ((SlotType × Nat) × ScriptValue) → Machine → Machine → Prop where
  | nil {m : Machine} : WrittenInTurn parameters signature [] m m
  | cons {slot : SlotType × Nat} {value : ScriptValue}
      {rest : List ((SlotType × Nat) × ScriptValue)} {m m₁ m₂ : Machine} :
      (parameters.block m).SlotWritten signature m slot value m₁ →
      WrittenInTurn parameters signature rest m₁ m₂ →
      WrittenInTurn parameters signature ((slot, value) :: rest) m m₂

/-- **The turn of a value**: what memory is when all values in front of it are written. -/
inductive Parameters.Turn (parameters : Parameters) (signature : Signature)
    (entries : List ((SlotType × Nat) × ScriptValue)) (m : Machine)
    (entry : (SlotType × Nat) × ScriptValue) (between : Machine) : Prop where
  | mk {earlier later : List ((SlotType × Nat) × ScriptValue)} :
      entries = earlier ++ entry :: later →
      parameters.WrittenInTurn signature earlier m between →
      Turn parameters signature entries m entry between

/-- Whether a cell of memory belongs to the parameters: one for the size, and one for each parameter. -/
def Parameters.Covers (parameters : Parameters) (m : Machine) (i : Nat) : Prop :=
  match parameters with
  | .apart _ => False
  | .inMemory index => index ≤ i ∧ i ≤ index + (parameters.block m).count

/-- **Parameters that no value is written to.** -/
def Parameters.Spared (parameters : Parameters) (signature : Signature)
    (entries : List ((SlotType × Nat) × ScriptValue)) (m : Machine) : Prop :=
  ∀ entry between, parameters.Turn signature entries m entry between →
    ∀ index row, (parameters.block between).Target signature between entry.1 entry.2 index row →
      ∀ i, index ≤ i → i < index + row.length → ¬ parameters.Covers m i

/-- A cell is the number that equals it, and no other cell does. -/
theorem ScriptValue.IsCell.unique {value : ScriptValue} {c c' : Cell} (h : value.IsCell c)
    (h' : value.IsCell c') : c = c' := by
  rw [← exactCell?_eq_some_iff] at h h'
  exact Option.some.inj (h.symm.trans h')

/-- A value becomes one row of cells. -/
theorem ScriptValue.Row.unique {limit : Nat} {slot : SlotType} {value : ScriptValue}
    {row row' : List Cell} (h : value.Row limit slot row) (h' : value.Row limit slot row') :
    row = row' := by
  cases h with
  | int hcell =>
      cases h' with
      | int hcell' => rw [hcell.unique hcell']
      | noInt hno => exact absurd hcell (hno _)
  | noInt hno =>
      cases h' with
      | int hcell => exact absurd hcell (hno _)
      | noInt _ => rfl
  | float =>
      cases h' with
      | float => rfl
      | noFloat hno => exact absurd rfl (hno _)
  | noFloat hno =>
      cases h' with
      | float => exact absurd rfl (hno _)
      | noFloat _ => rfl
  | text hrow _ =>
      cases h' with
      | text hrow' _ => exact hrow.trans hrow'.symm
      | noText hno => exact absurd rfl (hno _)
  | noText hno =>
      cases h' with
      | text _ _ => exact absurd rfl (hno _)
      | noText _ => rfl

namespace ParameterBlock

variable {block : ParameterBlock} {signature : Signature} {m m' : Machine} {slot : SlotType × Nat}
  {value : ScriptValue} {place room : Nat}

/-! ## One reference -/

/-- The limit of a text is one number. -/
theorem LimitedTo.unique {limit limit' : Nat} (h : block.LimitedTo signature place room limit)
    (h' : block.LimitedTo signature place room limit') : limit = limit' := by
  cases h with
  | size hplace hsize hpos =>
      cases h' with
      | size _ hsize' _ => rw [Option.some.inj (hsize.symm.trans hsize')]
      | region hnone => exact absurd hpos (hnone _ hplace hsize)
  | region hnone =>
      cases h' with
      | size hplace hsize hpos => exact absurd hpos (hnone _ hplace hsize)
      | region _ => rfl

/-- A value goes to one place. -/
theorem Target.unique {index index' : Nat} {row row' : List Cell}
    (h : block.Target signature m slot value index row)
    (h' : block.Target signature m slot value index' row') : index = index' ∧ row = row' := by
  cases h with
  | mk haddress husable hlimit hrow _ =>
      cases h' with
      | mk haddress' husable' hlimit' hrow' _ =>
          obtain rfl := Option.some.inj (haddress.symm.trans haddress')
          obtain ⟨rfl, rfl⟩ := husable.unique husable'
          obtain rfl := hlimit.unique hlimit'
          exact ⟨rfl, hrow.unique hrow'⟩

/-- A value with a target has a parameter, and cells that can be used at its address. -/
theorem Target.usable {index : Nat} {row : List Cell}
    (h : block.Target signature m slot value index row) :
    ∃ address room, block.get? slot.2 = some address ∧ m.Usable address index room := by
  cases h with
  | mk haddress husable _ _ _ => exact ⟨_, _, haddress, husable⟩

/-- What is written for a value with a target. -/
theorem SlotWritten.replaced {index : Nat} {row : List Cell}
    (h : block.SlotWritten signature m slot value m')
    (htarget : block.Target signature m slot value index row) : m.Replaced index row m' := by
  obtain ⟨address, room, haddress, husable⟩ := htarget.usable
  cases h with
  | missing hnone => exact absurd (haddress.symm.trans hnone) (by simp)
  | unusable haddress' hnone =>
      rw [Option.some.inj (haddress.symm.trans haddress')] at husable
      exact absurd husable (hnone index room)
  | written htarget' hreplaced =>
      obtain ⟨rfl, rfl⟩ := htarget'.unique htarget
      exact hreplaced

/-- **One reference has one outcome.** -/
theorem SlotWritten.unique {m'' : Machine} (h : block.SlotWritten signature m slot value m')
    (h' : block.SlotWritten signature m slot value m'') : m' = m'' := by
  by_cases htarget : ∃ index row, block.Target signature m slot value index row
  · obtain ⟨index, row, htarget⟩ := htarget
    exact (h.replaced htarget).unique (h'.replaced htarget)
  · -- without a target nothing is written
    have hkept : ∀ {left}, block.SlotWritten signature m slot value left → left = m := by
      intro left hwritten
      cases hwritten with
      | missing _ => rfl
      | unusable _ _ => rfl
      | written hwritten _ => exact absurd ⟨_, _, hwritten⟩ htarget
    rw [hkept h, hkept h']

/-- What is written for one reference moves no cursor, and it is all within its target. -/
theorem SlotWritten.frame (h : block.SlotWritten signature m slot value m') :
    m' = { m with cells := m'.cells } ∧ m'.cells.size = m.cells.size
      ∧ ∀ i, m'.cellAt i ≠ m.cellAt i → ∃ index row,
          block.Target signature m slot value index row ∧ index ≤ i ∧ i < index + row.length := by
  cases h with
  | missing _ => exact ⟨rfl, rfl, fun i hi => absurd rfl hi⟩
  | unusable _ _ => exact ⟨rfl, rfl, fun i hi => absurd rfl hi⟩
  | @written index row _ htarget hreplaced =>
      refine ⟨hreplaced.rest, hreplaced.size, fun i hi => ⟨index, row, htarget, ?_⟩⟩
      by_contra houtside
      exact hi (hreplaced.others i (by omega))

theorem Target.fits {index : Nat} {row : List Cell} (hwhole : m.Whole)
    (h : block.Target signature m slot value index row) :
    index + row.length ≤ m.cells.size := by
  cases h with
  | mk _ husable _ _ hlength =>
      have hfits := husable.fits hwhole
      omega

end ParameterBlock

namespace Parameters

variable {parameters : Parameters} {signature : Signature} {m m' : Machine}
  {entries : List ((SlotType × Nat) × ScriptValue)}

/-! ## One after the other -/

theorem Turn.cons {first entry : (SlotType × Nat) × ScriptValue} {m₁ between : Machine}
    (hfirst : (parameters.block m).SlotWritten signature m first.1 first.2 m₁)
    (h : parameters.Turn signature entries m₁ entry between) :
    parameters.Turn signature (first :: entries) m entry between := by
  obtain ⟨rfl, hwritten⟩ := h
  exact .mk (List.cons_append ..).symm (.cons hfirst hwritten)

/-- The turns of the first values are the same if there are more. -/
theorem Turn.append {entry : (SlotType × Nat) × ScriptValue} {between : Machine}
    (h : parameters.Turn signature entries m entry between)
    (later : List ((SlotType × Nat) × ScriptValue)) :
    parameters.Turn signature (entries ++ later) m entry between := by
  obtain ⟨rfl, hwritten⟩ := h
  exact .mk (by rw [List.append_assoc, List.cons_append]) hwritten

/-- **All that is written lies within the targets of the values**, each by what the parameters are in
its turn. -/
theorem WrittenInTurn.frame (h : parameters.WrittenInTurn signature entries m m') :
    m' = { m with cells := m'.cells } ∧ m'.cells.size = m.cells.size
      ∧ ∀ i, m'.cellAt i ≠ m.cellAt i → ∃ entry between,
          parameters.Turn signature entries m entry between ∧ ∃ index row,
            (parameters.block between).Target signature between entry.1 entry.2 index row
              ∧ index ≤ i ∧ i < index + row.length := by
  induction h with
  | nil => exact ⟨rfl, rfl, fun i hi => absurd rfl hi⟩
  | @cons slot value rest m m₁ m₂ hfirst _ ih =>
      obtain ⟨hrest₁, hsize₁, hframe₁⟩ := hfirst.frame
      obtain ⟨hrest₂, hsize₂, hframe₂⟩ := ih
      refine ⟨Machine.rest_trans hrest₁ hrest₂, hsize₂.trans hsize₁, fun i hi => ?_⟩
      by_cases hlater : m₂.cellAt i = m₁.cellAt i
      · -- what the later values leave alone was changed by the first one
        rw [hlater] at hi
        exact ⟨(slot, value), m, .mk (List.nil_append _).symm .nil, hframe₁ i hi⟩
      · obtain ⟨entry, between, hturn, hinside⟩ := hframe₂ i hlater
        exact ⟨entry, between, hturn.cons hfirst, hinside⟩

/-- **Values that are written in turn have one outcome.** -/
theorem WrittenInTurn.unique {m'' : Machine} (h : parameters.WrittenInTurn signature entries m m')
    (h' : parameters.WrittenInTurn signature entries m m'') : m' = m'' := by
  induction h with
  | nil =>
      cases h' with
      | nil => rfl
  | cons hfirst _ ih =>
      cases h' with
      | cons hfirst' hrest' =>
          -- from one memory on, the parameters of the later values are the same as well
          obtain rfl := hfirst.unique hfirst'
          exact ih hrest'

/-- What is written in turn can be stopped in between. -/
theorem WrittenInTurn.split {earlier later : List ((SlotType × Nat) × ScriptValue)}
    (h : parameters.WrittenInTurn signature (earlier ++ later) m m') :
    ∃ between, parameters.WrittenInTurn signature earlier m between
      ∧ parameters.WrittenInTurn signature later between m' := by
  induction earlier generalizing m with
  | nil => exact ⟨m, .nil, h⟩
  | cons entry earlier ih =>
      cases h with
      | cons hfirst hrest =>
          obtain ⟨between, hearlier, hlater⟩ := ih hrest
          exact ⟨between, .cons hfirst hearlier, hlater⟩

/-! ## Parameters in memory -/

theorem count_inMemory (index : Nat) (m : Machine) :
    ((inMemory index).block m).count = (m.cellAt index).toInt.toNat / Machine.cellSize := by
  unfold block ParameterBlock.count Machine.cellAt
  rw [Array.getD_eq_getD_getElem?, ← Array.getElem?_toList]
  dsimp only
  cases hcells : m.cells.toList.drop index with
  | nil =>
      rw [List.getElem?_eq_none (List.drop_eq_nil_iff.mp hcells)]
      rfl
  | cons size rest =>
      have hsize : m.cells.toList[index]? = some size := by
        rw [← List.head?_drop, hcells]
        rfl
      rw [hsize]
      rfl

theorem get?_inMemory (index : Nat) (m : Machine) (place : Nat) :
    ((inMemory index).block m).get? place =
      if place < ((inMemory index).block m).count then some (m.cellAt (index + (place + 1)))
      else none := by
  unfold ParameterBlock.get?
  split
  · refine congrArg some ?_
    show ((m.cells.toList.drop index).drop 1).getD place 0 = m.cells.getD (index + (place + 1)) 0
    rw [List.drop_drop, List.getD_eq_getElem?_getD, List.getElem?_drop,
      Array.getD_eq_getD_getElem?, ← Array.getElem?_toList, Nat.add_assoc, Nat.add_comm 1]
  · rfl

/-- **Parameters whose cells are as they were** are what they were. -/
theorem get?_congr (h : ∀ i, parameters.Covers m i → m'.cellAt i = m.cellAt i) (place : Nat) :
    (parameters.block m').get? place = (parameters.block m).get? place := by
  cases parameters with
  | apart block => rfl
  | inMemory index =>
      have hcount : ((inMemory index).block m').count = ((inMemory index).block m).count := by
        rw [count_inMemory, count_inMemory, h index ⟨Nat.le_refl _, Nat.le_add_right _ _⟩]
      rw [get?_inMemory, get?_inMemory, hcount]
      split
      · rename_i hplace
        rw [h _ ⟨Nat.le_add_right _ _, Nat.add_le_add_left hplace _⟩]
      · rfl

/-- **Parameters that no value is written to** stay what they were, whichever turn it is. -/
theorem Spared.get? {earlier later : List ((SlotType × Nat) × ScriptValue)}
    (h : parameters.Spared signature (earlier ++ later) m)
    (hwritten : parameters.WrittenInTurn signature earlier m m') (place : Nat) :
    (parameters.block m').get? place = (parameters.block m).get? place := by
  obtain ⟨_, _, hframe⟩ := hwritten.frame
  refine get?_congr (fun i hcovers => ?_) place
  -- a cell of the parameters that is not what it was would lie in the row of a value
  by_contra hchanged
  obtain ⟨entry, between, hturn, index, row, htarget, hstart, hstop⟩ := hframe i hchanged
  exact h entry between (hturn.append later) index row htarget i hstart hstop hcovers

end Parameters

namespace ProvidedNatives

open ParameterBlock

variable {block : ParameterBlock} {signature : Signature} {m : Machine} {type : SlotType}
  {place index room : Nat} {address : Cell} {value : ScriptValue}

/-- **What a text may take is as its limit says.** -/
theorem limitedTo_textCapacity (hplace : place < signature.slots.length) :
    block.LimitedTo signature place room
      (min ((textCapacity block signature place).getD room) room) := by
  unfold textCapacity
  by_cases hlast : place + 1 < signature.slots.length
  · rw [if_pos hlast, Option.getD_none, Nat.min_self]
    exact .region fun size hplace _ => absurd hplace (by omega)
  · rw [if_neg hlast]
    cases hsize : block.get? (place + 1) with
    | none =>
        dsimp only
        rw [Option.getD_none, Nat.min_self]
        exact .region fun size _ hother => absurd hother (by simp [hsize])
    | some size =>
        dsimp only
        by_cases hpositive : 0 < size
        · rw [if_pos hpositive, Option.getD_some]
          exact .size (by omega) hsize hpositive
        · rw [if_neg hpositive, Option.getD_none, Nat.min_self]
          refine .region fun other _ hother => ?_
          obtain rfl := Option.some.inj (hsize.symm.trans hother)
          exact hpositive

theorem textCapacity_pos (hroom : 0 < room) :
    0 < (textCapacity block signature place).getD room := by
  unfold textCapacity
  split
  · exact hroom
  · split
    · rename_i size _
      split
      · rename_i hpositive
        rw [Int32.lt_iff_toInt_lt, Int32.toInt_zero] at hpositive
        rw [Option.getD_some]
        omega
      · exact hroom
    · exact hroom

/-- The row of a text that is cut to a limit. -/
theorem row_text {limit : Nat} (hlimit : 0 < limit) (value : ScriptValue) :
    ∃ row, value.Row limit .textRef row ∧ row.length ≤ limit ∧ row = CellText.unpackedCells
      ((CodePage.encode (value.text?.getD "")).take (limit - 1)) := by
  have hlength : ∀ text : String, (CellText.unpackedCells
      ((CodePage.encode text).take (limit - 1))).length = min limit (text.length + 1) := by
    intro text
    unfold CellText.unpackedCells
    rw [List.length_append, List.length_map, List.length_take, CodePage.encode_length]
    simp only [List.length_cons, List.length_nil]
    omega
  cases value with
  | text text => exact ⟨_, .text rfl (hlength text), by rw [hlength]; omega, rfl⟩
  | _ =>
      refine ⟨[0], .noText (by simp), hlimit, ?_⟩
      show [(0 : Cell)] = CellText.unpackedCells (([] : List UInt8).take (limit - 1))
      rw [List.take_nil]
      rfl

/-- The row of an integer. -/
theorem row_int {limit : Nat} (value : ScriptValue) :
    value.Row limit .intRef [value.exactCell?.getD (-1)] := by
  cases hcell : value.exactCell? with
  | some c => exact .int (ScriptValue.exactCell?_eq_some_iff.mp hcell)
  | none =>
      refine .noInt fun c hc => ?_
      rw [ScriptValue.exactCell?_eq_some_iff.mpr hc] at hcell
      exact absurd hcell (by simp)

/-- The row of a float. -/
theorem row_float {limit : Nat} (value : ScriptValue) : value.Row limit .floatRef
    [Cell.ofSingle ((value.number?.map Double.toSingle).getD Single.minusOne)] := by
  cases value with
  | number x => exact .float
  | _ => exact .noFloat (by simp)

/-- **A value whose place can be used** is written there as a row of cells. -/
theorem writeOne_of_usable (htype : type.isReference = true)
    (hplace : place < signature.slots.length) (haddress : block.get? place = some address)
    (husable : m.Usable address index room) :
    ∃ row, block.Target signature m (type, place) value index row
      ∧ writeOne block signature m place type value = m.setCells index row := by
  have hroom := husable.pos
  have hlimit : block.LimitedTo signature place room
      (min ((textCapacity block signature place).getD room) room) := limitedTo_textCapacity hplace
  -- one cell is written to where a number goes
  have hcell : ∀ c, block.setInteger? m place c = some (m.setCells index [c]) := by
    intro c
    unfold setInteger? Machine.write?
    rw [haddress, Option.bind_some, (Machine.usable_iff.mp husable).1]
    rfl
  cases type with
  | intRef =>
      refine ⟨_, .mk haddress husable hlimit (row_int value) hroom, ?_⟩
      unfold writeOne
      dsimp only
      rw [hcell, Option.getD_some]
  | floatRef =>
      refine ⟨_, .mk haddress husable hlimit (row_float value) hroom, ?_⟩
      unfold writeOne setFloat?
      dsimp only
      rw [hcell, Option.getD_some]
  | textRef =>
      have hcapacity : 0 < (textCapacity block signature place).getD room := textCapacity_pos hroom
      have hlimited : 0 < min ((textCapacity block signature place).getD room) room := by omega
      obtain ⟨row, hrow, hlength, hcells⟩ := row_text hlimited value
      refine ⟨row, .mk haddress husable hlimit hrow (by omega), ?_⟩
      unfold writeOne setText?
      dsimp only
      rw [haddress, Option.bind_some, Machine.writeBytes?_of_usable husable hcapacity,
        Option.getD_some, hcells]
  | _ => exact absurd htype (by decide)

/-- **A value without a place that can be used** is not written. -/
theorem writeOne_of_not_usable
    (h : ∀ address, block.get? place = some address → m.index? address = none) :
    writeOne block signature m place type value = m := by
  have hcell : ∀ c, block.setInteger? m place c = none := by
    intro c
    unfold setInteger? Machine.write?
    rw [Option.bind_eq_none_iff]
    intro address haddress
    rw [h address haddress]
    rfl
  have htext : ∀ text capacity, block.setText? m place text capacity = none := by
    intro text capacity
    unfold setText? Machine.writeBytes?
    rw [Option.bind_eq_none_iff]
    intro address haddress
    rw [h address haddress]
    rfl
  unfold writeOne setFloat?
  cases type <;> simp only [hcell, htext, Option.getD_none]

/-- **One write is what can happen for one reference.** -/
theorem slotWritten_writeOne (hwhole : m.Whole) (htype : type.isReference = true)
    (hplace : place < signature.slots.length) :
    block.SlotWritten signature m (type, place) value
      (writeOne block signature m place type value) := by
  cases haddress : block.get? place with
  | none =>
      rw [writeOne_of_not_usable (by simp [haddress])]
      exact .missing haddress
  | some address =>
      cases hindex : m.index? address with
      | none =>
          rw [writeOne_of_not_usable]
          · refine .unusable haddress fun index room husable => ?_
            rw [(Machine.usable_iff.mp husable).1] at hindex
            exact absurd hindex (by simp)
          · intro other hother
            obtain rfl := Option.some.inj (haddress.symm.trans hother)
            exact hindex
      | some index =>
          have husable : m.Usable address index (m.accessibleCells address) :=
            Machine.usable_iff.mpr ⟨hindex, rfl⟩
          obtain ⟨row, htarget, hwrite⟩ := writeOne_of_usable htype hplace
            haddress husable
          rw [hwrite]
          exact .written htarget (Machine.replaced_setCells (htarget.fits hwhole))

/-! ## All references -/

/-- **Values are written in turn**, to the references from a place on. -/
theorem writtenInTurn_writeBack {parameters : Parameters} {slots : List SlotType}
    {values : List ScriptValue} (hwhole : m.Whole)
    (hplace : place + slots.length = signature.slots.length) :
    parameters.WrittenInTurn signature ((referencesFrom place slots).zip values) m
      (writeBack parameters signature place slots values m) := by
  induction slots generalizing place values m with
  | nil => exact .nil
  | cons slot rest ih =>
      rw [List.length_cons] at hplace
      cases values with
      | nil =>
          rw [List.zip_nil_right]
          exact .nil
      | cons value later =>
          unfold writeBack
          cases hslot : slot.isReference with
          | true =>
              rw [if_pos rfl, referencesFrom_reference hslot, List.zip_cons_cons]
              have hwritten : (parameters.block m).SlotWritten signature m (slot, place) value
                  (writeOne (parameters.block m) signature m place slot value) :=
                slotWritten_writeOne hwhole hslot (by omega)
              obtain ⟨hrest, hsize, _⟩ := hwritten.frame
              exact .cons hwritten (ih (hwhole.of_rest hrest hsize) (by omega))
          | false =>
              rw [if_neg Bool.false_ne_true, referencesFrom_plain hslot]
              exact ih hwhole (by omega)

/-- **What a call does to memory**, once its handler has answered a value for each reference. -/
theorem writtenInTurn_finish {parameters : Parameters} {values : List ScriptValue}
    (hwhole : m.Whole) (hcount : values.length = signature.referenceCount) :
    parameters.WrittenInTurn signature (signature.references.zip values) m
      (finish parameters signature m (some (.array values))).2 := by
  have hwritten : parameters.WrittenInTurn signature (signature.references.zip values) m
      (writeBack parameters signature 0 signature.slots values m) :=
    writtenInTurn_writeBack hwhole (Nat.zero_add _)
  have houtputs : outputs? signature (some (.array values)) = some values := by
    unfold outputs?
    rw [Option.bind_some, ScriptValue.entries?]
    dsimp only
    rw [if_pos hcount]
  unfold finish
  by_cases hnone : signature.referenceCount = 0
  · -- without references there is nothing to write
    obtain rfl : values = [] := List.length_eq_zero_iff.mp (hcount.trans hnone)
    rw [if_pos hnone, List.zip_nil_right]
    exact .nil
  · rw [if_neg hnone, houtputs]
    exact hwritten

end ProvidedNatives

/--
**Values are written where the references point, and nowhere else.** A call that is in order runs its
handler, and the handler answers a value for each reference. The parameters and the memory are any:
addresses may lie in the same cells or outside of memory, a size may be missing, negative or too
large, and the parameters may lie in the memory that is written.

Then the values are written one after the other, in the order of the signature, and for each of them
what `SlotWritten` says happens to what memory is by then, and by what the parameters are then. That
leaves one memory only. Every cell that differs afterwards lies in the row of one of the values, in its
turn, and no row is longer than what is left of the region that its address lies in. Parameters that no
row reaches are in each turn what they were.
-/
theorem write_back_is_framed {H W : Type} {provided : ProvidedNatives H}
    (hreachable : provided.Reachable) (meaning : H → Handler W) {name : String}
    {parameters : Parameters} {m : Machine} (hwhole : m.Whole) (w : W) {native : ProvidedNative H}
    (hready : provided.Ready name (parameters.block m) m native) :
    let after := (provided.call meaning name parameters m w).2.1
    ∃ arguments, List.Forall₂ ((parameters.block m).Passes m) native.signature.plain arguments ∧
      ∀ values, (meaning native.handler arguments w).1 = some (.array values) →
        values.length = native.signature.referenceCount →
        let entries := native.signature.references.zip values
        entries.length = native.signature.referenceCount
          ∧ parameters.WrittenInTurn native.signature entries m after
          ∧ (∀ other, parameters.WrittenInTurn native.signature entries m other → other = after)
          ∧ after = { m with cells := after.cells }
          ∧ after.cells.size = m.cells.size
          ∧ (∀ i, after.cellAt i ≠ m.cellAt i → ∃ entry between,
              parameters.Turn native.signature entries m entry between ∧ ∃ index row,
                (parameters.block between).Target native.signature between entry.1 entry.2 index row
                  ∧ index ≤ i ∧ i < index + row.length)
          ∧ (parameters.Spared native.signature entries m → ∀ entry between,
              parameters.Turn native.signature entries m entry between →
              ∀ place, (parameters.block between).get? place = (parameters.block m).get? place) := by
  intro after
  obtain ⟨arguments, hpasses, hcall⟩ := hready.call hreachable
  refine ⟨arguments, hpasses, fun values hanswer hcount => ?_⟩
  intro entries
  have hafter : after = (ProvidedNatives.finish parameters native.signature m
      (some (.array values))).2 := by
    unfold after
    rw [hcall meaning w, ← hanswer]
  have hwritten : parameters.WrittenInTurn native.signature entries m after := by
    rw [hafter]
    exact ProvidedNatives.writtenInTurn_finish hwhole hcount
  have hlength : entries.length = native.signature.referenceCount := by
    unfold entries Signature.references
    rw [List.length_zip, referencesFrom_length, hcount]
    exact Nat.min_self _
  obtain ⟨hrest, hsize, hframe⟩ := hwritten.frame
  refine ⟨hlength, hwritten, fun _ hother => hother.unique hwritten, hrest, hsize, hframe,
    fun hspared entry between hturn place => ?_⟩
  obtain ⟨hentries, hearlier⟩ := hturn
  rw [hentries] at hspared
  exact hspared.get? hearlier place

section

/-- A handler that answers a list. -/
def Handler.answering (values : List ScriptValue) : Handler Unit := fun _ w =>
  (some (.array values), w)

/-- A program that has pushed two parameters, the second of which is 8. They lie from the address 52 on,
behind their size and the numbers from 0 to 11. -/
def Machine.calling (first : Cell) : Machine where
  cells := #[0, 1, 2, 3, 4, 5, 6, 7, 8, 9, 10, 11, 8, first, 8, 0]
  hasData := true
  heapTop := 32
  stackTop := 48
  stackEnd := 64

/-- A number that is written over the second parameter: the text goes to where the number says. -/
theorem write_back_is_framed_overlapping :
    let provided := ProvidedNatives.single ⟨[.intRef, .textRef]⟩
    let native : ProvidedNative Unit := ⟨⟨[.intRef, .textRef]⟩, ()⟩
    let parameters := Parameters.inMemory 12
    let m := Machine.calling 56
    let values := [.number (Double.ofInt 20), .text "hi"]
    let entries := [(.intRef, 0), (.textRef, 1)].zip values
    let after := (provided.call (fun _ => .answering values) "Ask" parameters m ()).2.1
    provided.Reachable ∧ m.Whole ∧ provided.Ready "Ask" (parameters.block m) m native
      ∧ parameters.WrittenInTurn native.signature entries m after
      ∧ after.cells = #[0, 1, 2, 3, 4, 104, 105, 0, 8, 9, 10, 11, 8, 56, 20, 0] := by
  intro provided native parameters m values entries after
  have hregister : ({ known := ["Ask"] } : ProvidedNatives Unit).register "Ask" "IS" () =
      .ok provided := rfl
  have hreachable : provided.Reachable := .register (.new ["Ask"]) hregister
  have hwhole : m.Whole := ⟨fun _ => by decide, fun _ => by decide⟩
  have hready : provided.Ready "Ask" (parameters.block m) m native :=
    ⟨rfl, fun slot hslot => absurd hslot List.not_mem_nil⟩
  obtain ⟨arguments, _, hframed⟩ := write_back_is_framed hreachable
    (fun _ => Handler.answering values) hwhole () hready
  obtain ⟨_, hwritten, _⟩ := hframed values rfl rfl
  exact ⟨hreachable, hwhole, hready, hwritten, by decide +kernel⟩

-- A zero over their size leaves no parameters, and the text that comes after it has nowhere to go.
example : (ProvidedNatives.finish (.inMemory 12) ⟨[.intRef, .textRef]⟩ (.calling 48)
    (some (.array [.number (Double.ofInt 0), .text "hi"]))).2.cells =
      #[0, 1, 2, 3, 4, 5, 6, 7, 8, 9, 10, 11, 0, 48, 8, 0] := by
  decide +kernel

end

end ScriptBridge
