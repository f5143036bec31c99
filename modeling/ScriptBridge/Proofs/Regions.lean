import ScriptBridge.Proofs.BoundedReads
import ScriptBridge.Proofs.TextLayouts

/-!
# Access within one region

Three cursors divide the memory of a machine, and they may be any words: no multiples of four, below
zero, or such that the heap and the stack overlap. An address that is used decides by itself in which
region it counts, and the region is said here byte by byte (`Machine.InRegion`), without the cursors'
words.

**How far it goes.** `le_accessibleCells_iff` is the count for every address of a cell: as many cells
as lie in the region of their address with all their bytes, and no more. An address that is not one of a
cell, or that lies in neither region, has none (`accessibleCells_eq_zero`).

**What goes by the count.** Every way into the memory is open at the same addresses
(`Machine.OpenAt`), and whoever comes in reaches the cells that are counted and no other. A text that is
read depends on nothing else, and what is written changes nothing else.
-/

namespace ScriptBridge

/-- A text never takes more cells than there are. -/
theorem CellText.encode_fst_le (bytes : List UInt8) (cells : List Cell) :
    (encode bytes cells).1 ≤ cells.length := by
  cases cells with
  | nil => exact Nat.le_refl 0
  | cons first later =>
      have htaken := List.length_take_le later.length bytes
      show (unpackedCells (bytes.take later.length)).length ≤ later.length + 1
      unfold unpackedCells
      rw [List.length_append, List.length_map, List.length_singleton]
      omega

namespace Machine

variable {m m' : Machine} {address : Cell} {index room : Nat}

/-! ## Regions by their bytes -/

/-- **A byte lies in the region of an address**: in the heap if the address is below its top, and in the
stack if it is not. -/
def InRegion (m : Machine) (address : Cell) (byte : Int) : Prop :=
  if address.toInt < m.heapTop.toInt then 0 ≤ byte ∧ byte < m.heapTop.toInt
  else m.stackTop.toInt ≤ byte ∧ byte < m.stackEnd.toInt

/-- **A number of cells from an address on lie in its region**, with all their bytes. -/
def Spans (m : Machine) (address : Cell) (count : Nat) : Prop :=
  ∀ byte : Int, address.toInt ≤ byte → byte < address.toInt + 4 * (count : Int) →
    m.InRegion address byte

/-- **The address of a cell**: a multiple of four that is not negative. -/
def IsPlace (address : Cell) : Prop := 0 ≤ address.toInt ∧ address.toInt % 4 = 0

theorem isPlace_iff : IsPlace address ↔ ¬ (address < 0 ∨ address % 4 ≠ 0) := by
  rw [valid_iff]
  constructor
  · rintro ⟨hnonneg, haligned⟩
    exact ⟨address.toInt.toNat / 4, by omega⟩
  · rintro ⟨index, hindex⟩
    exact ⟨by omega, by omega⟩

/-- The region of an address by its end. -/
theorem inRegion_iff {last : Cell} (hplace : IsPlace address) (h : m.LiesIn address last) {byte : Int}
    (hbyte : address.toInt ≤ byte) : m.InRegion address byte ↔ byte < last.toInt := by
  unfold InRegion
  obtain ⟨hnonneg, _⟩ := hplace
  cases h with
  | heap hheap =>
      rw [if_pos (Int32.lt_iff_toInt_lt.mp hheap)]
      omega
  | stack hheap hlow _ =>
      rw [Int32.lt_iff_toInt_lt] at hheap
      rw [Int32.le_iff_toInt_le] at hlow
      rw [if_neg hheap]
      omega

theorem LiesIn.lt_end {last : Cell} (h : m.LiesIn address last) : address.toInt < last.toInt := by
  cases h with
  | heap hheap => exact Int32.lt_iff_toInt_lt.mp hheap
  | stack _ _ hhigh => exact Int32.lt_iff_toInt_lt.mp hhigh

/-- The address of a cell lies in a region, by its end, if its first byte does. -/
theorem inRegion_self_iff (hplace : IsPlace address) :
    m.InRegion address address.toInt ↔ ∃ last, m.LiesIn address last := by
  constructor
  · intro h
    unfold InRegion at h
    split at h
    · rename_i hheap
      exact ⟨_, .heap (Int32.lt_iff_toInt_lt.mpr hheap)⟩
    · rename_i hheap
      exact ⟨_, .stack (fun hlt => hheap (Int32.lt_iff_toInt_lt.mp hlt))
        (Int32.le_iff_toInt_le.mpr h.1) (Int32.lt_iff_toInt_lt.mpr h.2)⟩
  · rintro ⟨last, hlast⟩
    exact (inRegion_iff hplace hlast (Int.le_refl _)).mpr hlast.lt_end

/-! ## The count -/

/-- The count by the end of the region. -/
theorem accessibleCells_of_liesIn {last : Cell} (hplace : IsPlace address) (h : m.LiesIn address last) :
    m.accessibleCells address = (last.toInt - address.toInt).toNat / 4 := by
  unfold accessibleCells
  rw [if_neg (isPlace_iff.mp hplace), regionEnd?_eq_some_iff.mpr h]
  rfl

/-- **Where there is nothing to use**: below zero, between two cells, and outside of the regions. -/
theorem accessibleCells_eq_zero
    (h : address.toInt < 0 ∨ address.toInt % 4 ≠ 0 ∨ ¬ m.InRegion address address.toInt) :
    m.accessibleCells address = 0 := by
  unfold accessibleCells
  by_cases hvalid : address < 0 ∨ address % 4 ≠ 0
  · rw [if_pos hvalid]
  · have hplace : IsPlace address := isPlace_iff.mpr hvalid
    have houtside : ¬ m.InRegion address address.toInt := by
      rcases h with hneg | hodd | houtside
      · exact absurd hplace.1 (by omega)
      · exact absurd hplace.2 hodd
      · exact houtside
    have hnone : m.regionEnd? address = none := by
      refine Option.eq_none_iff_forall_ne_some.mpr fun last hlast => houtside ?_
      exact (inRegion_self_iff hplace).mpr ⟨last, regionEnd?_eq_some_iff.mp hlast⟩
    rw [if_neg hvalid, hnone]

/-- **The count is the largest number of cells that lie in the region of their address.** -/
theorem le_accessibleCells_iff (hplace : IsPlace address) (count : Nat) :
    count ≤ m.accessibleCells address ↔ m.Spans address count := by
  by_cases hregion : m.InRegion address address.toInt
  · obtain ⟨last, hlast⟩ := (inRegion_self_iff hplace).mp hregion
    have hend := hlast.lt_end
    have hspans : m.Spans address count ↔ address.toInt + 4 * (count : Int) ≤ last.toInt := by
      constructor
      · intro h
        -- the last byte is the one to look at
        by_contra hbeyond
        have hinside : m.InRegion address last.toInt := h _ (by omega) (by omega)
        have hlt := (inRegion_iff hplace hlast (by omega)).mp hinside
        omega
      · intro hfits byte hlow hhigh
        exact (inRegion_iff hplace hlast hlow).mpr (by omega)
    rw [accessibleCells_of_liesIn hplace hlast, hspans]
    omega
  · rw [accessibleCells_eq_zero (.inr (.inr hregion)), Nat.le_zero]
    constructor
    · rintro rfl byte hlow hhigh
      omega
    · intro h
      by_contra hpos
      exact hregion (h _ (Int.le_refl _) (by omega))

/-- Cells that can be used lie in one region, and the address is that of the first. -/
theorem liesIn_of_pos (h : 0 < m.accessibleCells address) :
    IsPlace address ∧ ∃ last, m.LiesIn address last := by
  have hplace : IsPlace address := by
    by_contra hnone
    unfold IsPlace at hnone
    have hzero : m.accessibleCells address = 0 := accessibleCells_eq_zero (by omega)
    omega
  refine ⟨hplace, (inRegion_self_iff hplace).mp ?_⟩
  by_contra houtside
  exact absurd (accessibleCells_eq_zero (.inr (.inr houtside))) (by omega)

/-- A later cell of a region lies in the same region. -/
theorem LiesIn.later {last next : Cell} (h : m.LiesIn address last) (hle : address.toInt ≤ next.toInt)
    (hlt : next.toInt < last.toInt) : m.LiesIn next last := by
  cases h with
  | heap hheap => exact .heap (Int32.lt_iff_toInt_lt.mpr hlt)
  | stack hheap hlow hhigh =>
      rw [Int32.lt_iff_toInt_lt] at hheap
      rw [Int32.le_iff_toInt_le] at hlow
      refine .stack ?_ ?_ (Int32.lt_iff_toInt_lt.mpr hlt)
      · rw [Int32.lt_iff_toInt_lt]
        omega
      · rw [Int32.le_iff_toInt_le]
        omega

/-- **From a later cell on, the cells in front of it are missing.** -/
theorem accessibleCells_later {i : Nat} (hi : i < m.accessibleCells address) :
    ∃ next : Cell, next.toInt = address.toInt + 4 * (i : Int)
      ∧ m.accessibleCells next = m.accessibleCells address - i := by
  obtain ⟨hplace, last, hlast⟩ := liesIn_of_pos (Nat.zero_lt_of_lt hi)
  have hcount := accessibleCells_of_liesIn hplace hlast
  have hrange : last.toInt < 2 ^ 31 := Int32.toInt_lt last
  obtain ⟨hnonneg, haligned⟩ := hplace
  have hnext : (Int32.ofInt (address.toInt + 4 * (i : Int))).toInt = address.toInt + 4 * (i : Int) :=
    Int32.toInt_ofInt_of_le (by omega) (by omega)
  refine ⟨_, hnext, ?_⟩
  have hlater : m.LiesIn (Int32.ofInt (address.toInt + 4 * (i : Int))) last :=
    hlast.later (by omega) (by omega)
  rw [accessibleCells_of_liesIn ⟨by omega, by omega⟩ hlater, hnext, hcount]
  omega

/-! ## Ways into the memory -/

/-- **Every way into the memory is open at an address, or none is.** -/
structure OpenAt (m : Machine) (address : Cell) (accepted : Bool) : Prop where
  place : (m.index? address).isSome = accepted
  read : (m.read? address).isSome = accepted
  write : ∀ value, (m.write? address value).isSome = accepted
  cells : (m.cells? address).isSome = accepted
  writeBytes : ∀ limit bytes, (m.writeBytes? address limit bytes).isSome = accepted
  readBytes : (m.readBytes? address).isSome = accepted
  readText : (m.readText? address).isSome = accepted

theorem openAt_isSome (m : Machine) (address : Cell) :
    m.OpenAt address (m.index? address).isSome where
  place := rfl
  read := Option.isSome_map
  write _ := Option.isSome_map
  cells := Option.isSome_map
  writeBytes _ _ := Option.isSome_map
  readBytes := Option.isSome_map.trans Option.isSome_map
  readText := Option.isSome_map.trans (Option.isSome_map.trans Option.isSome_map)

/-- A machine with data opens where there are cells to use. -/
theorem index?_isSome (hdata : m.hasData = true) :
    (m.index? address).isSome = decide (0 < m.accessibleCells address) := by
  unfold index?
  by_cases hpos : 0 < m.accessibleCells address
  · rw [if_pos ⟨by omega, hdata⟩, decide_eq_true hpos]
    rfl
  · rw [if_neg (by omega), decide_eq_false hpos]
    rfl

/-- Where there are cells to use, they begin at the cell of the address. -/
theorem usable_of_pos (hdata : m.hasData = true) (hpos : 0 < m.accessibleCells address) :
    m.Usable address (address.toInt.toNat / 4) (m.accessibleCells address) := by
  refine usable_iff.mpr ⟨?_, rfl⟩
  unfold index?
  rw [if_pos ⟨by omega, hdata⟩]
  rfl

/-! ## What is reached -/

/-- **Only cells of a row are different**, if any. -/
structure ChangedWithin (m : Machine) (index count : Nat) (m' : Machine) : Prop where
  rest : m' = { m with cells := m'.cells }
  size : m'.cells.size = m.cells.size
  others : ∀ i, i < index ∨ index + count ≤ i → m'.cellAt i = m.cellAt i

theorem Replaced.changedWithin {row : List Cell} (h : m.Replaced index row m') {count : Nat}
    (hle : row.length ≤ count) : m.ChangedWithin index count m' :=
  ⟨h.rest, h.size, fun i hi => h.others i (by omega)⟩

/-- **A cell that is written is read back, and every other cell reads as before.** -/
theorem Usable.write (h : m.Usable address index room) (hwhole : m.Whole) (value : Cell) :
    ∃ m', m.write? address value = some m' ∧ m.ChangedWithin index 1 m'
      ∧ m'.read? address = some value
      ∧ ∀ other, other ≠ address → m'.read? other = m.read? other := by
  obtain ⟨hindex, _⟩ := usable_iff.mp h
  have hfits := h.fits hwhole
  have hpos := h.pos
  have hreplaced : m.Replaced index [value] (m.setCell index value) :=
    replaced_setCells (by rw [List.length_singleton]; omega)
  have hplaces : ∀ other, (m.setCell index value).index? other = m.index? other := fun other => rfl
  refine ⟨m.setCell index value, ?_, hreplaced.changedWithin (Nat.le_refl 1), ?_, fun other hother => ?_⟩
  · rw [write?, hindex]
    rfl
  · have hrow := hreplaced.written
    rw [read?, hplaces, hindex]
    exact congrArg some (List.cons.inj hrow).1
  · rw [read?, read?, hplaces]
    cases hplace : m.index? other with
    | none => rfl
    | some place =>
        -- two addresses of one cell are the same
        have hne : place ≠ index := by
          rintro rfl
          have hsame := (usable_iff.mpr ⟨hplace, rfl⟩).start
          exact hother (Int32.toInt_inj.mp (hsame.trans h.start.symm))
        exact congrArg some (hreplaced.others place (by rw [List.length_singleton]; omega))

/-- **A text that is written stays within the cells that can be used.** -/
theorem Usable.writeBytes (h : m.Usable address index room) (hwhole : m.Whole) (limit : Option Nat)
    (bytes : List UInt8) :
    ∃ written m', m.writeBytes? address limit bytes = some (written, m') ∧ written ≤ room
      ∧ m.ChangedWithin index room m' := by
  obtain ⟨hindex, hroom⟩ := usable_iff.mp h
  have hfits := h.fits hwhole
  have hlength := cellsFrom_length m index (min (limit.getD room) room)
  have hwrite : m.writeBytes? address limit bytes =
      (let row := CellText.encode bytes (m.cellsFrom index (min (limit.getD room) room))
       some (row.1, m.setCells index (row.2.take row.1))) := by
    rw [writeBytes?, hindex, hroom]
    rfl
  have hwritten := CellText.encode_fst_le bytes (m.cellsFrom index (min (limit.getD room) room))
  generalize CellText.encode bytes (m.cellsFrom index (min (limit.getD room) room)) = row at *
  have htaken := List.length_take_le row.1 row.2
  refine ⟨row.1, m.setCells index (row.2.take row.1), hwrite, by omega, ?_⟩
  exact (replaced_setCells (by omega)).changedWithin (by omega)

/-- **What is read is the row of cells that can be used.** -/
theorem Usable.cells? (h : m.Usable address index room) (hwhole : m.Whole) :
    m.cells? address = some ((m.cells.toList.drop index).take room) := by
  obtain ⟨hindex, hroom⟩ := usable_iff.mp h
  rw [Machine.cells?, hindex, hroom, Option.map_some, Scratch.cellsFrom_eq_take (h.fits hwhole)]

theorem Usable.read? (h : m.Usable address index room) (hwhole : m.Whole) :
    m.read? address = m.cells[index]? := by
  have hfits := h.fits hwhole
  have hpos := h.pos
  rw [Machine.read?, (usable_iff.mp h).1, Option.map_some, cellAt, Array.getD_eq_getD_getElem?,
    Array.getElem?_eq_getElem (by omega), Option.getD_some]

/-- A text is read off the cells that can be used, and off nothing else. -/
theorem readBytes?_congr {cells : Array Cell}
    (h : ∀ i : Nat, address.toInt ≤ 4 * (i : Int) →
      4 * (i : Int) < address.toInt + 4 * (m.accessibleCells address : Int) →
      cells.getD i 0 = m.cellAt i) :
    ({ m with cells } : Machine).readBytes? address = m.readBytes? address := by
  have hplaces : ({ m with cells } : Machine).index? address = m.index? address := rfl
  rw [readBytes?, readBytes?, Machine.cells?, Machine.cells?, hplaces]
  cases hindex : m.index? address with
  | none => rfl
  | some index =>
      have hstart := (usable_iff.mpr ⟨hindex, rfl⟩).start
      refine congrArg (fun row => some (CellText.decode row)) (cellsFrom_congr fun i hlow hhigh => ?_)
      exact h i (by omega) (by
        have : i < index + m.accessibleCells address := hhigh
        omega)

/--
**Access stays within one region.** Take a machine whose regions lie in its data, with any words for
cursors, and any address.

The cells that can be used from the address on are as many as lie in its region with all their bytes,
and none if it is not the address of a cell or lies in neither region. From each of them on, those in
front are missing. Every way into the memory is open exactly if there is such a cell. What is written
there is read back and all else reads as before; a text that is written changes no other cells, and one
that is read comes from just these cells and does not depend on any other.
-/
theorem access_stays_in_region (hdata : m.hasData = true) (hwhole : m.Whole) (address : Cell) :
    let n := m.accessibleCells address
    (IsPlace address → ∀ count, count ≤ n ↔ m.Spans address count)
      ∧ (address.toInt < 0 ∨ address.toInt % 4 ≠ 0 ∨ ¬ m.InRegion address address.toInt → n = 0)
      ∧ (∀ i < n, ∃ next : Cell, next.toInt = address.toInt + 4 * (i : Int)
        ∧ m.accessibleCells next = n - i)
      ∧ m.OpenAt address (decide (0 < n))
      ∧ (0 < n → ∀ value, ∃ m', m.write? address value = some m'
        ∧ m.ChangedWithin (address.toInt.toNat / 4) 1 m' ∧ m'.read? address = some value
        ∧ ∀ other, other ≠ address → m'.read? other = m.read? other)
      ∧ (0 < n → ∀ limit bytes, ∃ written m',
        m.writeBytes? address limit bytes = some (written, m') ∧ written ≤ n
        ∧ m.ChangedWithin (address.toInt.toNat / 4) n m')
      ∧ (0 < n → ∃ row, row = (m.cells.toList.drop (address.toInt.toNat / 4)).take n
        ∧ row.length = n ∧ m.read? address = row.head? ∧ m.cells? address = some row
        ∧ m.readBytes? address = some (CellText.decode row)
        ∧ ∀ output, (CellText.decodeOnto output row).toList = output.toList ++ CellText.decode row)
      ∧ ∀ cells : Array Cell, (∀ i : Nat, address.toInt ≤ 4 * (i : Int) →
          4 * (i : Int) < address.toInt + 4 * (n : Int) → cells.getD i 0 = m.cellAt i) →
        ({ m with cells } : Machine).readBytes? address = m.readBytes? address := by
  refine ⟨le_accessibleCells_iff, accessibleCells_eq_zero, fun i => accessibleCells_later, ?_,
    fun hpos => (usable_of_pos hdata hpos).write hwhole,
    fun hpos => (usable_of_pos hdata hpos).writeBytes hwhole, fun hpos => ?_,
    fun cells => readBytes?_congr⟩
  · exact index?_isSome hdata ▸ openAt_isSome m address
  · have husable := usable_of_pos hdata hpos
    have hfits := husable.fits hwhole
    have hrow := husable.cells? hwhole
    refine ⟨_, rfl, ?_, ?_, hrow, ?_, fun output => CellText.toList_decodeOnto output _⟩
    · rw [List.length_take, List.length_drop, Array.length_toList]
      omega
    · rw [husable.read? hwhole, List.head?_take, if_neg (by omega), List.head?_drop,
        Array.getElem?_toList]
    · rw [readBytes?, hrow]
      rfl

/-- Regions that end within cells and overlap: what lies in the stack at 16 ends before the cell at 28. -/
theorem access_stays_in_region_overlapping :
    let m : Machine :=
      { cells := #[1, 2, 3, 4, 65, 66, 67, 68], hasData := true
        heapTop := 14, stackTop := 9, stackEnd := 30 }
    (m.hasData = true ∧ m.Whole) ∧ m.accessibleCells 16 = 3 ∧ m.accessibleCells 12 = 0
      ∧ m.OpenAt 16 true ∧ m.OpenAt 12 false ∧ m.readBytes? 16 = some [65, 66, 67] := by
  intro m
  have hwhole : m.Whole := ⟨fun _ => by decide, fun _ => by decide⟩
  obtain ⟨_, _, _, hopen, _, _, hread, _⟩ := access_stays_in_region (m := m) rfl hwhole 16
  obtain ⟨_, _, _, hclosed, _⟩ := access_stays_in_region (m := m) rfl hwhole 12
  have hsome : m.accessibleCells 16 = 3 := by decide
  have hnone : m.accessibleCells 12 = 0 := by decide
  rw [hsome] at hopen
  rw [hnone] at hclosed
  refine ⟨⟨rfl, hwhole⟩, hsome, hnone, hopen, hclosed, ?_⟩
  obtain ⟨row, hrow, _, _, _, hbytes, _⟩ := hread (by decide)
  rw [hbytes, hrow]
  decide

end Machine

end ScriptBridge
