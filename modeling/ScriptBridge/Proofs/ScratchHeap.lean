import Mathlib.Algebra.Group.Int.Defs
import Mathlib.Algebra.GroupWithZero.Nat
import ScriptBridge.Memory.Scratch

/-!
# The heap of scratch memory, in cells

Scratch memory is addressed in bytes by words of 32 bits, and every check in it compares such
words. None of that matters once the heap is known to be in order: its top is then the address
of some cell, no further than the capacity, and everything can be said with cell indices, which
are plain numbers.

**The invariant.** `Scratch.Sound` says what no operation ever changes: the size of the memory,
where its empty stack lies, and that the top is a whole number of cells. It holds in every
reachable state, also when natives write to the cells in between.

**Taking cells.** A push answers the address of the old top, moves the top by as many cells as
it was given, puts the values there and leaves every cell below alone. This is the whole of what
later proofs know about allocation.
-/

namespace ScriptBridge

namespace Machine

/-- The address of a cell, by its index. -/
def addressOf (index : Nat) : Cell := Cell.ofSize (index * cellSize)

/-! ## Addresses of cells -/

theorem addressOf_toInt {n : Nat} (h : n < 2 ^ 29) : (addressOf n).toInt = (n : Int) * 4 := by
  unfold addressOf Cell.ofSize cellSize
  rw [Int32.toInt_ofNat_of_lt (by omega)]
  omega

theorem addressOf_add (n k : Nat) :
    addressOf n + Cell.ofSize (k * cellSize) = addressOf (n + k) := by
  unfold addressOf Cell.ofSize
  rw [Nat.add_mul, Int32.ofNat_add]

theorem addressOf_sub {n k : Nat} (h : k ≤ n) : addressOf n - addressOf k = addressOf (n - k) := by
  unfold addressOf Cell.ofSize
  rw [Nat.sub_mul, Int32.ofNat_sub _ _ (Nat.mul_le_mul_right _ h)]

theorem addressOf_nonneg {n : Nat} (h : n < 2 ^ 29) : 0 ≤ addressOf n := by
  rw [Int32.le_iff_toInt_le, addressOf_toInt h, Int32.toInt_zero]
  omega

theorem addressOf_aligned {n : Nat} (h : n < 2 ^ 29) : addressOf n % 4 = 0 := by
  rw [← Int32.toInt_inj, Int32.toInt_mod, addressOf_toInt h]
  exact Int.mul_tmod_left _ _

/-- The address of a cell is not one of those that are refused. -/
theorem addressOf_valid {n : Nat} (h : n < 2 ^ 29) : ¬ (addressOf n < 0 ∨ addressOf n % 4 ≠ 0) := by
  rintro (hneg | hodd)
  · exact absurd hneg (Int32.not_lt.mpr (addressOf_nonneg h))
  · exact hodd (addressOf_aligned h)

theorem addressOf_index {n : Nat} (h : n < 2 ^ 29) :
    (addressOf n).toInt.toNat / cellSize = n := by
  rw [addressOf_toInt h]
  show ((n : Int) * 4).toNat / 4 = n
  omega

theorem toSize_addressOf {n : Nat} (h : n < 2 ^ 29) : Cell.toSize (addressOf n) = n * cellSize := by
  have h0 : 0 ≤ (addressOf n).toInt64 := by
    rw [Int64.le_iff_toInt_le, Int32.toInt_toInt64, addressOf_toInt h, Int64.toInt_zero]
    omega
  unfold Cell.toSize cellSize
  rw [Int64.toNat_toUInt64_of_le h0, ← Int64.toNat_toInt, Int32.toInt_toInt64, addressOf_toInt h]
  omega

/-! ## Rows of cells -/

theorem overwrite_size : ∀ (values : List Cell) (cells : Array Cell) (index : Nat),
    (overwrite cells index values).size = cells.size
  | [], _, _ => rfl
  | v :: values, cells, index => by
      rw [overwrite, overwrite_size values, Array.size_setIfInBounds]

/-- Writing a row reaches no cell in front of it. -/
theorem overwrite_getD_of_lt : ∀ (values : List Cell) (cells : Array Cell) {index i : Nat},
    i < index → (overwrite cells index values).getD i 0 = cells.getD i 0
  | [], _, _, _, _ => rfl
  | v :: values, cells, index, i, h => by
      rw [overwrite, overwrite_getD_of_lt values _ (by omega)]
      rw [Array.getD_eq_getD_getElem?, Array.getD_eq_getD_getElem?,
        Array.getElem?_setIfInBounds_ne (by omega)]

/-- A row that fits is read back as it was written. -/
theorem overwrite_getD_written : ∀ (values : List Cell) (cells : Array Cell) {index i : Nat},
    index + values.length ≤ cells.size → i < values.length →
    (overwrite cells index values).getD (index + i) 0 = values.getD i 0
  | [], _, _, _, _, h => by exact absurd h (by simp)
  | v :: values, cells, index, i, hfit, h => by
      simp only [List.length_cons] at hfit h
      cases i with
      | zero =>
          -- the rest of the row lies behind this cell
          rw [overwrite, overwrite_getD_of_lt values _ (by omega), Nat.add_zero,
            Array.getD_eq_getD_getElem?, Array.getElem?_setIfInBounds_self_of_lt (by omega)]
          rfl
      | succ i =>
          rw [overwrite, show index + (i + 1) = index + 1 + i by omega]
          rw [overwrite_getD_written values _ (by rw [Array.size_setIfInBounds]; omega) (by omega)]
          rfl

theorem cellsFrom_length (m : Machine) (index count : Nat) :
    (m.cellsFrom index count).length = count := by
  simp [cellsFrom]

theorem cellsFrom_add (m : Machine) (index a b : Nat) :
    m.cellsFrom index (a + b) = m.cellsFrom index a ++ m.cellsFrom (index + a) b := by
  simp [cellsFrom, List.range_add, Function.comp_def, Nat.add_assoc]

theorem cellsFrom_congr {m m' : Machine} {index count : Nat}
    (h : ∀ i, index ≤ i → i < index + count → m.cellAt i = m'.cellAt i) :
    m.cellsFrom index count = m'.cellsFrom index count := by
  refine List.map_congr_left fun i hi => ?_
  exact h (index + i) (by omega) (by have := List.mem_range.mp hi; omega)

theorem cellAt_of_cellsFrom_eq {m m' : Machine} {index count i : Nat}
    (h : m.cellsFrom index count = m'.cellsFrom index count) (h1 : index ≤ i)
    (h2 : i < index + count) : m.cellAt i = m'.cellAt i := by
  have hi := congrArg (fun row => row.getD (i - index) 0) h
  simpa [cellsFrom, show i - index < count by omega, show index + (i - index) = i by omega] using hi

theorem setCells_cellsFrom {m : Machine} {index : Nat} {values : List Cell}
    (h : index + values.length ≤ m.cells.size) :
    (m.setCells index values).cellsFrom index values.length = values := by
  refine List.ext_getElem (cellsFrom_length _ _ _) fun i h1 h2 => ?_
  have hw := overwrite_getD_written values m.cells h h2
  simp only [cellsFrom, List.getElem_map, List.getElem_range]
  rw [show (m.setCells index values).cellAt (index + i) = values.getD i 0 from hw,
    List.getD_eq_getElem?_getD, List.getElem?_eq_getElem h2]
  rfl

/-- **What code running on a machine cannot change**: where the heap and the stack lie, and how much
memory there is. -/
structure SameCursors (m m' : Machine) : Prop where
  heapTop : m'.heapTop = m.heapTop
  stackTop : m'.stackTop = m.stackTop
  stackEnd : m'.stackEnd = m.stackEnd
  hasData : m'.hasData = m.hasData
  size : m'.cells.size = m.cells.size

end Machine

namespace Scratch

/-! ## The invariant -/

theorem capacity_lt : capacity < 2 ^ 29 := by decide

/-- The number of cells in use. -/
def used (s : Scratch) : Nat := s.heapTop.toInt.toNat / Machine.cellSize

/-- **Scratch memory in order.** -/
structure Sound (s : Scratch) : Prop where
  /-- The memory is there and has its full size. -/
  hasData : s.machine.hasData = true
  size : s.machine.cells.size = capacity
  /-- The stack is empty and lies behind all of it. -/
  stackTop : s.machine.stackTop = Machine.addressOf capacity
  stackEnd : s.machine.stackEnd = Machine.addressOf capacity
  /-- The heap ends with a whole cell. -/
  heapTop : s.machine.heapTop = Machine.addressOf s.used
  used_le : s.used ≤ capacity

theorem used_of_heapTop {s : Scratch} {n : Nat} (h : s.machine.heapTop = Machine.addressOf n)
    (hn : n ≤ capacity) : s.used = n := by
  unfold used heapTop
  rw [h, Machine.addressOf_index (Nat.lt_of_le_of_lt hn capacity_lt)]

theorem sound_new : Sound new := by
  have hu : new.used = 0 := used_of_heapTop (n := 0) (by decide) (Nat.zero_le _)
  refine ⟨rfl, ?_, rfl, rfl, ?_, ?_⟩
  · show (Array.replicate capacity (0 : Cell)).size = capacity
    exact Array.size_replicate
  · rw [hu]; decide
  · rw [hu]; exact Nat.zero_le _

/-- Closing a scope leaves as much in use as when it was opened. -/
theorem Sound.closeScope {s o : Scratch} (h : Sound s) (ho : Sound o) :
    Sound (s.closeScope o) := by
  have hu : (s.closeScope o).used = o.used := used_of_heapTop ho.heapTop ho.used_le
  exact ⟨h.hasData, h.size, h.stackTop, h.stackEnd, hu ▸ ho.heapTop, hu ▸ ho.used_le⟩

theorem closeScope_used {s o : Scratch} (ho : Sound o) : (s.closeScope o).used = o.used :=
  used_of_heapTop ho.heapTop ho.used_le

/-- Whatever code writes, the order stays. -/
theorem Sound.sameCursors {s : Scratch} {m : Machine} (h : Sound s)
    (hm : s.machine.SameCursors m) : Sound ⟨m⟩ := by
  have hu : used ⟨m⟩ = s.used := by unfold used Scratch.heapTop; rw [hm.heapTop]
  exact ⟨hm.hasData.trans h.hasData, hm.size.trans h.size, hm.stackTop.trans h.stackTop,
    hm.stackEnd.trans h.stackEnd, by rw [hu]; exact hm.heapTop.trans h.heapTop, hu ▸ h.used_le⟩

/-! ## Taking cells -/

theorem Sound.availableCells {s : Scratch} (h : Sound s) :
    s.availableCells = capacity - s.used := by
  have hlt := capacity_lt
  unfold Scratch.availableCells
  rw [h.stackTop, h.heapTop, Machine.addressOf_sub h.used_le,
    Machine.toSize_addressOf (by omega), Nat.mul_div_cancel _ (by decide)]

/-- The cells below an index can be used from any of them up to it. -/
theorem Sound.range {s : Scratch} (h : Sound s) {start count : Nat}
    (hc : start + count ≤ s.used) : s.range (Machine.addressOf start) count = .ok start := by
  have hlt := capacity_lt
  have hle := h.used_le
  have htop : Cell.toSize s.heapTop / Machine.cellSize = s.used := by
    unfold Scratch.heapTop
    rw [h.heapTop, Machine.toSize_addressOf (by omega), Nat.mul_div_cancel _ (by decide)]
  unfold Scratch.range
  rw [if_neg (Machine.addressOf_valid (by omega))]
  simp only [Machine.addressOf_index (show start < 2 ^ 29 by omega), htop]
  rw [if_neg (by rw [UInt64.size]; omega), if_neg (by omega)]

/-- The scratch memory with a row of cells put on top of its heap. -/
def extended (s : Scratch) (values : List Cell) : Scratch :=
  ⟨{ s.machine.setCells s.used values with
      heapTop := Machine.addressOf (s.used + values.length) }⟩

theorem extended_used {s : Scratch} {values : List Cell}
    (hfit : s.used + values.length ≤ capacity) :
    (s.extended values).used = s.used + values.length :=
  used_of_heapTop rfl hfit

theorem Sound.extended {s : Scratch} (h : Sound s) {values : List Cell}
    (hfit : s.used + values.length ≤ capacity) : Sound (s.extended values) := by
  have hu := extended_used hfit
  refine ⟨h.hasData, ?_, h.stackTop, h.stackEnd, by rw [hu]; rfl, by rw [hu]; exact hfit⟩
  exact (Machine.overwrite_size values s.machine.cells s.used).trans h.size

theorem extended_cellAt {s : Scratch} {values : List Cell} {i : Nat} (h : i < s.used) :
    (s.extended values).machine.cellAt i = s.machine.cellAt i :=
  Machine.overwrite_getD_of_lt values s.machine.cells h

/-- The cells that were taken hold the values. -/
theorem Sound.extended_cellsFrom {s : Scratch} (h : Sound s) {values : List Cell}
    (hfit : s.used + values.length ≤ capacity) :
    (s.extended values).machine.cellsFrom s.used values.length = values :=
  Machine.setCells_cellsFrom (m := s.machine) (by rw [h.size]; exact hfit)

/--
**What a push does.** If the heap has room the answer is the address of the old top, and if it has
none the answer says how much was left and nothing changes.
-/
theorem Sound.push {s : Scratch} (h : Sound s) (values : List Cell) :
    s.push values =
      if s.used + values.length ≤ capacity then
        (.ok (Machine.addressOf s.used), s.extended values)
      else (.error (.outOfMemory values.length (capacity - s.used)), s) := by
  have hle := h.used_le
  unfold Scratch.push allocate
  rw [h.availableCells]
  by_cases hfit : s.used + values.length ≤ capacity
  · rw [if_neg (by omega), if_pos hfit]
    -- the range is checked against the new top, in memory that is otherwise the old
    have hrange : (s.setHeapTop (Machine.addressOf (s.used + values.length))).range
        (Machine.addressOf s.used) values.length = .ok s.used :=
      (h.extended hfit).range (Nat.le_of_eq (extended_used hfit).symm)
    have htop : s.heapTop = Machine.addressOf s.used := h.heapTop
    simp only [htop, Machine.addressOf_add, hrange]
    rfl
  · rw [if_pos (by omega), if_neg hfit]

theorem Sound.pushZeros {s : Scratch} (h : Sound s) (count : Nat) :
    s.pushZeros count = s.push (List.replicate count 0) := by
  unfold Scratch.pushZeros
  rw [h.push, h.availableCells, List.length_replicate]
  have hle := h.used_le
  by_cases hfit : s.used + count ≤ capacity
  · rw [if_neg (by omega), if_pos hfit]
  · rw [if_pos (by omega), if_neg hfit]

/-! ## What a machine can use of it -/

/-- From a cell of the heap on, everything up to the top can be used. -/
theorem Sound.accessibleCells {s : Scratch} (h : Sound s) {n : Nat} (hn : n ≤ s.used) :
    s.machine.accessibleCells (Machine.addressOf n) = s.used - n := by
  have hlt := capacity_lt
  have hle := h.used_le
  unfold Machine.accessibleCells Machine.regionEnd?
  rw [if_neg (Machine.addressOf_valid (by omega)), h.heapTop, h.stackTop, h.stackEnd]
  by_cases hlast : n < s.used
  · have hbelow : Machine.addressOf n < Machine.addressOf s.used := by
      rw [Int32.lt_iff_toInt_lt, Machine.addressOf_toInt (by omega),
        Machine.addressOf_toInt (by omega)]
      omega
    rw [if_pos hbelow]
    show ((Machine.addressOf s.used).toInt - (Machine.addressOf n).toInt).toNat / 4 = _
    rw [Machine.addressOf_toInt (by omega), Machine.addressOf_toInt (by omega)]
    omega
  · -- at the top the heap is over, and the stack is empty
    obtain rfl : n = s.used := by omega
    rw [if_neg Int32.lt_irrefl, if_neg]
    · exact (Nat.sub_self _).symm
    · exact fun hstack => absurd hstack.2 (Int32.not_lt.mpr hstack.1)

/-- The cells of the heap from an index on, as a machine gets them by their address. -/
theorem Sound.cells?_getD {s : Scratch} (h : Sound s) {n : Nat} (hn : n ≤ s.used) :
    (s.machine.cells? (Machine.addressOf n)).getD [] = s.machine.cellsFrom n (s.used - n) := by
  have hlt := capacity_lt
  have hle := h.used_le
  unfold Machine.cells? Machine.index?
  rw [h.accessibleCells hn, h.hasData, Machine.addressOf_index (by omega)]
  by_cases hlast : s.used - n = 0
  · rw [hlast, if_neg (by simp)]
    rfl
  · rw [if_pos ⟨hlast, rfl⟩]
    rfl

/-- No cell behind the top can be used. -/
theorem Sound.index?_le {s : Scratch} (h : Sound s) {address : Cell} {i : Nat}
    (hi : s.machine.index? address = some i) :
    i < s.used ∧ i + s.machine.accessibleCells address ≤ s.used := by
  have hlt := capacity_lt
  have hle := h.used_le
  unfold Machine.index? at hi
  split at hi
  · rename_i hany
    obtain ⟨hany, _⟩ := hany
    rw [← Option.some.inj hi]
    unfold Machine.accessibleCells Machine.regionEnd? at hany ⊢
    rw [h.heapTop, h.stackTop, h.stackEnd] at hany ⊢
    -- nothing can be used from an address that is refused or lies outside the heap
    by_cases hvalid : address < 0 ∨ address % 4 ≠ 0
    · rw [if_pos hvalid] at hany
      exact absurd rfl hany
    rw [if_neg hvalid] at hany ⊢
    by_cases hbelow : address < Machine.addressOf s.used
    · have hpos : 0 ≤ address.toInt := by
        have := Int32.not_lt.mp fun hneg => hvalid (Or.inl hneg)
        rwa [Int32.le_iff_toInt_le, Int32.toInt_zero] at this
      rw [if_pos hbelow]
      rw [Int32.lt_iff_toInt_lt, Machine.addressOf_toInt (by omega)] at hbelow
      show address.toInt.toNat / 4 < s.used ∧ address.toInt.toNat / 4
        + ((Machine.addressOf s.used).toInt - address.toInt).toNat / 4 ≤ s.used
      rw [Machine.addressOf_toInt (by omega)]
      omega
    rw [if_neg hbelow, if_neg] at hany
    · exact absurd rfl hany
    · exact fun hstack => absurd hstack.2 (Int32.not_lt.mpr hstack.1)
  · exact absurd hi (by simp)

/-- A cell of the heap can be used under its address. -/
theorem Sound.index?_addressOf {s : Scratch} (h : Sound s) {i : Nat} (hi : i < s.used) :
    s.machine.index? (Machine.addressOf i) = some i := by
  have hlt := capacity_lt
  have hle := h.used_le
  unfold Machine.index?
  rw [h.accessibleCells (by omega), h.hasData, Machine.addressOf_index (by omega),
    if_pos ⟨by omega, rfl⟩]

/-! ## Reachable states -/

/--
**The states scratch memory can be in**, with the states in which its open scopes were opened, the
innermost first. Cells are taken in an open scope. Code may run at any time and write what it
likes, as long as it leaves the cursors alone.
-/
inductive Reachable : Scratch → List Scratch → Prop where
  | new : Reachable new []
  | opened {s : Scratch} {scopes : List Scratch} :
      Reachable s scopes → Reachable s (s :: scopes)
  | pushedCell {s o : Scratch} {scopes : List Scratch} (value : Cell) :
      Reachable s (o :: scopes) → Reachable (s.pushCell value).2 (o :: scopes)
  | pushedCells {s o : Scratch} {scopes : List Scratch} (values : List Cell) :
      Reachable s (o :: scopes) → Reachable (s.pushCells values).2 (o :: scopes)
  | pushedZeros {s o : Scratch} {scopes : List Scratch} (count : Nat) :
      Reachable s (o :: scopes) → Reachable (s.pushZeros count).2 (o :: scopes)
  | pushedText {s o : Scratch} {scopes : List Scratch} (text : String) :
      Reachable s (o :: scopes) → Reachable (s.pushText text).2 (o :: scopes)
  | closed {s o : Scratch} {scopes : List Scratch} :
      Reachable s (o :: scopes) → Reachable (s.closeScope o) scopes
  | written {s : Scratch} {scopes : List Scratch} {m : Machine} :
      s.machine.SameCursors m → Reachable s scopes → Reachable ⟨m⟩ scopes

theorem Sound.push_sound {s : Scratch} (h : Sound s) (values : List Cell) :
    Sound (s.push values).2 := by
  rw [h.push]
  split
  · rename_i hfit; exact h.extended hfit
  · exact h

/-- **Every reachable state is in order**, and so is every state an open scope goes back to. -/
theorem Reachable.sound {s : Scratch} {scopes : List Scratch} (h : Reachable s scopes) :
    Sound s ∧ ∀ o ∈ scopes, Sound o := by
  induction h with
  | new => exact ⟨sound_new, by simp⟩
  | opened _ ih => exact ⟨ih.1, List.forall_mem_cons.mpr ih⟩
  | pushedCell value _ ih => exact ⟨ih.1.push_sound _, ih.2⟩
  | pushedCells values _ ih => exact ⟨ih.1.push_sound _, ih.2⟩
  | pushedZeros count _ ih => rw [ih.1.pushZeros]; exact ⟨ih.1.push_sound _, ih.2⟩
  | pushedText text _ ih => exact ⟨ih.1.push_sound _, ih.2⟩
  | closed _ ih =>
      obtain ⟨ho, hrest⟩ := List.forall_mem_cons.mp ih.2
      exact ⟨ih.1.closeScope ho, hrest⟩
  | written hm _ ih => exact ⟨ih.1.sameCursors hm, ih.2⟩

end Scratch

end ScriptBridge
