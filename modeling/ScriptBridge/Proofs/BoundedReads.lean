import ScriptBridge.Proofs.Placement
import ScriptBridge.Proofs.WriteBack

/-!
# Reading scratch memory

Whoever reads scratch memory names an address and a number of cells, and both may be anything. What
should decide is whether the cells lie below the top of the heap, which `Scratch.Holds` says with
whole numbers that have no bounds. The check itself computes with words: it divides the address,
adds the number of cells and compares the sum with the top.

**One check.** `Sound.range_eq` is the check for every address and every number of cells. It answers
where the cells begin exactly if they are held. Otherwise it refuses, and it refuses as an invalid
address unless the sum is no number of 64 bits (`Scratch.Endless`). Then there is no answer at all. An
address is below 2^31, so that needs more than 2^64 - 2^29 cells: no row in memory has as many, but the
number of cells of a text is only a number.

**What is read.** Nothing is written, so a read is known by its answer: the cells themselves, and for a
text the buffer with the text in front (`Scratch.Filled`).

Sums are those of a build that checks them for overflow. Without the check an end that is too large wraps
around, and some of what `Scratch.Endless` describes is refused as an invalid address after all. Below
2^64 - 2^29 cells there is no difference.
-/

namespace ScriptBridge

namespace Scratch

variable {s : Scratch} {scopes : List Scratch}

/-- **The cells at an address are in use**: it is that of a cell, and they end no further than the heap. -/
def Holds (s : Scratch) (address : Cell) (count : Nat) : Prop :=
  0 ≤ address.toInt ∧ address.toInt % 4 = 0 ∧ address.toInt / 4 + count ≤ s.heapTop.toInt / 4

/-- **The end of the cells at an address is no number of 64 bits.** -/
def Endless (address : Cell) (count : Nat) : Prop :=
  0 ≤ address.toInt ∧ address.toInt % 4 = 0 ∧ 2 ^ 64 ≤ address.toInt / 4 + count

instance (s : Scratch) (address : Cell) (count : Nat) : Decidable (s.Holds address count) :=
  inferInstanceAs (Decidable (_ ∧ _ ∧ _))

instance (address : Cell) (count : Nat) : Decidable (Endless address count) :=
  inferInstanceAs (Decidable (_ ∧ _ ∧ _))

/-- **Why cells that are not in use cannot be read.** -/
def refusal (address : Cell) (count : Nat) : ScratchError :=
  if Endless address count then .rangeOverflow address count else .invalidAddress address count

/-- **A buffer that took a text**, with the number of bytes that it took: the text, cut to leave room for
one byte, a zero, and what was there behind it. An empty buffer takes nothing, not even the zero. -/
structure Filled (text output : List UInt8) (answer : Nat × List UInt8) : Prop where
  taken : answer.1 = min text.length (output.length - 1)
  length : answer.2.length = output.length
  front : answer.2.take answer.1 = text.take (output.length - 1)
  zero : output ≠ [] → answer.2[answer.1]? = some 0
  rest : ∀ i, answer.1 < i → answer.2[i]? = output[i]?

/-! ## The check -/

/-- Only a number of cells that no row has can be endless. -/
theorem refusal_of_le {address : Cell} {count : Nat} (h : count ≤ 2 ^ 64 - 2 ^ 29) :
    refusal address count = .invalidAddress address count := by
  have hlt : address.toInt < 2 ^ 31 := Int32.toInt_lt address
  refine if_neg ?_
  rintro ⟨_, _, hend⟩
  omega

theorem Sound.heapTop_toInt (h : Sound s) : s.heapTop.toInt = (s.used : Int) * 4 := by
  have hlt := capacity_lt
  have hle := h.used_le
  exact (congrArg Int32.toInt h.heapTop).trans (Machine.addressOf_toInt (by omega))

/-- **The check of a range**, for every address and every number of cells. -/
theorem Sound.range_eq (h : Sound s) (address : Cell) (count : Nat) :
    s.range address count =
      if s.Holds address count then .ok (address.toInt.toNat / 4)
      else .error (refusal address count) := by
  have hlt := capacity_lt
  have hle := h.used_le
  have htop := h.heapTop_toInt
  have hused : Cell.toSize s.heapTop / Machine.cellSize = s.used := by
    rw [show s.heapTop = Machine.addressOf s.used from h.heapTop, Machine.toSize_addressOf (by omega),
      Nat.mul_div_cancel _ (by decide)]
  unfold Scratch.range refusal
  by_cases hvalid : address < 0 ∨ address % 4 ≠ 0
  · -- an address that is refused at once holds nothing and is not added to
    have hplace : ¬ (0 ≤ address.toInt ∧ address.toInt % 4 = 0) := by
      rintro ⟨hnonneg, haligned⟩
      exact Machine.valid_iff.mpr ⟨address.toInt.toNat / 4, by omega⟩ hvalid
    rw [if_pos hvalid, if_neg fun hholds => hplace ⟨hholds.1, hholds.2.1⟩,
      if_neg fun hend => hplace ⟨hend.1, hend.2.1⟩]
  · obtain ⟨start, hstart⟩ := Machine.valid_iff.mp hvalid
    have hindex : address.toInt.toNat / 4 = start := by omega
    have hholds : s.Holds address count ↔ start + count ≤ s.used := by unfold Holds; omega
    have hend : Endless address count ↔ UInt64.size ≤ start + count := by
      unfold Endless UInt64.size
      omega
    have hsmall : UInt64.size = 2 ^ 64 := rfl
    rw [if_neg hvalid, hused]
    simp only [Machine.cellSize, hindex, hholds, hend]
    by_cases hfits : start + count ≤ s.used
    · rw [if_neg (by omega), if_neg (by omega), if_pos hfits]
    · rw [if_neg hfits, if_pos (show s.used < start + count by omega)]
      split <;> rfl

/-! ## What is read -/

/-- Cells that are there are a part of the memory. -/
theorem cellsFrom_eq_take {m : Machine} {index count : Nat} (h : index + count ≤ m.cells.size) :
    m.cellsFrom index count = (m.cells.toList.drop index).take count := by
  refine List.ext_getElem ?_ fun i hi _ => ?_
  · rw [Machine.cellsFrom_length, List.length_take, List.length_drop, Array.length_toList]
    omega
  · rw [Machine.cellsFrom_length] at hi
    have hin : index + i < m.cells.size := by omega
    simp [Machine.cellsFrom, Machine.cellAt, hin]

/-- Cells in use are there. -/
theorem Sound.holds_fits (h : Sound s) {address : Cell} {count : Nat} (hholds : s.Holds address count) :
    address.toInt.toNat / 4 + count ≤ s.machine.cells.size := by
  have hle := h.used_le
  have htop := h.heapTop_toInt
  obtain ⟨hnonneg, _, hfits⟩ := hholds
  rw [h.size]
  omega

theorem terminated_filled (text output : List UInt8) :
    Filled text output (terminated text output) := by
  have htaken : (terminated text output).1 = min text.length (output.length - 1) := by
    rw [show (terminated text output).1 = (text.take (output.length - 1)).length from rfl,
      List.length_take, Nat.min_comm]
  by_cases hempty : output = []
  · subst hempty
    exact ⟨htaken, rfl, by simp [terminated], fun h => absurd rfl h, fun _ _ => by simp [terminated]⟩
  have hpos : 0 < output.length := List.length_pos_iff.mpr hempty
  have hfront : (text.take (output.length - 1)).length = (terminated text output).1 := rfl
  have hbuffer : (terminated text output).2 =
      text.take (output.length - 1) ++ 0 :: output.drop ((terminated text output).1 + 1) := by
    rw [terminated_eq, NativeArgument.received, if_neg hempty, htaken]
  generalize terminated text output = answer at *
  obtain ⟨taken, buffer⟩ := answer
  dsimp only at *
  subst hbuffer
  refine ⟨htaken, ?_, ?_, fun _ => ?_, fun i hi => ?_⟩
  · rw [List.length_append, hfront, List.length_cons, List.length_drop]
    omega
  · exact List.take_left' hfront
  · rw [List.getElem?_append_right (Nat.le_of_eq hfront), hfront, Nat.sub_self]
    rfl
  · rw [List.getElem?_append_right (by omega), hfront,
      show i - taken = (i - (taken + 1)) + 1 by omega, List.getElem?_cons_succ, List.getElem?_drop,
      show taken + 1 + (i - (taken + 1)) = i by omega]

/-- What is in use is read. -/
theorem Sound.reads_held (h : Sound s) {address : Cell} {count : Nat} (hholds : s.Holds address count)
    (output : List UInt8) :
    ∃ row, row = (s.machine.cells.toList.drop (address.toInt.toNat / 4)).take count
      ∧ row.length = count ∧ s.readCells address count = .ok row
      ∧ ∃ answer, s.readText address count output = .ok answer
        ∧ Filled (CellText.decode row) output answer := by
  have hrange : s.range address count = .ok (address.toInt.toNat / 4) :=
    (h.range_eq address count).trans (if_pos hholds)
  refine ⟨s.machine.cellsFrom (address.toInt.toNat / 4) count, cellsFrom_eq_take (h.holds_fits hholds),
    Machine.cellsFrom_length _ _ _, ?_, ?_⟩
  · rw [readCells, hrange]
    rfl
  · rw [readText, hrange]
    exact ⟨_, rfl, terminated_filled _ _⟩

/-- A single cell is read as a row of one. -/
theorem Sound.reads_held_cell (h : Sound s) {address : Cell} (hholds : s.Holds address 1) :
    ∃ value, s.machine.cells[address.toInt.toNat / 4]? = some value
      ∧ s.readCell address = .ok value := by
  have hin := h.holds_fits hholds
  refine ⟨s.machine.cellAt (address.toInt.toNat / 4), ?_, ?_⟩
  · rw [Machine.cellAt, Array.getD_eq_getD_getElem?, Array.getElem?_eq_getElem (by omega)]
    rfl
  · rw [readCell, h.range_eq, if_pos hholds]
    rfl

/--
**Scratch memory is read exactly where it is in use.** In every state that can be reached, and for every
address and every number of cells, cells in use are read as they are, a text in them goes into a
buffer of any size, and everything else is refused. It is refused as an invalid address, with the
address and the number, except where the end of the cells is no number of 64 bits: that stops
the reader, if overflow is checked.
-/
theorem Reachable.reads_where_in_use (h : Reachable s scopes) (address : Cell) (count : Nat)
    (output : List UInt8) :
    (s.Holds address count →
        ∃ row, row = (s.machine.cells.toList.drop (address.toInt.toNat / 4)).take count
          ∧ row.length = count ∧ s.readCells address count = .ok row
          ∧ ∃ answer, s.readText address count output = .ok answer
            ∧ Filled (CellText.decode row) output answer)
      ∧ (¬ s.Holds address count →
        s.readCells address count = .error (refusal address count)
          ∧ s.readText address count output = .error (refusal address count))
      ∧ (s.Holds address 1 →
        ∃ value, s.machine.cells[address.toInt.toNat / 4]? = some value
          ∧ s.readCell address = .ok value)
      ∧ (¬ s.Holds address 1 → s.readCell address = .error (.invalidAddress address 1))
      ∧ (count ≤ 2 ^ 64 - 2 ^ 29 → refusal address count = .invalidAddress address count) := by
  have hsound : Sound s := h.sound.1
  refine ⟨fun hholds => hsound.reads_held hholds output, fun hnone => ?_, hsound.reads_held_cell,
    fun hnone => ?_, refusal_of_le⟩
  · have hrange : s.range address count = .error (refusal address count) :=
      (hsound.range_eq address count).trans (if_neg hnone)
    rw [readCells, readText, hrange]
    exact ⟨rfl, rfl⟩
  · have hrange : s.range address 1 = .error (.invalidAddress address 1) := by
      rw [hsound.range_eq, if_neg hnone, refusal_of_le (by omega)]
    rw [readCell, hrange]
    rfl

/-- Scratch memory in whose open scope two cells were taken. -/
def withTwoCells : Scratch := ((new.pushCell 1).2.pushCell 2).2

theorem reachable_withTwoCells : Reachable withTwoCells [new] :=
  .pushedCell 2 (.pushedCell 1 (.opened .new))

/-- The second of two cells is read, and a text of two cells that begins there is refused. -/
theorem reads_where_in_use_second_cell :
    (∃ value, withTwoCells.readCell 4 = .ok value)
      ∧ withTwoCells.readText 4 2 [] = .error (.invalidAddress 4 2) := by
  obtain ⟨_, hrefused, hcell, _, hinvalid⟩ :=
    reachable_withTwoCells.reads_where_in_use 4 2 []
  obtain ⟨value, _, hvalue⟩ := hcell (by decide)
  obtain ⟨_, htext⟩ := hrefused (by decide)
  rw [hinvalid (by decide)] at htext
  exact ⟨⟨value, hvalue⟩, htext⟩

/-- **A text can be refused without an answer.** Its cells begin in the heap, they do not lie in it, and
the address is not called invalid. -/
theorem endless_text_stops :
    Reachable withTwoCells [new] ∧ ¬ withTwoCells.Holds 4 (2 ^ 64 - 1)
      ∧ withTwoCells.readText 4 (2 ^ 64 - 1) (List.replicate 8 0xEE) =
        .error (.rangeOverflow 4 (2 ^ 64 - 1))
      ∧ withTwoCells.readText 4 (2 ^ 64 - 1) (List.replicate 8 0xEE) ≠
        .error (.invalidAddress 4 (2 ^ 64 - 1)) := by
  have hnone : ¬ withTwoCells.Holds 4 (2 ^ 64 - 1) := by decide
  have hstops : withTwoCells.readText 4 (2 ^ 64 - 1) (List.replicate 8 0xEE) =
      .error (.rangeOverflow 4 (2 ^ 64 - 1)) := by
    rw [readText, reachable_withTwoCells.sound.1.range_eq, if_neg hnone]
    rfl
  exact ⟨reachable_withTwoCells, hnone, hstops, by rw [hstops]; simp⟩

end Scratch

end ScriptBridge
