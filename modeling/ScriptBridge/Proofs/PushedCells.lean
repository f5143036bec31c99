import ScriptBridge.Memory.Program
import ScriptBridge.Proofs.TextLayouts

/-!
# Where pushed arguments are read

A pushed argument lies so many cells above the top of the stack. Its address is computed in words, and
the number of the argument, which is much wider, is cut to a word before anything is checked
(`Cell.ofSize`). What the address should be is said here with whole numbers.

**The address.** `argument?_eq_some_iff` says for every number which address is read: the number that
is left of it, times four, above the top of the stack. It is refused if the product is no word or if the
address is not below the end of the stack. Below 2^31 nothing is lost, so an argument is read exactly if
its own address lies below the end. Up to 2^32 - 2^29 what is left is negative and its product no word:
that is refused, as it should be. The numbers behind them, and all that leave the same, are those for
which another place is read: above the top of the stack for 2^32 and more, and below it just in front.

**The cell.** A place of the stack need not be a multiple of four. `HoldsAt` says byte by byte what the
cell at a place of the memory is.
-/

namespace ScriptBridge

namespace Machine

variable {m : Machine} {address value : Cell} {index : Nat}

/-! ## Cells by their bytes -/

/-- The byte of a cell in a place, counted from the lowest. -/
def byteIn (value : Cell) (place : Nat) : UInt8 := (value.toUInt32 >>> (8 * place).toUInt32).toUInt8

/-- **The cell at a place of the memory**: its four bytes lie there, the lowest first. -/
def HoldsAt (m : Machine) (offset : Int) (value : Cell) : Prop :=
  ∀ place < 4, byteIn value place = m.byteAt (offset + (place : Nat))

theorem byteIn_toNat {place : Nat} (h : place < 4) :
    (byteIn value place).toNat = value.toUInt32.toNat / 2 ^ (8 * place) % 2 ^ 8 := by
  have hplace : (8 * place).toUInt32.toNat = 8 * place := UInt32.toNat_ofNat_of_lt' (by
    show _ < 2 ^ 32
    omega)
  unfold byteIn
  rw [CellText.byte_of_word _ _ (by omega), hplace]

/-- A cell is known by its bytes. -/
theorem eq_of_byteIn {other : Cell} (h : ∀ place < 4, byteIn value place = byteIn other place) :
    value = other := by
  have hbyte : ∀ place < 4, value.toUInt32.toNat / 2 ^ (8 * place) % 2 ^ 8 =
      other.toUInt32.toNat / 2 ^ (8 * place) % 2 ^ 8 := fun place hplace => by
    rw [← byteIn_toNat hplace, ← byteIn_toNat hplace, h place hplace]
  have h0 := hbyte 0 (by decide)
  have h1 := hbyte 1 (by decide)
  have h2 := hbyte 2 (by decide)
  have h3 := hbyte 3 (by decide)
  have hvalue := value.toUInt32.toNat_lt
  have hother := other.toUInt32.toNat_lt
  have hsame : value.toUInt32.toNat = other.toUInt32.toNat := by omega
  rw [← Int32.toInt32_toUInt32 value, ← Int32.toInt32_toUInt32 other, UInt32.toNat_inj.mp hsame]

/-- A byte behind a word that leaves room for it. -/
theorem appendByte_toNat {word : UInt32} (h : word.toNat < 2 ^ 24) (byte : UInt8) :
    (word <<< 8 ||| byte.toUInt32).toNat = 2 ^ 8 * word.toNat + byte.toNat := by
  have hbyte := byte.toNat_lt
  have hshifted : (word <<< 8).toNat = 2 ^ 8 * word.toNat := by
    rw [UInt32.toNat_shiftLeft, Nat.shiftLeft_eq]
    show word.toNat * 2 ^ 8 % 2 ^ 32 = _
    omega
  rw [UInt32.toNat_or, hshifted, UInt8.toNat_toUInt32, ← Nat.two_pow_add_eq_or_of_lt hbyte]

/-- **A word put together from bytes has them in its places**, the first in the lowest. -/
theorem assembled : ∀ bytes : List UInt8, bytes.length ≤ 4 →
    let word : UInt32 := bytes.foldr (fun byte word => word <<< 8 ||| byte.toUInt32) 0
    word.toNat < 2 ^ (8 * bytes.length)
      ∧ ∀ place byte, bytes[place]? = some byte →
        word.toNat / 2 ^ (8 * place) % 2 ^ 8 = byte.toNat
  | [], _ => ⟨by decide, by simp⟩
  | byte :: bytes, hlength => by
      obtain ⟨hlt, hplaces⟩ := assembled bytes (Nat.le_of_succ_le hlength)
      rw [List.length_cons] at hlength
      have hroom : 2 ^ (8 * bytes.length) ≤ 2 ^ 24 := Nat.pow_le_pow_right (by decide) (by omega)
      have hbyte := byte.toNat_lt
      have hword := appendByte_toNat (Nat.lt_of_lt_of_le hlt hroom) byte
      dsimp only [List.foldr_cons]
      rw [hword, List.length_cons, Nat.mul_succ, Nat.pow_add]
      refine ⟨by omega, fun place found hfound => ?_⟩
      cases place with
      | zero =>
          obtain rfl := Option.some.inj hfound
          omega
      | succ place =>
          -- the byte is in front of all others, so they lie one place higher
          rw [← hplaces place found hfound, Nat.mul_succ, Nat.add_comm (8 * place), Nat.pow_add,
            ← Nat.div_div_eq_div_mul]
          refine congrArg (fun n => n / 2 ^ (8 * place) % 2 ^ 8) ?_
          omega

/-- **What is read at a place is the cell there.** -/
theorem holdsAt_unalignedCell (m : Machine) (offset : Int) : m.HoldsAt offset (m.unalignedCell offset) := by
  intro place hplace
  have hfound : ((List.range cellSize).map fun (i : Nat) => m.byteAt (offset + i))[place]? =
      some (m.byteAt (offset + (place : Nat))) := by
    rw [List.getElem?_map, List.getElem?_range (show place < cellSize from hplace)]
    rfl
  obtain ⟨_, hplaces⟩ := assembled ((List.range cellSize).map fun (i : Nat) => m.byteAt (offset + i))
    (by rw [List.length_map, List.length_range]; exact Nat.le_refl 4)
  rw [← UInt8.toNat_inj, byteIn_toNat hplace, ← hplaces place _ hfound]
  rfl

/-- At the place of a cell that is the cell itself. -/
theorem holdsAt_cellAt (m : Machine) (index : Nat) : m.HoldsAt (4 * (index : Int)) (m.cellAt index) := by
  intro place hplace
  unfold byteAt byteIn cellSize
  rw [if_neg (by omega), show (4 * (index : Int) + (place : Nat)).toNat / 4 = index by omega,
    show (4 * (index : Int) + (place : Nat)).toNat % 4 = place by omega]

/-- A place holds one cell. -/
theorem HoldsAt.unique {other : Cell} {offset : Int} (h : m.HoldsAt offset value)
    (hother : m.HoldsAt offset other) : value = other :=
  eq_of_byteIn fun place hplace => (h place hplace).trans (hother place hplace).symm

/-! ## The address -/

theorem checked?_eq_some_iff {n : Int} {c : Cell} : checked? n = some c ↔ c.toInt = n := by
  have hlow : -2 ^ 31 ≤ c.toInt := Int32.le_toInt c
  have hhigh : c.toInt < 2 ^ 31 := Int32.toInt_lt c
  unfold checked?
  constructor
  · intro h
    split at h
    · rename_i hrange
      rw [← Option.some.inj h]
      exact Int32.toInt_ofInt_of_le (by omega) (by omega)
    · exact absurd h (by simp)
  · rintro rfl
    rw [if_pos (by omega), Int32.ofInt_toInt]

/-- **Which address is read**, for every number of an argument. -/
theorem argumentAddress?_eq_some_iff (hstack : 0 ≤ m.stackTop.toInt) :
    m.argumentAddress? index = some address ↔
      -2 ^ 29 ≤ (Cell.ofSize index).toInt
        ∧ address.toInt = m.stackTop.toInt + 4 * (Cell.ofSize index).toInt := by
  have hhigh : address.toInt < 2 ^ 31 := Int32.toInt_lt address
  unfold argumentAddress?
  rw [Option.bind_eq_some_iff]
  constructor
  · rintro ⟨offset, hoffset, haddress⟩
    rw [checked?_eq_some_iff] at hoffset haddress
    have hlow : -2 ^ 31 ≤ offset.toInt := Int32.le_toInt offset
    unfold cellSize at hoffset
    omega
  · rintro ⟨hlow, haddress⟩
    refine ⟨Int32.ofInt ((Cell.ofSize index).toInt * 4), ?_, ?_⟩
    · rw [checked?_eq_some_iff]
      exact Int32.toInt_ofInt_of_le (by omega) (by omega)
    · rw [checked?_eq_some_iff, Int32.toInt_ofInt_of_le (by omega) (by omega)]
      omega

/-- **What is read for every number of an argument.** -/
theorem argument?_eq_some_iff (hdata : m.hasData = true) (hstack : 0 ≤ m.stackTop.toInt) :
    m.argument? index = some value ↔
      -2 ^ 29 ≤ (Cell.ofSize index).toInt
        ∧ m.stackTop.toInt + 4 * (Cell.ofSize index).toInt < m.stackEnd.toInt
        ∧ m.HoldsAt (m.stackTop.toInt + 4 * (Cell.ofSize index).toInt) value := by
  have hend : m.stackEnd.toInt < 2 ^ 31 := Int32.toInt_lt m.stackEnd
  unfold argument?
  rw [Option.bind_eq_some_iff]
  constructor
  · rintro ⟨address, haddress, hread⟩
    obtain ⟨hlow, haddress⟩ := (argumentAddress?_eq_some_iff hstack).mp haddress
    split at hread
    · rename_i hbelow
      rw [← haddress, ← Option.some.inj hread]
      exact ⟨hlow, Int32.lt_iff_toInt_lt.mp hbelow.1, holdsAt_unalignedCell m _⟩
    · exact absurd hread (by simp)
  · rintro ⟨hlow, hbelow, hvalue⟩
    have haddress : (Int32.ofInt (m.stackTop.toInt + 4 * (Cell.ofSize index).toInt)).toInt =
        m.stackTop.toInt + 4 * (Cell.ofSize index).toInt :=
      Int32.toInt_ofInt_of_le (by omega) (by omega)
    refine ⟨_, (argumentAddress?_eq_some_iff hstack).mpr ⟨hlow, haddress⟩, ?_⟩
    have hend : Int32.ofInt (m.stackTop.toInt + 4 * (Cell.ofSize index).toInt) < m.stackEnd := by
      rw [Int32.lt_iff_toInt_lt, haddress]
      exact hbelow
    rw [if_pos ⟨hend, hdata⟩, haddress]
    exact congrArg some ((holdsAt_unalignedCell m _).unique hvalue)

/-- What is left of a number that is cut to a word is the only word that differs by whole turns. -/
theorem ofSize_toInt {left : Int} (hlow : -2 ^ 31 ≤ left) (hhigh : left < 2 ^ 31)
    (hturns : ((index : Int) - left) % 2 ^ 32 = 0) : (Cell.ofSize index).toInt = left := by
  unfold Cell.ofSize
  rw [Int32.toInt_ofNat', Int.bmod_def]
  unfold Int32.size
  omega

/-- **Arguments whose number is not too large are read in their place.** -/
theorem argument?_of_lt (hdata : m.hasData = true) (hstack : 0 ≤ m.stackTop.toInt)
    (hindex : index < 2 ^ 32 - 2 ^ 29) :
    m.argument? index = some value ↔
      m.stackTop.toInt + 4 * (index : Int) < m.stackEnd.toInt
        ∧ m.HoldsAt (m.stackTop.toInt + 4 * (index : Int)) value := by
  have hend : m.stackEnd.toInt < 2 ^ 31 := Int32.toInt_lt m.stackEnd
  rw [argument?_eq_some_iff hdata hstack]
  by_cases hsmall : index < 2 ^ 31
  · have hleft : (Cell.ofSize index).toInt = index := ofSize_toInt (by omega) (by omega) (by omega)
    rw [hleft]
    exact and_iff_right (by omega)
  · -- what is left of it is negative, and its product with four is no word
    have hleft : (Cell.ofSize index).toInt = (index : Int) - 2 ^ 32 :=
      ofSize_toInt (by omega) (by omega) (by omega)
    rw [hleft]
    constructor
    · rintro ⟨hlow, _⟩
      omega
    · rintro ⟨hbelow, _⟩
      omega

/-- A cell at a place depends on the bytes from there on. -/
theorem HoldsAt.congr {cells : Array Cell} {offset low : Int} (hlow : low ≤ offset)
    (h : ∀ place, low ≤ place → ({ m with cells } : Machine).byteAt place = m.byteAt place) :
    ({ m with cells } : Machine).HoldsAt offset value ↔ m.HoldsAt offset value := by
  refine forall_congr' fun place => imp_congr_right fun _ => ?_
  rw [h _ (by omega)]

/--
**Pushed arguments are read in their place, if their number is not too large.** Take a machine that has
its data and whose stack begins at no negative address. The stack may end anywhere.

An argument is read exactly if the place of its number, computed without bounds, lies below the end of
the stack, and then it is the cell there; nothing that lies below the stack plays a part. So it is for all
numbers below 2^32 - 2^29. For every number the place that is read is that of the word which is left of
the number, unless four times the word is no word.
-/
theorem pushed_cells_are_read_in_place (hdata : m.hasData = true) (hstack : 0 ≤ m.stackTop.toInt)
    (id : ProgramId) :
    (∀ index : Nat, index < 2 ^ 32 - 2 ^ 29 →
        (((m.program id).argument? index).isSome = true ↔
          m.stackTop.toInt + 4 * (index : Int) < m.stackEnd.toInt)
        ∧ (∀ value, (m.program id).argument? index = some value →
          m.HoldsAt (m.stackTop.toInt + 4 * (index : Int)) value
          ∧ (m.stackTop.toInt % 4 = 0 → value = m.cellAt (m.stackTop.toInt.toNat / 4 + index)))
        ∧ ∀ cells : Array Cell, (∀ place, m.stackTop.toInt ≤ place →
            ({ m with cells } : Machine).byteAt place = m.byteAt place) →
          (({ m with cells } : Machine).program id).argument? index = (m.program id).argument? index)
      ∧ ∀ (index : Nat) (left : Int), -2 ^ 31 ≤ left → left < 2 ^ 31 →
        ((index : Int) - left) % 2 ^ 32 = 0 → ∀ value,
        (m.program id).argument? index = some value ↔ -2 ^ 29 ≤ left
          ∧ m.stackTop.toInt + 4 * left < m.stackEnd.toInt
          ∧ m.HoldsAt (m.stackTop.toInt + 4 * left) value := by
  refine ⟨fun index hindex => ⟨?_, fun value hvalue => ?_, fun cells hcells => ?_⟩,
    fun index left hlow hhigh hturns value => ?_⟩
  · show (m.argument? index).isSome = true ↔ _
    rw [Option.isSome_iff_exists]
    constructor
    · rintro ⟨value, hvalue⟩
      exact ((argument?_of_lt hdata hstack hindex).mp hvalue).1
    · intro hbelow
      exact ⟨_, (argument?_of_lt hdata hstack hindex).mpr ⟨hbelow, holdsAt_unalignedCell m _⟩⟩
  · obtain ⟨_, hholds⟩ := (argument?_of_lt hdata hstack hindex).mp hvalue
    refine ⟨hholds, fun haligned => hholds.unique ?_⟩
    have hcell := holdsAt_cellAt m (m.stackTop.toInt.toNat / 4 + index)
    rwa [show 4 * ((m.stackTop.toInt.toNat / 4 + index : Nat) : Int) =
      m.stackTop.toInt + 4 * (index : Int) by omega] at hcell
  · refine Option.ext fun value => ?_
    have hlow : m.stackTop.toInt ≤ m.stackTop.toInt + 4 * (index : Int) := by omega
    refine (argument?_of_lt (m := { m with cells }) hdata hstack hindex).trans
      (Iff.trans ?_ (argument?_of_lt hdata hstack hindex).symm)
    exact and_congr_right fun _ => HoldsAt.congr hlow hcells
  · show m.argument? index = some value ↔ _
    rw [argument?_eq_some_iff hdata hstack, ofSize_toInt hlow hhigh hturns]

/-- A machine with four arguments on its stack, in front of which lies a nine. -/
def withFourArguments : Machine :=
  { cells := #[0, 0, 0, 0, 0, 0, 0, 0, 0, 0, 0, 9, 1, 2, 3, 4]
    hasData := true, heapTop := 32, stackTop := 48, stackEnd := 64 }

/-- The last argument is read, and there is none behind it. -/
theorem pushed_cells_are_read_in_place_last :
    (withFourArguments.hasData = true ∧ 0 ≤ withFourArguments.stackTop.toInt)
      ∧ (withFourArguments.program 0).argument? 3 = some 4
      ∧ (withFourArguments.program 0).argument? 4 = none := by
  have hstack : 0 ≤ withFourArguments.stackTop.toInt := by decide
  obtain ⟨hplaces, _⟩ := pushed_cells_are_read_in_place (m := withFourArguments) rfl hstack 0
  obtain ⟨hlast, hvalue, _⟩ := hplaces 3 (by decide)
  obtain ⟨hbehind, _⟩ := hplaces 4 (by decide)
  refine ⟨⟨rfl, hstack⟩, ?_, ?_⟩
  · obtain ⟨value, hread⟩ := Option.isSome_iff_exists.mp (hlast.mpr (by decide))
    rw [hread, (hvalue value hread).2 (by decide)]
    decide
  · rw [← Option.not_isSome_iff_eq_none, hbehind]
    decide

/-- **A number that is cut reads the place of another.** Neither 2^32 nor the number in front of it has a
place below the end of the stack. For the one the first argument is read, and for the other what lies
below the stack. -/
theorem cut_number_reads_another_place :
    withFourArguments.hasData = true ∧ 0 ≤ withFourArguments.stackTop.toInt
      ∧ (∀ index : Nat, index = 2 ^ 32 ∨ index = 2 ^ 32 - 1 →
        ¬ withFourArguments.stackTop.toInt + 4 * (index : Int) < withFourArguments.stackEnd.toInt)
      ∧ (withFourArguments.program 0).argument? (2 ^ 32) = some 1
      ∧ (withFourArguments.program 0).argument? (2 ^ 32 - 1) = some 9
      ∧ withFourArguments.HoldsAt (withFourArguments.stackTop.toInt - 4) 9 := by
  refine ⟨rfl, by decide, ?_, by decide, by decide, holdsAt_cellAt withFourArguments 11⟩
  have htop : withFourArguments.stackTop.toInt = 48 := by decide
  have hend : withFourArguments.stackEnd.toInt = 64 := by decide
  rintro index (rfl | rfl) <;> omega

end Machine

end ScriptBridge
