import Mathlib.Data.Int.ModEq
import ScriptBridge.Proofs.ExactArithmetic
import ScriptBridge.Value.Argument

/-!
# Conversions between numbers and cells

A script has no cells, only numbers, and gets a cell back by one of two conversions. Both are chains of
operations on numbers, and none of them rounds. Truncating leaves an integer; its remainder by 2^32 is an
integer below 2^32, so the cast that holds it between the ends of an unsigned word changes nothing, and the
word is the cell that differs by whole turns (`wrapNumber_modEq`). The strict conversion looks whether
truncating takes anything away and whether the number lies between the ends of a cell, and what passes is
the cell (`exactCell?_number_iff`).

The number that stands for a cell has the cell as its value, since that is an integer of 32 bits.
-/

namespace ScriptBridge

theorem Cell.toInt_bounds (c : Cell) : -2 ^ 31 ≤ c.toInt ∧ c.toInt < 2 ^ 31 :=
  ⟨Int32.le_toInt c, Int32.toInt_lt c⟩

/-- Cells that differ by whole turns are the same. -/
theorem Cell.eq_of_modEq {a b : Cell} (h : a.toInt ≡ b.toInt [ZMOD 2 ^ 32]) : a = b := by
  have ha := a.toInt_bounds
  have hb := b.toInt_bounds
  unfold Int.ModEq at h
  exact Int32.toInt_inj.mp (by omega)

/-- A word read as a cell differs from it by whole turns. -/
theorem Cell.ofWord_modEq (n : Nat) : (UInt32.ofNat n).toInt32.toInt ≡ n [ZMOD 2 ^ 32] := by
  rw [UInt32.toInt32_ofNat', Int32.toInt_ofNat', Int.bmod_def]
  unfold Int.ModEq Int32.size
  omega

namespace ScriptValue

open BinaryFormat BinaryFormat.Meaning

variable {x : Double} {q : ℚ} {value : ScriptValue} {c : Cell}

/-! ## The modular conversion -/

/-- **The whole part of a number is wrapped around**, whatever its size. -/
theorem wrapNumber_modEq (h : x.value? = some q) : (wrapNumber x).toInt ≡ towardZero q [ZMOD 2 ^ 32] := by
  have hfinite : x.isFinite = true := by
    unfold Double.isFinite
    rw [h, Option.isSome_some]
  have hturn : (Double.ofInt 0x100000000).value? = some ((0x100000000 : Nat) : ℚ) :=
    Double.value?_ofInt (n := 0x100000000) (by decide)
  have hmodulo := Double.value?_euclideanRemainder (Double.value?_truncate h) hturn (by decide) (by decide)
  have hheld := Double.held_eq hmodulo 0 0xFFFFFFFF
  rw [towardZero_intCast] at hheld
  unfold wrapNumber
  rw [if_pos hfinite]
  dsimp only
  rw [hheld]
  -- the remainder lies between the ends already, so holding it there changes nothing
  refine (Cell.ofWord_modEq _).trans ?_
  unfold Int.ModEq
  omega

theorem wrapNumber_of_value?_eq_none (h : x.value? = none) : wrapNumber x = 0 := by
  unfold wrapNumber Double.isFinite
  rw [h]
  rfl

/-! ## The strict conversion -/

/-- What the strict conversion looks at: nothing is taken away, and the ends of a cell are kept. -/
theorem isCell_iff (h : x.value? = some q) :
    (x.fraction.sameNumber .zero ∧ (Double.ofInt (-0x80000000)).atMost x
      ∧ x.atMost (Double.ofInt 0x7FFFFFFF)) ↔ ∃ c : Cell, q = c.toInt := by
  have hlow := Double.atMost_iff (Double.value?_ofInt (n := -0x80000000) (by decide)) h
  have hhigh := Double.atMost_iff h (Double.value?_ofInt (n := 0x7FFFFFFF) (by decide))
  rw [Double.sameNumber_zero (Double.value?_fraction h), sub_eq_zero, hlow, hhigh]
  constructor
  · rintro ⟨hwhole, hlow, hhigh⟩
    rw [hwhole, Int.cast_le] at hlow hhigh
    refine ⟨Int32.ofInt (towardZero q), ?_⟩
    rw [Int32.toInt_ofInt_of_le hlow (by omega), ← hwhole]
  · rintro ⟨c, rfl⟩
    have hc := c.toInt_bounds
    rw [towardZero_intCast, Int.cast_le, Int.cast_le]
    exact ⟨rfl, by omega, by omega⟩

/-- **A number is taken for a cell exactly if it is one.** -/
theorem exactCell?_number_iff :
    (ScriptValue.number x).exactCell? = some c ↔ x.value? = some (c.toInt : ℚ) := by
  unfold exactCell?
  dsimp only
  cases hvalue : x.value? with
  | none =>
      rw [Double.sameNumber_zero_of_value? (Double.value?_fraction_eq_none hvalue)]
      simp
  | some q =>
      rw [Option.some_inj]
      by_cases hcell : ∃ k : Cell, q = k.toInt
      · rw [if_pos ((isCell_iff hvalue).mpr hcell), Double.held_eq hvalue]
        obtain ⟨k, rfl⟩ := hcell
        have hk := k.toInt_bounds
        rw [towardZero_intCast, min_eq_right (by omega), max_eq_right (by omega), Int32.ofInt_toInt,
          Option.some_inj, Int.cast_inj, Int32.toInt_inj]
      · rw [if_neg fun h => hcell ((isCell_iff hvalue).mp h)]
        exact iff_of_false (by simp) fun h => hcell ⟨c, h⟩

/-- **What the strict conversion answers, the modular one answers too.** -/
theorem wrappedCell?_of_exactCell? (h : value.exactCell? = some c) : value.wrappedCell? = some c := by
  cases value with
  | number x =>
      have hwrapped := wrapNumber_modEq (exactCell?_number_iff.mp h)
      rw [towardZero_intCast] at hwrapped
      exact congrArg some (Cell.eq_of_modEq hwrapped)
  | _ => exact absurd h (by simp [exactCell?])

/-- **A cell comes back from the number that stands for it.** -/
theorem exactCell?_ofCell (c : Cell) : (ofCell c).exactCell? = some c := by
  have hc := c.toInt_bounds
  exact exactCell?_number_iff.mpr (Double.value?_ofInt (by omega))

/--
**Conversions between numbers and cells are exact.**

The modular conversion of a finite number gives the one cell that differs by whole turns from the number
truncated toward zero. What has no value, since all bits of its exponent are set, gives zero. The strict
conversion gives a cell exactly if it is the value of the number; both zeros are the cell zero. What the
strict one gives, the modular one gives too.

So every cell comes back by either conversion from the number that stands for it, and every word of a row
comes back from its entry as the cell with the same bits.
-/
theorem conversions_are_exact :
    (∀ (x : Double) (q : ℚ), x.value? = some q →
        ∃ c : Cell, (ScriptValue.number x).wrappedCell? = some c
          ∧ c.toInt ≡ (if q < 0 then ⌈q⌉ else ⌊q⌋) [ZMOD 2 ^ 32]
          ∧ ∀ other : Cell, other.toInt ≡ (if q < 0 then ⌈q⌉ else ⌊q⌋) [ZMOD 2 ^ 32] → other = c)
      ∧ (∀ x : Double, (x.value? = none ↔ x.bits.toNat / 2 ^ 52 % 2 ^ 11 = 2047)
        ∧ (x.value? = none → (ScriptValue.number x).wrappedCell? = some 0))
      ∧ (∀ (x : Double) (c : Cell),
        (ScriptValue.number x).exactCell? = some c ↔ x.value? = some (c.toInt : ℚ))
      ∧ (∀ x : Double, x.bits = 0 ∨ x.bits = 0x8000000000000000 →
        (ScriptValue.number x).exactCell? = some 0)
      ∧ (∀ (value : ScriptValue) (c : Cell), value.exactCell? = some c → value.wrappedCell? = some c)
      ∧ (∀ c : Cell, ∀ value ∈ [ofCell c, (ArgumentValue.integer c).toScript],
        value.exactCell? = some c ∧ value.wrappedCell? = some c)
      ∧ ∀ words : List UInt32, ∃ entries, (ArgumentValue.cells words).toScript = .array entries
        ∧ entries.length = words.length
        ∧ ∀ (i : Nat) (word : UInt32), words[i]? = some word →
          ∃ entry c, entries[i]? = some entry ∧ entry.exactCell? = some c
            ∧ entry.wrappedCell? = some c ∧ c.toUInt32 = word := by
  refine ⟨fun x q hvalue => ?_, fun x => ⟨x.value?_eq_none_iff, fun hvalue => ?_⟩,
    fun x c => exactCell?_number_iff, fun x hzero => ?_,
    fun value c => wrappedCell?_of_exactCell?, fun c value hvalue => ?_, fun words => ?_⟩
  · have hwrapped := wrapNumber_modEq hvalue
    rw [towardZero_eq] at hwrapped
    exact ⟨wrapNumber x, rfl, hwrapped, fun other hother => Cell.eq_of_modEq (hother.trans hwrapped.symm)⟩
  · exact congrArg some (wrapNumber_of_value?_eq_none hvalue)
  · rw [exactCell?_number_iff, Int32.toInt_zero, Int.cast_zero]
    exact Double.value?_of_zero hzero
  · have hboth : (ofCell c).exactCell? = some c ∧ (ofCell c).wrappedCell? = some c :=
      ⟨exactCell?_ofCell c, wrappedCell?_of_exactCell? (exactCell?_ofCell c)⟩
    simp only [List.mem_cons, List.not_mem_nil, or_false] at hvalue
    rcases hvalue with rfl | rfl
    · exact hboth
    · exact hboth
  · refine ⟨_, rfl, List.length_map _, fun i word hword => ?_⟩
    rw [List.getElem?_map, hword]
    exact ⟨_, _, rfl, exactCell?_ofCell _, wrappedCell?_of_exactCell? (exactCell?_ofCell _), rfl⟩

/-- At a half, behind three turns below zero, above 2^53 and at the smallest number of all. -/
theorem conversions_are_exact_at_edges :
    (ScriptValue.number ⟨0xBFF8000000000000⟩).wrappedCell? = some (-1)
      ∧ (ScriptValue.number ⟨0xBFF8000000000000⟩).exactCell? = none
      ∧ (ScriptValue.number ⟨0xC208000000040000⟩).wrappedCell? = some 0
      ∧ (ScriptValue.number ⟨0x4340000000000001⟩).wrappedCell? = some 2
      ∧ (ScriptValue.number ⟨1⟩).wrappedCell? = some 0
      ∧ (ScriptValue.number ⟨0x7FF8000000000000⟩).wrappedCell? = some 0 := by
  obtain ⟨hwrapped, hnotFinite, hexact, _⟩ := conversions_are_exact
  have hcell : ∀ (x : Double) (q : ℚ) (c : Cell), x.value? = some q →
      c.toInt ≡ (if q < 0 then ⌈q⌉ else ⌊q⌋) [ZMOD 2 ^ 32] →
      (ScriptValue.number x).wrappedCell? = some c := by
    intro x q c hvalue hc
    obtain ⟨found, hfound, _, hunique⟩ := hwrapped x q hvalue
    rw [hfound, hunique c hc]
  have hhalf : (⟨0xBFF8000000000000⟩ : Double).value? = some (-3 / 2) :=
    value?_eq_some_iff.mpr ⟨true, 0x18000000000000, -52, by decide, by norm_num [scaled]⟩
  have hturns : (⟨0xC208000000040000⟩ : Double).value? = some (-12884901888 - 1 / 2) :=
    value?_eq_some_iff.mpr ⟨true, 0x18000000040000, -19, by decide, by norm_num [scaled]⟩
  have hlarge : (⟨0x4340000000000001⟩ : Double).value? = some (2 ^ 53 + 2) :=
    value?_eq_some_iff.mpr ⟨false, 0x10000000000001, 1, by decide, by norm_num [scaled]⟩
  have hsmall : (⟨1⟩ : Double).value? = some (2 ^ (-1074 : Int)) :=
    value?_eq_some_iff.mpr ⟨false, 1, -1074, by decide, by simp [scaled]⟩
  refine ⟨hcell _ _ _ hhalf ?_, ?_, hcell _ _ _ hturns ?_, hcell _ _ _ hlarge ?_, hcell _ _ _ hsmall ?_,
    (hnotFinite _).2 (by decide)⟩
  · norm_num
    decide
  · refine Option.eq_none_iff_forall_ne_some.mpr fun c hc => ?_
    have hvalue := (hexact _ c).mp hc
    rw [hhalf, Option.some_inj, div_eq_iff (by norm_num)] at hvalue
    have hinteger : -3 = c.toInt * 2 := by exact_mod_cast hvalue
    omega
  · norm_num
    decide
  · norm_num
    decide
  · have hpos : (0 : ℚ) < 2 ^ (-1074 : Int) := by positivity
    have hlt : (2 : ℚ) ^ (-1074 : Int) < 1 := zpow_lt_one_of_neg₀ (by norm_num) (by decide)
    rw [if_neg hpos.not_gt, Int.floor_eq_zero_iff.mpr ⟨hpos.le, hlt⟩]
    rfl

end ScriptValue

end ScriptBridge
