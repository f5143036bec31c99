import Mathlib.Algebra.Order.Field.Power
import Mathlib.Data.Rat.Floor
import Mathlib.Tactic.FieldSimp
import Mathlib.Tactic.Linarith
import Mathlib.Tactic.NormNum
import Mathlib.Tactic.Positivity
import Mathlib.Tactic.Ring
import ScriptBridge.Number.Arithmetic

/-!
# Where rounding loses nothing

A format has the fractions `± k * 2 ^ e` whose significand `k` has no more bits than the format and whose
exponent is neither too small nor too large (`BinaryFormat.Fits`). What a word stands for is such a
fraction, if it is finite (`hasRoom_of_meaning`), and such a fraction is what the word nearest to it stands
for (`meaning_nearest`). So an operation whose exact result fits is exact.

The one question is the unit. `unitOf_unitExponent` says for every fraction that in its unit it has as many
whole bits as the format, or fewer in the least unit. A fraction that fits is a whole number of units
(`UnitOf.whole`): if its own exponent were smaller, it would have too many bits.
-/

namespace ScriptBridge

namespace BinaryFormat

variable {f : BinaryFormat} {num den : Nat} {negative : Bool} {q : ℚ}

/-- The exponent of the largest numbers. -/
def greatestExponent (f : BinaryFormat) : Int := f.leastExponent + Nat.pow 2 f.exponentBits - 3

/-- A significand and an exponent that a word has room for. -/
structure HasRoom (f : BinaryFormat) (significand : Nat) (exponent : Int) : Prop where
  bits : significand < 2 ^ (f.fractionBits + 1)
  least : f.leastExponent ≤ exponent
  greatest : exponent ≤ f.greatestExponent

/-- **A fraction that the format has.** -/
def Fits (f : BinaryFormat) (q : ℚ) : Prop :=
  ∃ (m : Nat) (e : Int), f.HasRoom m e ∧ |q| = m * 2 ^ e

theorem zpow_of_nonneg {e : Int} (h : 0 ≤ e) : (2 : ℚ) ^ e = 2 ^ e.toNat := by
  rw [← zpow_natCast, Int.toNat_of_nonneg h]

theorem abs_scaled (negative : Bool) (m : Nat) (e : Int) : |scaled negative m e| = m * 2 ^ e := by
  have hnonneg : (0 : ℚ) ≤ m * 2 ^ e := by positivity
  unfold scaled
  split
  · rw [abs_neg, abs_of_nonneg hnonneg]
  · exact abs_of_nonneg hnonneg

/-! ## The unit -/

theorem inUnits_pos (num : Nat) (hden : 0 < den) (e : Int) : 0 < (inUnits num den e).2 := by
  unfold inUnits
  split
  · exact Nat.mul_pos hden (Nat.two_pow_pos _)
  · exact hden

/-- Counting in units divides by the unit. -/
theorem inUnits_ratio (num den : Nat) (e : Int) :
    ((inUnits num den e).1 : ℚ) / (inUnits num den e).2 = num / den / 2 ^ e := by
  unfold inUnits
  split
  · rename_i hnonneg
    rw [zpow_of_nonneg hnonneg]
    push_cast [Nat.pow_eq]
    exact (div_div _ _ _).symm
  · rename_i hneg
    have hpow : (2 : ℚ) ^ (-e) = 2 ^ (-e).toNat := zpow_of_nonneg (by omega)
    rw [div_eq_mul_inv _ ((2 : ℚ) ^ e), ← zpow_neg, hpow]
    push_cast [Nat.pow_eq]
    ring

theorem log2_bounds {n : Nat} (h : 0 < n) :
    (2 : ℚ) ^ (n.log2 : Int) ≤ n ∧ (n : ℚ) < 2 ^ ((n.log2 : Int) + 1) := by
  rw [← Nat.cast_succ, zpow_natCast, zpow_natCast]
  exact ⟨by exact_mod_cast Nat.log2_self_le h.ne', by exact_mod_cast Nat.lt_log2_self⟩

/-- A fraction of whole numbers lies between two powers of two. -/
theorem ratio_log2 (hnum : 0 < num) (hden : 0 < den) :
    (2 : ℚ) ^ ((num.log2 : Int) - den.log2 - 1) ≤ num / den
      ∧ (num / den : ℚ) < 2 ^ ((num.log2 : Int) - den.log2 + 1) := by
  have hden' : (0 : ℚ) < den := by exact_mod_cast hden
  obtain ⟨hnumLow, hnumHigh⟩ := log2_bounds hnum
  obtain ⟨hdenLow, hdenHigh⟩ := log2_bounds hden
  constructor
  · rw [le_div_iff₀ hden']
    calc (2 : ℚ) ^ ((num.log2 : Int) - den.log2 - 1) * den
        ≤ 2 ^ ((num.log2 : Int) - den.log2 - 1) * 2 ^ ((den.log2 : Int) + 1) := by gcongr
      _ = 2 ^ (num.log2 : Int) := by
          rw [← zpow_add₀ two_ne_zero]
          ring_nf
      _ ≤ num := hnumLow
  · rw [div_lt_iff₀ hden']
    calc (num : ℚ) < 2 ^ ((num.log2 : Int) + 1) := hnumHigh
      _ = 2 ^ ((num.log2 : Int) - den.log2 + 1) * 2 ^ (den.log2 : Int) := by
          rw [← zpow_add₀ two_ne_zero]
          ring_nf
      _ ≤ 2 ^ ((num.log2 : Int) - den.log2 + 1) * den := by gcongr

/-- **A unit for a fraction** leaves it as many whole bits as the format has, unless it is the least. -/
structure UnitOf (f : BinaryFormat) (q : ℚ) (e : Int) : Prop where
  least : f.leastExponent ≤ e
  bits : q < 2 ^ (f.fractionBits + 1) * 2 ^ e
  full : f.leastExponent < e → 2 ^ f.fractionBits * 2 ^ e ≤ q

/-- No unit is smaller than the least, and a larger one leaves fewer bits. -/
theorem unitOf_max {exact : Int} (hbits : q < 2 ^ (f.fractionBits + 1) * 2 ^ exact)
    (hfull : 2 ^ f.fractionBits * 2 ^ exact ≤ q) : f.UnitOf q (max exact f.leastExponent) where
  least := le_max_right _ _
  bits := by
    refine hbits.trans_le ?_
    gcongr
    · norm_num
    · exact le_max_left _ _
  full hmore := by rwa [max_eq_left (by omega)]

/-- **The unit that is computed.** The guess from the lengths of both numbers is one too large or right. -/
theorem unitOf_unitExponent (hnum : 0 < num) (hden : 0 < den) :
    f.UnitOf (num / den) (f.unitExponent num den) := by
  obtain ⟨hlow, hhigh⟩ := ratio_log2 hnum hden
  have hpow : ∀ (bits : Nat) (e : Int), (2 : ℚ) ^ bits * 2 ^ e = 2 ^ ((bits : Int) + e) := by
    intro bits e
    rw [zpow_add₀ two_ne_zero, zpow_natCast]
  unfold unitExponent
  generalize hguess : (num.log2 : Int) - den.log2 - f.fractionBits = guess
  -- the test on whole numbers asks whether the guess leaves a bit too few
  have hwhole : (inUnits num den guess).1 / (inUnits num den guess).2 < Nat.pow 2 f.fractionBits ↔
      (num / den : ℚ) < 2 ^ f.fractionBits * 2 ^ guess := by
    have hpos : (0 : ℚ) < (inUnits num den guess).2 := by exact_mod_cast inUnits_pos num hden guess
    rw [Nat.div_lt_iff_lt_mul (inUnits_pos num hden guess), ← div_lt_iff₀ (by positivity),
      ← inUnits_ratio, div_lt_iff₀ hpos, Nat.pow_eq]
    exact_mod_cast Iff.rfl
  dsimp only
  split
  · rename_i hless
    have hless := hwhole.mp hless
    refine unitOf_max ?_ ?_
    · rw [hpow] at hless ⊢
      convert hless using 2
      push_cast
      ring
    · rw [hpow]
      convert hlow using 2
      omega
  · rename_i hmore
    refine unitOf_max ?_ (not_lt.mp fun hless => hmore (hwhole.mpr hless))
    rw [hpow]
    convert hhigh using 2
    push_cast
    omega

/-- **A fraction that fits is a whole number of its units.** -/
theorem UnitOf.whole {e : Int} (h : f.UnitOf q e) (hq : 0 ≤ q) (hfits : f.Fits q) :
    ∃ s : Nat, q = s * 2 ^ e ∧ f.HasRoom s e ∧ (e = f.leastExponent ∨ 2 ^ f.fractionBits ≤ s) := by
  obtain ⟨k, d, ⟨hk, hleast, hgreatest⟩, hvalue⟩ := hfits
  rw [abs_of_nonneg hq] at hvalue
  have hunit : (0 : ℚ) < 2 ^ e := by positivity
  -- in a unit larger than its own the fraction would have too many bits
  have hle : e ≤ d := by
    by_contra hlt
    have hbits : (k : ℚ) < 2 ^ (f.fractionBits + 1) := by exact_mod_cast hk
    have hfull := h.full (by omega)
    have hsmaller : q < 2 ^ f.fractionBits * 2 ^ e := by
      calc q = k * 2 ^ d := hvalue
        _ < 2 ^ (f.fractionBits + 1) * 2 ^ d := by gcongr
        _ = 2 ^ f.fractionBits * 2 ^ (d + 1) := by
            rw [zpow_add₀ two_ne_zero]
            ring
        _ ≤ 2 ^ f.fractionBits * 2 ^ e := by
            gcongr
            · norm_num
            · omega
    exact absurd hfull (not_le.mpr hsmaller)
  have hwhole : q = ((k * 2 ^ (d - e).toNat : Nat) : ℚ) * 2 ^ e := by
    push_cast
    rw [hvalue, ← zpow_of_nonneg (by omega), mul_assoc, ← zpow_add₀ two_ne_zero, sub_add_cancel]
  refine ⟨k * 2 ^ (d - e).toNat, hwhole, ⟨?_, h.least, hle.trans hgreatest⟩, ?_⟩
  · have hbits := h.bits
    rw [hwhole, mul_lt_mul_iff_of_pos_right hunit] at hbits
    exact_mod_cast hbits
  · refine or_iff_not_imp_left.mpr fun hother => ?_
    have hfull := h.full (lt_of_le_of_ne h.least (Ne.symm hother))
    rw [hwhole, mul_le_mul_iff_of_pos_right hunit] at hfull
    exact_mod_cast hfull

/-! ## Words -/

theorem infinityBits_lt (f : BinaryFormat) : f.infinityBits < f.signPlace := by
  have hpow : 0 < Nat.pow 2 f.exponentBits := Nat.two_pow_pos _
  have hplace : f.signPlace = Nat.pow 2 f.exponentBits * Nat.pow 2 f.fractionBits := Nat.pow_add _ _ _
  unfold infinityBits
  rw [hplace]
  exact Nat.mul_lt_mul_of_pos_right (by omega) (Nat.two_pow_pos _)

/-- A word is read as it was put together. -/
theorem meaning_signed (negative : Bool) {a s : Nat} (hs : s < 2 ^ (f.fractionBits + 1))
    (ha : a = 0 ∨ 2 ^ f.fractionBits ≤ s) (hfinite : a * 2 ^ f.fractionBits + s < f.infinityBits) :
    f.meaning (f.signed negative (a * 2 ^ f.fractionBits + s)) =
      .finite negative s (f.leastExponent + a) := by
  have hplace := f.infinityBits_lt
  have hpow : 0 < 2 ^ f.fractionBits := Nat.two_pow_pos _
  have hsign : decide (f.signPlace ≤ f.signed negative (a * 2 ^ f.fractionBits + s)) = negative := by
    unfold signed
    cases negative
    · exact decide_eq_false (by simp only [Bool.false_eq_true, if_false]; omega)
    · exact decide_eq_true (by simp only [if_true]; omega)
  have hmagnitude : f.signed negative (a * 2 ^ f.fractionBits + s) % f.signPlace =
      a * 2 ^ f.fractionBits + s := by
    unfold signed
    split
    · rw [Nat.add_mod_left, Nat.mod_eq_of_lt (by omega)]
    · exact Nat.mod_eq_of_lt (by omega)
  unfold meaning
  simp only [hsign, hmagnitude, Nat.pow_eq]
  rw [if_neg (by omega), if_neg (by omega)]
  by_cases hbelow : s < 2 ^ f.fractionBits
  · obtain rfl : a = 0 := ha.resolve_right (by omega)
    have hexponent : (0 * 2 ^ f.fractionBits + s) / 2 ^ f.fractionBits = 0 := by
      rw [Nat.zero_mul, Nat.zero_add, Nat.div_eq_of_lt hbelow]
    have hfraction : (0 * 2 ^ f.fractionBits + s) % 2 ^ f.fractionBits = s := by
      rw [Nat.zero_mul, Nat.zero_add, Nat.mod_eq_of_lt hbelow]
    rw [if_pos hexponent, hfraction, Nat.cast_zero, Int.add_zero]
  · -- the first bit of the significand counts as one more in the exponent
    obtain ⟨fraction, rfl⟩ := Nat.exists_eq_add_of_le (Nat.le_of_not_lt hbelow)
    rw [Nat.pow_succ] at hs
    have hsum : a * 2 ^ f.fractionBits + (2 ^ f.fractionBits + fraction) =
        fraction + 2 ^ f.fractionBits * (a + 1) := by ring
    rw [hsum, Nat.add_mul_div_left _ _ hpow, Nat.add_mul_mod_self_left, Nat.div_eq_of_lt (by omega),
      Nat.mod_eq_of_lt (by omega), if_neg (by omega)]
    congr 1
    omega

/-- **What a word stands for has room in one.** -/
theorem hasRoom_of_meaning (hexponent : 1 < f.exponentBits) {bits m : Nat} {e : Int}
    (h : f.meaning bits = .finite negative m e) : f.HasRoom m e := by
  have hpow : 0 < 2 ^ f.fractionBits := Nat.two_pow_pos _
  have hexponents : 2 ^ 2 ≤ 2 ^ f.exponentBits := Nat.pow_le_pow_right (by decide) hexponent
  have hfraction := Nat.mod_lt (bits % f.signPlace) hpow
  have hinfinity : f.infinityBits = (2 ^ f.exponentBits - 1) * 2 ^ f.fractionBits := rfl
  have hgreatest : f.greatestExponent = f.leastExponent + (2 ^ f.exponentBits : Nat) - 3 := rfl
  unfold meaning at h
  simp only [Nat.pow_eq] at h
  generalize 2 ^ f.exponentBits = exponents at *
  split at h
  · cases h
  split at h
  · cases h
  -- a word without a hidden bit has the least exponent
  split at h
  · obtain ⟨rfl, rfl, rfl⟩ := Meaning.finite.inj h
    exact ⟨by rw [Nat.pow_succ]; omega, Int.le_refl _, by omega⟩
  · have hbiased : bits % f.signPlace / 2 ^ f.fractionBits < exponents - 1 := by
      rw [Nat.div_lt_iff_lt_mul hpow, ← hinfinity]
      omega
    generalize bits % f.signPlace / 2 ^ f.fractionBits = biased at *
    obtain ⟨rfl, rfl, rfl⟩ := Meaning.finite.inj h
    exact ⟨by rw [Nat.pow_succ]; omega, by omega, by omega⟩

/-- Whole numbers are not rounded. -/
theorem roundToEven_mul (hden : 0 < den) (s : Nat) : roundToEven (s * den) den = s := by
  unfold roundToEven
  rw [Nat.mul_div_cancel _ hden, Nat.mul_mod_left]
  dsimp only
  rw [if_neg (by omega), if_neg (by omega)]

theorem nearest_lt (f : BinaryFormat) (negative : Bool) (num den : Nat) :
    f.nearest negative num den < 2 * f.signPlace := by
  have hplace := f.infinityBits_lt
  have hmagnitude : f.nearestMagnitude num den ≤ f.infinityBits := by
    unfold nearestMagnitude
    split
    · exact Nat.zero_le _
    · exact Nat.min_le_right _ _
  unfold nearest signed
  split <;> omega

/-- The words of finite numbers lie below infinity. -/
theorem lt_infinityBits {a s : Nat} (hs : s < 2 ^ (f.fractionBits + 1)) (ha : a + 3 ≤ 2 ^ f.exponentBits) :
    a * 2 ^ f.fractionBits + s < f.infinityBits := by
  rw [Nat.pow_succ] at hs
  calc a * 2 ^ f.fractionBits + s < (a + 2) * 2 ^ f.fractionBits := by
        rw [Nat.add_mul]
        omega
    _ ≤ f.infinityBits := Nat.mul_le_mul_right _ (Nat.le_sub_of_add_le ha)

/-- **The word nearest to a fraction that fits stands for it.** -/
theorem meaning_nearest (hexponent : 1 < f.exponentBits) (negative : Bool) (hden : 0 < den)
    (hfits : f.Fits (num / den)) :
    ∃ (m : Nat) (e : Int), f.meaning (f.nearest negative num den) = .finite negative m e
      ∧ (m * 2 ^ e : ℚ) = num / den := by
  have hexponents : 2 ^ 2 ≤ 2 ^ f.exponentBits := Nat.pow_le_pow_right (by decide) hexponent
  have hpow : 0 < 2 ^ (f.fractionBits + 1) := Nat.two_pow_pos _
  unfold nearest nearestMagnitude
  by_cases hnum : num = 0
  · refine ⟨0, f.leastExponent, ?_, by simp [hnum]⟩
    rw [if_pos hnum]
    have hzero := f.meaning_signed negative hpow (.inl rfl) (lt_infinityBits hpow (by omega))
    simpa using hzero
  · have hunit : f.UnitOf (num / den) (f.unitExponent num den) := unitOf_unitExponent (by omega) hden
    obtain ⟨s, hvalue, ⟨hs, hleast, hgreatest⟩, hfull⟩ := hunit.whole (by positivity) hfits
    rw [if_neg hnum]
    generalize f.unitExponent num den = e at *
    have hpos := inUnits_pos num hden e
    -- so there is nothing to round
    have hwhole : (inUnits num den e).1 = s * (inUnits num den e).2 := by
      have hratio := inUnits_ratio num den e
      rw [hvalue, mul_div_assoc, div_self (by positivity), mul_one,
        div_eq_iff (by exact_mod_cast hpos.ne')] at hratio
      exact_mod_cast hratio
    obtain ⟨a, rfl⟩ := Int.le.dest hleast
    have hfinite : a * 2 ^ f.fractionBits + s < f.infinityBits := by
      refine lt_infinityBits hs ?_
      unfold greatestExponent at hgreatest
      rw [Nat.pow_eq] at hgreatest
      omega
    refine ⟨s, f.leastExponent + a, ?_, hvalue.symm⟩
    dsimp only
    rw [hwhole, roundToEven_mul hpos, add_sub_cancel_left, Int.toNat_natCast, Nat.pow_eq,
      Nat.min_eq_left hfinite.le]
    exact meaning_signed negative hs (by omega) hfinite

end BinaryFormat

end ScriptBridge
