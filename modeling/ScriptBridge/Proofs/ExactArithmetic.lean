import Mathlib.Algebra.Order.Floor.Ring
import ScriptBridge.Proofs.Rounding

/-!
# Operations that are exact

Every operation on the way from a number to a cell has a result that the format has, so it is exact: the
value of the answer is the result. What truncating leaves and what it takes away are whole numbers of the
unit of the number, and no larger (`HasRoom.fits`). The remainder of an integer is smaller than the divisor,
and one addition of the divisor leaves it so.
-/

namespace ScriptBridge

variable {p q : ℚ} {n : Int}

/-! ## Cutting a fraction -/

theorem towardZero_eq (q : ℚ) : towardZero q = if q < 0 then ⌈q⌉ else ⌊q⌋ := by
  have hceil : q.ceil = ⌈q⌉ := Rat.ceil_eq_neg_floor_neg q
  unfold towardZero
  rw [hceil]
  rfl

@[simp] theorem towardZero_intCast (n : Int) : towardZero (n : ℚ) = n := by
  rw [towardZero_eq, Int.ceil_intCast, Int.floor_intCast, ite_self]

@[simp] theorem towardZero_neg (q : ℚ) : towardZero (-q) = -towardZero q := by
  rw [towardZero_eq, towardZero_eq, Int.ceil_neg, Int.floor_neg]
  rcases lt_trichotomy q 0 with hneg | rfl | hpos
  · rw [if_neg (neg_pos.mpr hneg).not_gt, if_pos hneg]
  · simp
  · rw [if_pos (neg_lt_zero.mpr hpos), if_neg hpos.not_gt]

/-- What is left of a fraction lies between it and zero. -/
theorem towardZero_cases (q : ℚ) :
    (0 ≤ q ∧ (0 : ℚ) ≤ towardZero q ∧ (towardZero q : ℚ) ≤ q)
      ∨ (q < 0 ∧ (towardZero q : ℚ) ≤ 0 ∧ q ≤ towardZero q) := by
  rw [towardZero_eq]
  split
  · rename_i hneg
    exact .inr ⟨hneg, by exact_mod_cast Int.ceil_le.mpr (by exact_mod_cast hneg.le), Int.le_ceil q⟩
  · rename_i hnonneg
    exact .inl ⟨not_lt.mp hnonneg, by exact_mod_cast Int.floor_nonneg.mpr (not_lt.mp hnonneg),
      Int.floor_le q⟩

theorem abs_towardZero_le (q : ℚ) : |(towardZero q : ℚ)| ≤ |q| := by
  rcases towardZero_cases q with ⟨hq, hcut, hle⟩ | ⟨hq, hcut, hle⟩
  · rwa [abs_of_nonneg hq, abs_of_nonneg hcut]
  · rwa [abs_of_neg hq, abs_of_nonpos hcut, neg_le_neg_iff]

theorem abs_sub_towardZero_le (q : ℚ) : |q - towardZero q| ≤ |q| := by
  rcases towardZero_cases q with ⟨hq, hcut, hle⟩ | ⟨hq, hcut, hle⟩
  · rw [abs_of_nonneg hq, abs_of_nonneg (by linarith)]
    linarith
  · rw [abs_of_neg hq, abs_of_nonpos (by linarith)]
    linarith

/-- A quotient of integers is cut as integers are divided. -/
theorem towardZero_div (n : Int) {d : Nat} (hd : 0 < d) : towardZero ((n : ℚ) / d) = n.tdiv d := by
  have hneg : (n : ℚ) / d < 0 ↔ n < 0 := by
    rw [div_lt_iff₀ (by exact_mod_cast hd), zero_mul]
    exact_mod_cast Iff.rfl
  rw [towardZero_eq, Rat.ceil_intCast_div_natCast, Rat.floor_intCast_div_natCast]
  split
  · rename_i h
    have hn := hneg.mp h
    rw [← Int.tdiv_eq_ediv_of_nonneg (by omega), Int.neg_tdiv, neg_neg]
  · rename_i h
    exact (Int.tdiv_eq_ediv_of_nonneg (not_lt.mp fun hn => h (hneg.mpr hn))).symm

namespace BinaryFormat

variable {f : BinaryFormat} {negative : Bool} {m : Nat} {e : Int} {a b : Meaning}

/-! ## Fractions of one unit -/

/-- A scaled number is a whole number of its unit. -/
theorem scaled_unit (negative : Bool) (m : Nat) (e : Int) :
    ∃ t : Int, scaled negative m e = t * 2 ^ e := by
  refine ⟨if negative then -m else m, ?_⟩
  unfold scaled
  split
  · push_cast
    ring
  · push_cast
    rfl

/-- **What is a whole number of the unit and no larger fits as well.** -/
theorem HasRoom.fits (h : f.HasRoom m e) {t : Int} (hvalue : q = t * 2 ^ e)
    (hle : |q| ≤ |scaled negative m e|) : f.Fits q := by
  have habs : |q| = t.natAbs * 2 ^ e := by
    rw [hvalue, abs_mul, abs_of_pos (show (0 : ℚ) < 2 ^ e by positivity), Nat.cast_natAbs, Int.cast_abs]
  refine ⟨t.natAbs, e, ⟨lt_of_le_of_lt ?_ h.bits, h.least, h.greatest⟩, habs⟩
  rw [habs, abs_scaled, mul_le_mul_iff_of_pos_right (by positivity)] at hle
  exact_mod_cast hle

/-- What is left of a whole number of units, by the unit. -/
theorem towardZero_mul_zpow (t e : Int) :
    towardZero (t * 2 ^ e) = if 0 ≤ e then t * 2 ^ e.toNat else t.tdiv (2 ^ (-e).toNat) := by
  split
  · rename_i he
    have hinteger : (t : ℚ) * 2 ^ e = ((t * 2 ^ e.toNat : Int) : ℚ) := by
      rw [zpow_of_nonneg he]
      push_cast
      rfl
    rw [hinteger, towardZero_intCast]
  · rename_i he
    have hquotient : (t : ℚ) * 2 ^ e = t / (2 ^ (-e).toNat : Nat) := by
      push_cast
      rw [← zpow_of_nonneg (by omega), zpow_neg, div_inv_eq_mul]
    rw [hquotient, towardZero_div t (Nat.two_pow_pos _)]
    push_cast
    rfl

/-- It is a whole number of units itself. -/
theorem towardZero_unit (t e : Int) : ∃ u : Int, (towardZero (t * 2 ^ e) : ℚ) = u * 2 ^ e := by
  rw [towardZero_mul_zpow]
  split
  · rename_i he
    refine ⟨t, ?_⟩
    rw [zpow_of_nonneg he]
    push_cast
    rfl
  · refine ⟨t.tdiv (2 ^ (-e).toNat) * 2 ^ (-e).toNat, ?_⟩
    push_cast
    rw [← zpow_of_nonneg (by omega), mul_assoc, ← zpow_add₀ two_ne_zero, neg_add_cancel, zpow_zero,
      mul_one]

/-- A scaled number is an integer if the unit is one, or if it has enough zeros at its end. -/
theorem scaled_whole_iff (m : Nat) (e : Int) :
    (∃ k : Nat, (m * 2 ^ e : ℚ) = k) ↔ 0 ≤ e ∨ m % Nat.pow 2 (-e).toNat = 0 := by
  rcases le_or_gt 0 e with he | he
  · refine iff_of_true ⟨m * 2 ^ e.toNat, ?_⟩ (.inl he)
    rw [zpow_of_nonneg he]
    push_cast
    rfl
  · rw [or_iff_right (by omega), ← Nat.dvd_iff_mod_eq_zero]
    have hunit : (2 : ℚ) ^ e * 2 ^ (-e).toNat = 1 := by
      rw [← zpow_of_nonneg (by omega), ← zpow_add₀ two_ne_zero, add_neg_cancel, zpow_zero]
    constructor
    · rintro ⟨k, hk⟩
      refine ⟨k, ?_⟩
      have hm : (m : ℚ) = 2 ^ (-e).toNat * k := by
        rw [← hk, mul_comm, mul_assoc, hunit, mul_one]
      exact_mod_cast hm
    · rintro ⟨k, rfl⟩
      refine ⟨k, ?_⟩
      push_cast [Nat.pow_eq]
      rw [mul_comm _ (k : ℚ), mul_assoc, mul_comm _ ((2 : ℚ) ^ e), hunit, mul_one]

theorem Meaning.value?_eq_some_iff :
    a.value? = some q ↔ ∃ negative m e, a = .finite negative m e ∧ scaled negative m e = q := by
  cases a <;> simp [value?]

theorem Meaning.value?_negated (h : a.value? = some q) : a.negated.value? = some (-q) := by
  obtain ⟨negative, m, e, rfl, rfl⟩ := value?_eq_some_iff.mp h
  cases negative <;> simp [negated, value?, scaled]

theorem Meaning.value?_magnitude (h : a.value? = some q) : a.magnitude.value? = some |q| := by
  obtain ⟨negative, m, e, rfl, rfl⟩ := value?_eq_some_iff.mp h
  rw [abs_scaled]
  rfl

end BinaryFormat

namespace Double

open BinaryFormat

variable {x y : Double}

/-! ## Numbers and their values -/

theorem hasRoom {negative : Bool} {m : Nat} {e : Int} (h : x.meaning = .finite negative m e) :
    double.HasRoom m e :=
  hasRoom_of_meaning (by decide) h

/-- The words without a value are those with all bits of the exponent set. -/
theorem value?_eq_none_iff (x : Double) : x.value? = none ↔ x.bits.toNat / 2 ^ 52 % 2 ^ 11 = 2047 := by
  have hplace : double.signPlace = 2 ^ 63 := by decide
  have hinfinity : double.infinityBits = 2047 * 2 ^ 52 := by decide
  unfold value? meaning BinaryFormat.meaning
  rw [hplace, hinfinity]
  dsimp only
  split
  · exact iff_of_true rfl (by omega)
  split
  · exact iff_of_true rfl (by omega)
  have hexponent : x.bits.toNat / 2 ^ 52 % 2 ^ 11 ≠ 2047 := by omega
  split
  · exact iff_of_false (by simp [Meaning.value?]) hexponent
  · exact iff_of_false (by simp [Meaning.value?]) hexponent

/-- Integers of 53 bits fit. -/
theorem fits_intCast (h : n.natAbs < 2 ^ 53) : double.Fits (n : ℚ) := by
  refine ⟨n.natAbs, 0, ⟨h, by decide, by decide⟩, ?_⟩
  rw [zpow_zero, mul_one, Nat.cast_natAbs, Int.cast_abs]

/-- A fraction is its magnitude with its sign. -/
theorem sign_abs (zeroSign : Bool) (q : ℚ) :
    (if (if q = 0 then zeroSign else decide (q < 0)) then -|q| else |q|) = q := by
  rcases lt_trichotomy q 0 with hneg | rfl | hpos
  · rw [if_neg hneg.ne, decide_eq_true hneg, if_pos rfl, abs_of_neg hneg, neg_neg]
  · cases zeroSign <;> simp
  · rw [if_neg hpos.ne', decide_eq_false hpos.not_gt, if_neg Bool.false_ne_true, abs_of_pos hpos]

/-- **The number nearest to a fraction that fits has it as its value.** -/
theorem value?_nearestTo (h : double.Fits q) (zeroSign : Bool) :
    (nearestTo zeroSign q).value? = some q := by
  have habs : (q.num.natAbs : ℚ) / q.den = |q| := by
    rw [Nat.cast_natAbs, Int.cast_abs, ← abs_of_pos (show (0 : ℚ) < q.den by exact_mod_cast q.den_pos),
      ← abs_div, Rat.num_div_den]
  have hfits : double.Fits (q.num.natAbs / q.den) := by
    rw [habs]
    unfold Fits
    rwa [abs_abs]
  have hsign := sign_abs zeroSign q
  unfold nearestTo
  generalize (if q = 0 then zeroSign else decide (q < 0)) = negative at hsign ⊢
  obtain ⟨m, e, hmeaning, hvalue⟩ := meaning_nearest (by decide) negative q.den_pos hfits
  have hword : (UInt64.ofNat (double.nearest negative q.num.natAbs q.den)).toNat =
      double.nearest negative q.num.natAbs q.den :=
    UInt64.toNat_ofNat_of_lt' (double.nearest_lt negative _ _)
  unfold nearest value? meaning
  rw [hword, hmeaning, Meaning.value?, scaled, hvalue, habs, hsign]

theorem ofInt_eq (n : Int) : ofInt n = nearestTo false n := by
  unfold ofInt nearestTo
  rw [Rat.num_intCast, Rat.den_intCast]
  congr 1
  split
  · rename_i hzero
    exact decide_eq_false (by rw [Int.cast_eq_zero.mp hzero]; exact lt_irrefl 0)
  · exact decide_eq_decide.mpr Int.cast_lt_zero.symm

/-- **An integer of 53 bits is the value of the number nearest to it.** -/
theorem value?_ofInt (h : n.natAbs < 2 ^ 53) : (ofInt n).value? = some (n : ℚ) := by
  rw [ofInt_eq]
  exact value?_nearestTo (fits_intCast h) false

theorem meaning_zero : zero.meaning = .finite false 0 double.leastExponent := by decide

/-- Both zeros have the value zero. -/
theorem value?_of_zero (h : x.bits = 0 ∨ x.bits = 0x8000000000000000) : x.value? = some 0 := by
  have hmeaning : ∃ negative, x.meaning = .finite negative 0 double.leastExponent := by
    unfold meaning
    rcases h with h | h
    · exact ⟨false, by rw [h]; decide⟩
    · exact ⟨true, by rw [h]; decide⟩
  obtain ⟨negative, hmeaning⟩ := hmeaning
  unfold value?
  rw [hmeaning]
  simp [Meaning.value?, scaled]

theorem bits_ne_zero (h : x.meaning ≠ zero.meaning) : x.bits ≠ zero.bits :=
  fun hbits => h (congrArg (fun bits => meaning ⟨bits⟩) hbits)

/-- **A number equals zero if its value does**, whatever its sign. -/
theorem sameNumber_zero (h : x.value? = some q) : x.sameNumber zero = true ↔ q = 0 := by
  obtain ⟨negative, m, e, hmeaning, rfl⟩ := Meaning.value?_eq_some_iff.mp h
  have hvalue : scaled negative m e = 0 ↔ m = 0 := by
    have hunit : (2 : ℚ) ^ e ≠ 0 := by positivity
    rw [← abs_eq_zero, abs_scaled, mul_eq_zero, or_iff_left hunit, Nat.cast_eq_zero]
  unfold sameNumber
  rw [hmeaning, meaning_zero, hvalue]
  cases m with
  | zero => simp
  | succ m =>
      have hne : x.bits ≠ zero.bits := bits_ne_zero (by rw [hmeaning, meaning_zero]; simp)
      simpa using hne

theorem sameNumber_zero_of_value? (h : x.value? = none) : x.sameNumber zero = false := by
  unfold sameNumber
  cases hmeaning : x.meaning with
  | nan => rfl
  | infinite negative =>
      have hne : x.bits ≠ zero.bits := bits_ne_zero (by rw [hmeaning, meaning_zero]; simp)
      rw [meaning_zero]
      exact beq_eq_false_iff_ne.mpr hne
  | finite negative m e =>
      unfold value? at h
      rw [hmeaning] at h
      exact absurd h (by simp [Meaning.value?])

/-! ## The whole part -/

/-- The whole part that is computed is what is left of the number. -/
theorem towardZero_scaled (negative : Bool) (m : Nat) (e : Int) :
    towardZero (scaled negative m e) = if negative then -(wholePart m e : Int) else wholePart m e := by
  have hwhole : towardZero (m * 2 ^ e) = (wholePart m e : Int) := by
    rw [← Int.cast_natCast m, towardZero_mul_zpow]
    unfold wholePart
    split
    · push_cast [Nat.pow_eq]
      rfl
    · rw [Int.ofNat_tdiv]
      push_cast [Nat.pow_eq]
      rfl
  unfold scaled
  split
  · rw [towardZero_neg, hwhole]
  · exact hwhole

theorem truncated?_eq (x : Double) : x.truncated? = x.value?.map towardZero := by
  unfold truncated? value?
  cases x.meaning with
  | finite negative m e => exact congrArg some (towardZero_scaled negative m e).symm
  | _ => rfl

/-- **The integer that a number is** is its value. -/
theorem integer?_eq_some_iff : x.integer? = some n ↔ x.value? = some (n : ℚ) := by
  unfold integer? value?
  cases x.meaning with
  | finite negative m e =>
      have hvalue : (∃ k : Nat, (m * 2 ^ e : ℚ) = k) →
          scaled negative m e = towardZero (scaled negative m e) := by
        rintro ⟨k, hk⟩
        unfold scaled
        rw [hk]
        split
        · rw [towardZero_neg, ← Int.cast_natCast k, towardZero_intCast, Int.cast_neg]
        · rw [← Int.cast_natCast k, towardZero_intCast]
      dsimp only [Meaning.value?]
      rw [← towardZero_scaled, Option.some_inj]
      by_cases hwhole : 0 ≤ e ∨ m % Nat.pow 2 (-e).toNat = 0
      · rw [if_pos hwhole, hvalue ((scaled_whole_iff m e).mpr hwhole), towardZero_intCast, Option.some_inj,
          Int.cast_inj]
      · rw [if_neg hwhole]
        refine iff_of_false (by simp) fun h => hwhole ((scaled_whole_iff m e).mp ⟨n.natAbs, ?_⟩)
        rw [← abs_scaled negative, h, Nat.cast_natAbs, Int.cast_abs]
  | _ => simp [Meaning.value?]

/-! ## Operations -/

/-- **Truncating is exact.** -/
theorem value?_truncate (h : x.value? = some q) : x.truncate.value? = some (towardZero q : ℚ) := by
  obtain ⟨negative, m, e, hmeaning, rfl⟩ := Meaning.value?_eq_some_iff.mp h
  unfold truncate
  rw [hmeaning]
  obtain ⟨t, hunit⟩ := scaled_unit negative m e
  obtain ⟨u, hcut⟩ := towardZero_unit t e
  rw [← hunit] at hcut
  exact value?_nearestTo ((hasRoom hmeaning).fits hcut (abs_towardZero_le _)) negative

/-- **A sum that fits is exact.** -/
theorem value?_sum {a b : Meaning} (ha : a.value? = some p) (hb : b.value? = some q)
    (hfits : double.Fits (p + q)) : (sum a b).value? = some (p + q) := by
  obtain ⟨_, _, _, rfl, rfl⟩ := Meaning.value?_eq_some_iff.mp ha
  obtain ⟨_, _, _, rfl, rfl⟩ := Meaning.value?_eq_some_iff.mp hb
  exact value?_nearestTo hfits _

/-- **What truncating takes away is exact.** -/
theorem value?_fraction (h : x.value? = some q) : x.fraction.value? = some (q - towardZero q) := by
  have htruncate := value?_truncate h
  obtain ⟨negative, m, e, hmeaning, rfl⟩ := Meaning.value?_eq_some_iff.mp h
  obtain ⟨t, hunit⟩ := scaled_unit negative m e
  obtain ⟨u, hcut⟩ := towardZero_unit t e
  have hfits : double.Fits (scaled negative m e - towardZero (scaled negative m e)) := by
    refine (hasRoom hmeaning).fits (t := t - u) ?_ (abs_sub_towardZero_le _)
    rw [hunit, hcut]
    push_cast
    ring
  rw [sub_eq_add_neg] at hfits ⊢
  exact value?_sum h (Meaning.value?_negated htruncate) hfits

theorem value?_fraction_eq_none (h : x.value? = none) : x.fraction.value? = none := by
  have hnan : (quietNaN false).value? = none := by decide
  unfold value? at h
  unfold fraction truncate
  cases hmeaning : x.meaning with
  | nan => exact hnan
  | infinite negative =>
      -- an infinity is its own truncation, and takes itself away
      dsimp only
      rw [hmeaning]
      cases negative <;> exact hnan
  | finite negative m e =>
      rw [hmeaning] at h
      exact absurd h (by simp [Meaning.value?])

/-- **A remainder that fits is exact.** -/
theorem value?_remainder (hx : x.value? = some p) (hy : y.value? = some q) (hq : q ≠ 0)
    (hfits : double.Fits (p - q * towardZero (p / q))) :
    (x.remainder y).value? = some (p - q * towardZero (p / q)) := by
  obtain ⟨_, _, _, hmeaningX, rfl⟩ := Meaning.value?_eq_some_iff.mp hx
  obtain ⟨_, m, _, hmeaningY, rfl⟩ := Meaning.value?_eq_some_iff.mp hy
  unfold remainder
  rw [hmeaningX, hmeaningY]
  cases m with
  | zero => exact absurd (by simp [scaled]) hq
  | succ m => exact value?_nearestTo hfits _

theorem order?_eq (hx : x.value? = some p) (hy : y.value? = some q) :
    x.order? y = some (compareOfLessAndEq p q) := by
  obtain ⟨_, _, _, hmeaningX, rfl⟩ := Meaning.value?_eq_some_iff.mp hx
  obtain ⟨_, _, _, hmeaningY, rfl⟩ := Meaning.value?_eq_some_iff.mp hy
  unfold order?
  rw [hmeaningX, hmeaningY]
  rfl

theorem less_iff (hx : x.value? = some p) (hy : y.value? = some q) : x.less y = true ↔ p < q := by
  unfold less
  rw [order?_eq hx hy, beq_iff_eq, Option.some_inj, compareOfLessAndEq_eq_lt]

theorem atMost_iff (hx : x.value? = some p) (hy : y.value? = some q) : x.atMost y = true ↔ p ≤ q := by
  unfold atMost
  rw [order?_eq hx hy, Option.any_some, isLE_compareOfLessAndEq le_antisymm not_le le_total]

/-- **A finite number is held between two integers by its whole part.** -/
theorem held_eq (h : x.value? = some q) (low high : Int) :
    x.held low high = max low (min high (towardZero q)) := by
  have htruncated : x.truncated? = some (towardZero q) := by rw [truncated?_eq, h, Option.map_some]
  obtain ⟨_, _, _, hmeaning, _⟩ := Meaning.value?_eq_some_iff.mp h
  unfold held
  rw [hmeaning, htruncated]
  rfl

/-- **The remainder of an integer** by one that is positive and not too large is the remainder. -/
theorem value?_euclideanRemainder {d : Nat} (hx : x.value? = some (n : ℚ)) (hy : y.value? = some (d : ℚ))
    (hd : 0 < d) (hsmall : d < 2 ^ 53) :
    (x.euclideanRemainder y).value? = some ((n % d : Int) : ℚ) := by
  have hdivisor : (d : ℚ) ≠ 0 := by exact_mod_cast hd.ne'
  have hnonneg : 0 ≤ n % d := Int.emod_nonneg n (by omega)
  have hbelow : n % d < d := Int.emod_lt_of_pos n (by omega)
  -- the remainder with a sign is right or one divisor too low
  have hturn : n.tmod d = n % d ∨ n.tmod d = n % d - d := by
    rw [Int.tmod_eq_emod]
    split <;> simp
  have hvalue : (n : ℚ) - d * towardZero (n / d) = (n.tmod d : Int) := by
    rw [towardZero_div n hd, Int.tmod_def]
    push_cast
    rfl
  have hremainder : (x.remainder y).value? = some ((n.tmod d : Int) : ℚ) := by
    have hfits : double.Fits ((n.tmod d : Int) : ℚ) := fits_intCast (by omega)
    rw [← hvalue] at hfits ⊢
    exact value?_remainder hx hy hdivisor hfits
  have hless := less_iff hremainder (value?_of_zero (.inl rfl))
  rw [Int.cast_lt_zero] at hless
  unfold euclideanRemainder
  dsimp only
  split
  · rename_i hneg
    have hsum : ((n.tmod d : Int) : ℚ) + |(d : ℚ)| = ((n % d : Int) : ℚ) := by
      have hlt := hless.mp hneg
      rw [Nat.abs_cast, hturn.resolve_left (by omega)]
      push_cast
      ring
    rw [← hsum]
    refine value?_sum hremainder (Meaning.value?_magnitude hy) ?_
    rw [hsum]
    exact fits_intCast (by omega)
  · rename_i hpos
    have hsame : n.tmod d = n % d := hturn.resolve_right fun h => hpos (hless.mpr (by omega))
    rw [hremainder, hsame]

end Double

end ScriptBridge
