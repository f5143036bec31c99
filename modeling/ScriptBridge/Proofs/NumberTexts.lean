import Mathlib.Data.List.TakeWhile
import ScriptBridge.Number.Reading

/-!
# Which texts are numbers

A text is read as a number from left to right: a sign is taken off, then all digits up to the first other
character, and so on. Whether it is one is said here without a reader, by what the text consists of:
`IntegerText` for the integers of 64 bits and `NumberText` for all numbers.

The reader has to make no choice, because no part can begin with what ends the part in front of it: digits
end at the first character that is none (`digits_append`), and what follows a sign does not begin with
one.
-/

namespace ScriptBridge.Reading

/-- A text of decimal digits. -/
def AllDigits (cs : List Char) : Prop := ∀ c ∈ cs, c.isDigit = true

/-- **Decimal digits**, one at least. -/
structure IsNumeral (cs : List Char) : Prop where
  ne_nil : cs ≠ []
  digits : AllDigits cs

/-- The value of a digit. -/
def digitValue (c : Char) : Nat := c.toNat - '0'.toNat

/-- The number that digits denote. -/
def numeral (cs : List Char) : Nat := ofDigits (cs.map digitValue)

/-- **A text with a sign**, which may be missing, and what follows it; `true` is minus. -/
inductive HasSign : List Char → Bool → List Char → Prop where
  | minus (cs : List Char) : HasSign ('-' :: cs) true cs
  | plus (cs : List Char) : HasSign ('+' :: cs) false cs
  | missing (cs : List Char) : HasSign cs false cs

/-- An integer of 64 bits. -/
def IsWide (n : Int) : Prop := -0x8000000000000000 ≤ n ∧ n < 0x8000000000000000

/-- **A text that is an integer of 64 bits**: a sign, which may be missing, and digits. -/
def IntegerText (cs : List Char) (n : Int) : Prop :=
  ∃ negative digits, HasSign cs negative digits ∧ IsNumeral digits
    ∧ n = (if negative then -(numeral digits : Int) else numeral digits) ∧ IsWide n

/-- **An exponent at the end of a number**, which may be missing: its mark, a sign and digits. -/
inductive IsExponent : List Char → Prop where
  | missing : IsExponent []
  | marked {mark : Char} {cs digits : List Char} {negative : Bool} : mark = 'e' ∨ mark = 'E' →
      HasSign cs negative digits → IsNumeral digits → IsExponent (mark :: cs)

/-- **Digits with a point and an exponent**, either of which may be missing. There is a digit on at least
one side of the point. -/
inductive IsDecimal : List Char → Prop where
  | whole {digits exponent : List Char} : IsNumeral digits → IsExponent exponent →
      IsDecimal (digits ++ exponent)
  | point {before behind exponent : List Char} : AllDigits before → AllDigits behind →
      before ++ behind ≠ [] → IsExponent exponent →
      IsDecimal (before ++ '.' :: (behind ++ exponent))

/-- The names of numbers that are not finite, in any case. -/
def IsName (cs : List Char) : Prop :=
  cs.map lower ∈ ["inf".toList, "infinity".toList, "nan".toList]

/-- **A text that is a number**: a sign, which may be missing, and a decimal or a name. -/
def NumberText (cs : List Char) : Prop :=
  ∃ negative rest, HasSign cs negative rest ∧ (IsDecimal rest ∨ IsName rest)

/-! ## Digits -/

/-- What follows digits does not begin with one. -/
def NoDigitFirst (cs : List Char) : Prop := ∀ c ∈ cs.head?, c.isDigit = false

theorem digit?_eq (c : Char) : digit? c = if c.isDigit then some (digitValue c) else none := by
  have hdigit : ('0' ≤ c ∧ c ≤ '9') ↔ c.isDigit = true := by
    unfold Char.isDigit
    rw [Bool.and_eq_true, decide_eq_true_iff, decide_eq_true_iff]
    exact Iff.rfl
  unfold digit?
  simp only [hdigit]
  rfl

/-- Digits are read up to the first character that is none. -/
theorem digits_append {cs rest : List Char} (hcs : AllDigits cs) (hrest : NoDigitFirst rest) :
    digits (cs ++ rest) = (cs.map digitValue, rest) := by
  induction cs with
  | nil =>
      cases rest with
      | nil => rfl
      | cons c rest =>
          have hc : c.isDigit = false := hrest c rfl
          rw [List.nil_append, digits, digit?_eq, hc]
          rfl
  | cons c cs ih =>
      have hc : c.isDigit = true := hcs c List.mem_cons_self
      rw [List.cons_append, digits, digit?_eq, hc, ih fun d hd => hcs d (List.mem_cons_of_mem _ hd)]
      rfl

/-- Every text begins with digits, maybe none, and goes on with something else. -/
theorem exists_digits (cs : List Char) :
    ∃ front rest, cs = front ++ rest ∧ AllDigits front ∧ NoDigitFirst rest := by
  refine ⟨cs.takeWhile Char.isDigit, cs.dropWhile Char.isDigit, List.takeWhile_append_dropWhile.symm,
    fun c hc => List.mem_takeWhile_imp hc, ?_⟩
  intro c hc
  have hnot := List.head?_dropWhile_not Char.isDigit cs
  rw [Option.mem_def.mp hc] at hnot
  simpa using hnot

theorem IsNumeral.map_ne_nil {cs : List Char} (h : IsNumeral cs) : cs.map digitValue ≠ [] :=
  fun hnil => h.ne_nil (List.map_eq_nil_iff.mp hnil)

/-- **Digits and nothing else** are read as the number they denote. -/
theorem onlyDigits?_eq_some_iff {cs : List Char} {n : Nat} :
    onlyDigits? cs = some n ↔ IsNumeral cs ∧ n = numeral cs := by
  constructor
  · intro h
    obtain ⟨front, rest, rfl, hfront, hrest⟩ := exists_digits cs
    unfold onlyDigits? at h
    rw [digits_append hfront hrest] at h
    split at h
    · rename_i d ds hread
      obtain ⟨hvalues, hnone⟩ := Prod.mk.inj hread
      subst hnone
      rw [List.append_nil]
      refine ⟨⟨?_, hfront⟩, ?_⟩
      · rintro rfl
        cases hvalues
      · rw [numeral, hvalues]
        exact (Option.some.inj h).symm
    · cases h
  · rintro ⟨hcs, rfl⟩
    have hend : NoDigitFirst [] := fun c hc => absurd hc (by simp)
    have hread := digits_append hcs.digits hend
    rw [List.append_nil] at hread
    unfold onlyDigits?
    rw [hread, numeral]
    obtain ⟨d, ds, hvalues⟩ := List.exists_cons_of_ne_nil hcs.map_ne_nil
    rw [hvalues]

/-- Digits can be taken off a text until nothing is left exactly if it is a numeral. -/
theorem exists_digits_eq_iff {cs : List Char} :
    (∃ d ds, digits cs = (d :: ds, [])) ↔ IsNumeral cs := by
  have hread : (onlyDigits? cs).isSome = true ↔ ∃ d ds, digits cs = (d :: ds, []) := by
    unfold onlyDigits?
    split
    · rename_i d ds hdigits
      exact iff_of_true rfl ⟨d, ds, hdigits⟩
    · rename_i hother
      exact iff_of_false Bool.false_ne_true fun ⟨d, ds, hdigits⟩ => hother d ds hdigits
  rw [← hread, Option.isSome_iff_exists]
  simp only [onlyDigits?_eq_some_iff, exists_and_left, exists_eq, and_true]

/-! ## Signs -/

/-- What follows a sign does not begin with one. -/
def NoSignFirst (cs : List Char) : Prop := ∀ c ∈ cs.head?, c ≠ '-' ∧ c ≠ '+'

theorem hasSign_sign (cs : List Char) : HasSign cs (sign cs).1 (sign cs).2 := by
  unfold sign
  split
  · exact .minus _
  · exact .plus _
  · exact .missing _

theorem HasSign.sign_eq {cs rest : List Char} {negative : Bool} (h : HasSign cs negative rest)
    (hrest : NoSignFirst rest) : sign cs = (negative, rest) := by
  cases h with
  | minus => rfl
  | plus => rfl
  | missing =>
      unfold sign
      split
      · exact absurd rfl (hrest '-' rfl).1
      · exact absurd rfl (hrest '+' rfl).2
      · rfl

theorem AllDigits.ne_of_mem {cs : List Char} (h : AllDigits cs) {c other : Char} (hc : c ∈ cs)
    (hother : other.isDigit = false) : c ≠ other := by
  rintro rfl
  exact Bool.false_ne_true (hother.symm.trans (h c hc))

theorem AllDigits.noSignFirst {cs : List Char} (h : AllDigits cs) : NoSignFirst cs := fun _ hc =>
  ⟨h.ne_of_mem (List.mem_of_head? hc) rfl, h.ne_of_mem (List.mem_of_head? hc) rfl⟩

/-! ## Integers -/

theorem integer?_eq (cs : List Char) :
    integer? cs =
      (onlyDigits? (sign cs).2).map fun n : Nat => if (sign cs).1 then -(n : Int) else n := by
  unfold integer?
  dsimp only
  cases onlyDigits? (sign cs).2 with
  | none => rfl
  | some n => rfl

/-- **The integers of 64 bits** are read, with the number they denote, and nothing else is. -/
theorem int64?_eq_some_iff {cs : List Char} {n : Int} : int64? cs = some n ↔ IntegerText cs n := by
  have hinteger : integer? cs = some n ↔ ∃ negative digits, HasSign cs negative digits
      ∧ IsNumeral digits ∧ n = (if negative then -(numeral digits : Int) else numeral digits) := by
    rw [integer?_eq, Option.map_eq_some_iff]
    constructor
    · rintro ⟨m, hm, rfl⟩
      obtain ⟨hdigits, rfl⟩ := onlyDigits?_eq_some_iff.mp hm
      exact ⟨_, _, hasSign_sign cs, hdigits, rfl⟩
    · rintro ⟨negative, digits, hsign, hdigits, rfl⟩
      rw [hsign.sign_eq hdigits.digits.noSignFirst]
      exact ⟨numeral digits, onlyDigits?_eq_some_iff.mpr ⟨hdigits, rfl⟩, rfl⟩
  unfold int64?
  constructor
  · intro h
    split at h
    · rename_i m hm
      split at h
      · rename_i hrange
        obtain rfl := Option.some.inj h
        obtain ⟨negative, digits, hsign, hdigits, hvalue⟩ := hinteger.mp hm
        exact ⟨negative, digits, hsign, hdigits, hvalue, hrange⟩
      · cases h
    · cases h
  · rintro ⟨negative, digits, hsign, hdigits, hvalue, hrange⟩
    rw [hinteger.mpr ⟨negative, digits, hsign, hdigits, hvalue⟩]
    exact if_pos hrange

/-! ## Numbers -/

theorem exponent?_isSome_iff {cs : List Char} : (exponent? cs).isSome = true ↔ IsExponent cs := by
  cases cs with
  | nil => exact iff_of_true rfl .missing
  | cons mark cs =>
      by_cases hmark : mark = 'e' ∨ mark = 'E'
      · rw [exponent?, if_pos hmark]
        constructor
        · intro h
          dsimp only at h
          split at h
          · rename_i d ds hread
            exact .marked hmark (hasSign_sign cs) (exists_digits_eq_iff.mp ⟨d, ds, hread⟩)
          · cases h
        · intro h
          cases h with
          | marked _ hsign hdigits =>
              obtain ⟨d, ds, hread⟩ := exists_digits_eq_iff.mpr hdigits
              rw [hsign.sign_eq hdigits.digits.noSignFirst]
              simp only [hread, Option.isSome_some]
      · rw [exponent?, if_neg hmark]
        refine iff_of_false Bool.false_ne_true fun h => ?_
        cases h with
        | marked hother => exact hmark hother

theorem nonFinite?_isSome_iff {negative : Bool} {cs : List Char} :
    (nonFinite? negative cs).isSome = true ↔ IsName cs := by
  unfold nonFinite? IsName
  simp only [List.mem_cons, List.not_mem_nil, or_false]
  split
  · rename_i hinfinite
    exact iff_of_true rfl (hinfinite.elim Or.inl (Or.inr ∘ Or.inl))
  · rename_i hfinite
    split
    · rename_i hnan
      exact iff_of_true rfl (Or.inr (Or.inr hnan))
    · rename_i hnumber
      refine iff_of_false Bool.false_ne_true ?_
      rintro (hname | hname | hname)
      · exact hfinite (Or.inl hname)
      · exact hfinite (Or.inr hname)
      · exact hnumber hname

/-- A name begins with a letter. -/
theorem IsName.first {c : Char} {cs : List Char} (h : IsName (c :: cs)) :
    c.isDigit = false ∧ c ≠ '.' ∧ c ≠ '-' ∧ c ≠ '+' := by
  have hletter : lower c = 'i' ∨ lower c = 'n' := by
    unfold IsName at h
    simp only [List.map_cons, List.mem_cons, List.not_mem_nil, or_false] at h
    rcases h with h | h | h
    · exact Or.inl (List.cons.inj h).1
    · exact Or.inl (List.cons.inj h).1
    · exact Or.inr (List.cons.inj h).1
  -- what is not a capital is its own lower case
  have hkept (hcapital : ¬ ('A' ≤ c ∧ c ≤ 'Z')) : c = 'i' ∨ c = 'n' := by
    unfold lower at hletter
    rwa [if_neg hcapital] at hletter
  refine ⟨?_, ?_, ?_, ?_⟩
  · rw [← Bool.not_eq_true]
    intro hdigit
    have hsmall : c ≤ '9' := by
      unfold Char.isDigit at hdigit
      exact of_decide_eq_true (Bool.and_eq_true _ _ ▸ hdigit).2
    rcases hkept fun hcapital => absurd (Char.le_trans hcapital.1 hsmall) (by decide) with rfl | rfl
    · cases hdigit
    · cases hdigit
  · rintro rfl
    exact absurd (hkept (by decide)) (by decide)
  · rintro rfl
    exact absurd (hkept (by decide)) (by decide)
  · rintro rfl
    exact absurd (hkept (by decide)) (by decide)

/-- An exponent does not begin with a digit or a point. -/
theorem IsExponent.first {cs : List Char} (h : IsExponent cs) :
    NoDigitFirst cs ∧ ∀ c ∈ cs.head?, c ≠ '.' := by
  cases h with
  | missing => exact ⟨fun c hc => absurd hc (by simp), fun c hc => absurd hc (by simp)⟩
  | marked hmark hsign hdigits =>
      constructor
      · intro c hc
        obtain rfl := Option.some.inj hc
        rcases hmark with rfl | rfl
        · rfl
        · rfl
      · intro c hc
        obtain rfl := Option.some.inj hc
        rcases hmark with rfl | rfl
        · decide
        · decide

theorem mantissa_point {before behind tail : List Char} (hbefore : AllDigits before)
    (hbehind : AllDigits behind) (htail : NoDigitFirst tail) :
    mantissa (before ++ '.' :: (behind ++ tail)) =
      ((before ++ behind).map digitValue, behind.length, tail) := by
  have hpoint : NoDigitFirst ('.' :: (behind ++ tail)) := fun c hc => Option.some.inj hc ▸ rfl
  unfold mantissa
  rw [digits_append hbefore hpoint]
  show (_ ++ (digits (behind ++ tail)).1, _, _) = _
  rw [digits_append hbehind htail, List.map_append, List.length_map]

theorem mantissa_whole {before tail : List Char} (hbefore : AllDigits before)
    (htail : NoDigitFirst tail) (hpoint : ∀ c ∈ tail.head?, c ≠ '.') :
    mantissa (before ++ tail) = (before.map digitValue, 0, tail) := by
  unfold mantissa
  rw [digits_append hbefore htail]
  split
  · rename_i hread
    obtain ⟨_, rfl⟩ := Prod.mk.inj hread
    exact absurd rfl (hpoint '.' rfl)
  · rename_i hread
    obtain ⟨rfl, rfl⟩ := Prod.mk.inj hread
    rfl

/-- What a number begins with, behind its sign, is no sign. -/
theorem noSignFirst_of_number {cs : List Char} (h : IsDecimal cs ∨ IsName cs) : NoSignFirst cs := by
  have hdigits {front rest : List Char} (hfront : AllDigits front) (hne : front ≠ []) :
      NoSignFirst (front ++ rest) := by
    obtain ⟨c, front, rfl⟩ := List.exists_cons_of_ne_nil hne
    exact hfront.noSignFirst
  rcases h with hdecimal | hname
  · cases hdecimal with
    | whole hnumeral _ => exact hdigits hnumeral.digits hnumeral.ne_nil
    | @point before _ _ hbefore _ _ _ =>
        cases before with
        | nil =>
            intro c hc
            obtain rfl := Option.some.inj hc
            decide
        | cons c before => exact hdigits hbefore (List.cons_ne_nil c before)
  · cases cs with
    | nil => exact fun c hc => absurd hc (by simp)
    | cons first cs =>
        intro c hc
        obtain rfl := Option.some.inj hc
        exact ⟨hname.first.2.2.1, hname.first.2.2.2⟩

/-- A decimal has a digit, and ends with what is read as its exponent. -/
theorem IsDecimal.mantissa_eq {cs : List Char} (h : IsDecimal cs) :
    ∃ d ds places tail, mantissa cs = (d :: ds, places, tail) ∧ IsExponent tail := by
  cases h with
  | @whole digits exponent hdigits hexponent =>
      obtain ⟨d, ds, hvalues⟩ := List.exists_cons_of_ne_nil hdigits.map_ne_nil
      refine ⟨d, ds, 0, exponent, ?_, hexponent⟩
      rw [mantissa_whole hdigits.digits hexponent.first.1 hexponent.first.2, hvalues]
  | @point before behind exponent hbefore hbehind hne hexponent =>
      obtain ⟨d, ds, hvalues⟩ :=
        List.exists_cons_of_ne_nil (mt List.map_eq_nil_iff.mp hne : _ ≠ ([] : List Nat))
      refine ⟨d, ds, behind.length, exponent, ?_, hexponent⟩
      rw [mantissa_point hbefore hbehind hexponent.first.1, hvalues]

/-- A name has no digits in front. -/
theorem IsName.mantissa_eq {cs : List Char} (h : IsName cs) : mantissa cs = ([], 0, cs) := by
  have hfirst : NoDigitFirst cs ∧ ∀ c ∈ cs.head?, c ≠ '.' := by
    cases cs with
    | nil => exact ⟨fun c hc => absurd hc (by simp), fun c hc => absurd hc (by simp)⟩
    | cons first cs =>
        constructor
        · exact fun c hc => Option.some.inj hc ▸ h.first.1
        · exact fun c hc => Option.some.inj hc ▸ h.first.2.1
  have hnone : AllDigits [] := fun c hc => absurd hc List.not_mem_nil
  exact mantissa_whole hnone hfirst.1 hfirst.2

/-- **What is read in front of an exponent**: digits with a point among them, or without one. -/
theorem mantissa_cases (cs : List Char) :
    (∃ before behind tail, AllDigits before ∧ AllDigits behind
        ∧ cs = before ++ '.' :: (behind ++ tail)
        ∧ mantissa cs = ((before ++ behind).map digitValue, behind.length, tail))
      ∨ ∃ before tail, AllDigits before ∧ cs = before ++ tail
        ∧ mantissa cs = (before.map digitValue, 0, tail) := by
  obtain ⟨before, rest, rfl, hbefore, hrest⟩ := exists_digits cs
  by_cases hpoint : rest.head? = some '.'
  · obtain ⟨rest, rfl⟩ := List.head?_eq_some_iff.mp hpoint
    obtain ⟨behind, tail, rfl, hbehind, htail⟩ := exists_digits rest
    exact Or.inl ⟨before, behind, tail, hbefore, hbehind, rfl, mantissa_point hbefore hbehind htail⟩
  · refine Or.inr ⟨before, rest, hbefore, rfl, mantissa_whole hbefore hrest ?_⟩
    rintro c hc rfl
    exact hpoint hc

/-- A number without its sign is a decimal or a name. -/
theorem unsigned_isSome_iff (negative : Bool) (cs : List Char) :
    (match mantissa cs with
      | ([], _, _) => nonFinite? negative cs
      | (ds, places, tail) =>
        (exponent? tail).map fun e => decimal negative ds (e - places)).isSome = true ↔
      IsDecimal cs ∨ IsName cs := by
  constructor
  · intro h
    split at h
    · exact Or.inr (nonFinite?_isSome_iff.mp h)
    · rename_i ds places tail hdigits hread
      rw [Option.isSome_map, exponent?_isSome_iff] at h
      refine Or.inl ?_
      rcases mantissa_cases cs with
        ⟨before, behind, tail', hbefore, hbehind, rfl, hcut⟩ | ⟨before, tail', hbefore, rfl, hcut⟩
      · rw [hcut, Prod.mk.injEq, Prod.mk.injEq] at hread
        obtain ⟨rfl, -, rfl⟩ := hread
        exact .point hbefore hbehind (fun hnil => hdigits (List.map_eq_nil_iff.mpr hnil)) h
      · rw [hcut, Prod.mk.injEq, Prod.mk.injEq] at hread
        obtain ⟨rfl, -, rfl⟩ := hread
        exact .whole ⟨fun hnil => hdigits (List.map_eq_nil_iff.mpr hnil), hbefore⟩ h
  · rintro (hdecimal | hname)
    · obtain ⟨d, ds, places, tail, hread, hexponent⟩ := hdecimal.mantissa_eq
      rw [hread]
      exact (Option.isSome_map ..).trans (exponent?_isSome_iff.mpr hexponent)
    · rw [hname.mantissa_eq]
      exact nonFinite?_isSome_iff.mpr hname

/-- **Numbers are read**, and nothing else is. -/
theorem double?_isSome_iff {cs : List Char} : (double? cs).isSome = true ↔ NumberText cs := by
  rw [show (double? cs).isSome = true ↔ _ from unsigned_isSome_iff (sign cs).1 (sign cs).2]
  constructor
  · intro h
    exact ⟨_, _, hasSign_sign cs, h⟩
  · rintro ⟨negative, rest, hsign, h⟩
    rw [hsign.sign_eq (noSignFirst_of_number h)]
    exact h

end ScriptBridge.Reading
