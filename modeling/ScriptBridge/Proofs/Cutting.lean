import Mathlib.Data.List.Basic
import ScriptBridge.Text.Blank
import ScriptBridge.Text.Split

/-!
# What cutting and trimming leave

A line is read by cutting it at separators and trimming the pieces. Each cut finds its separator
where the writer of the line put it, as long as nothing in front of it holds one, and trimming gives
back a piece whose own ends are not blank. So all that has to be known about a piece is which
characters it does not hold and what it starts and ends with.
-/

namespace ScriptBridge.Text

/-! ## Cuts -/

section

variable {separator : Char} {before rest cs : List Char}

/-- **The first separator** is the one that nothing in front of it holds. -/
theorem splitOnce?_append (h : separator ∉ before) :
    splitOnce? separator (before ++ separator :: rest) = some (before, rest) := by
  induction before with
  | nil => simp [splitOnce?]
  | cons c before ih =>
      have hc : c ≠ separator := fun heq => h (heq ▸ List.mem_cons_self)
      rw [List.cons_append, splitOnce?, if_neg hc, ih fun hmem => h (List.mem_cons_of_mem _ hmem)]
      rfl

theorem splitOnce?_eq_none (h : separator ∉ cs) : splitOnce? separator cs = none := by
  induction cs with
  | nil => rfl
  | cons c cs ih =>
      have hc : c ≠ separator := fun heq => h (heq ▸ List.mem_cons_self)
      rw [splitOnce?, if_neg hc, ih fun hmem => h (List.mem_cons_of_mem _ hmem)]
      rfl

/-- Pieces are what the library splits a list into. -/
theorem splitAll_eq_splitOn (separator : Char) (cs : List Char) :
    splitAll separator cs = cs.splitOn separator := by
  induction cs with
  | nil => simp [splitAll, List.splitOn_eq_splitOnP]
  | cons c cs ih =>
      rw [List.splitOn_eq_splitOnP] at ih
      rw [splitAll, ih, List.splitOn_eq_splitOnP, List.splitOnP_cons_eq_if_modifyHead]
      by_cases hc : c = separator
      · rw [if_pos hc, if_pos (beq_iff_eq.mpr hc)]
      · rw [if_neg hc, if_neg fun heq => hc (beq_iff_eq.mp heq)]
        cases hpieces : List.splitOnP (· == separator) cs with
        | nil => exact absurd hpieces (List.splitOnP_ne_nil _ _)
        | cons piece pieces => rfl

/-- **Pieces that hold no separator** come back when they are joined by one and split again. -/
theorem splitAll_intercalate {pieces : List (List Char)} (hpieces : pieces ≠ [])
    (h : ∀ piece ∈ pieces, separator ∉ piece) :
    splitAll separator ([separator].intercalate pieces) = pieces := by
  rw [splitAll_eq_splitOn]
  exact List.splitOn_intercalate separator h hpieces

theorem after?_append : ∀ opening rest : List Char, after? opening (opening ++ rest) = some rest
  | [], _ => rfl
  | o :: opening, rest => by
      rw [List.cons_append, after?, if_pos rfl]
      exact after?_append opening rest

theorem before?_append (last : Char) (cs : List Char) : before? last (cs ++ [last]) = some cs := by
  simp [before?]

theorem before?_eq_none {last other : Char} (h : other ≠ last) (cs : List Char) :
    before? last (cs ++ [other]) = none := by
  simp [before?, h]

end

/-! ## Blanks -/

/-- A text of blanks. -/
def AllBlank (cs : List Char) : Prop := ∀ c ∈ cs, isBlank c = true

instance (cs : List Char) : Decidable (AllBlank cs) :=
  inferInstanceAs (Decidable (∀ c ∈ cs, isBlank c = true))

/-- **A text whose ends are not blank.** The empty text is one of these. -/
structure Tight (cs : List Char) : Prop where
  first : ∀ c ∈ cs.head?, isBlank c = false
  last : ∀ c ∈ cs.getLast?, isBlank c = false

section

variable {before core behind : List Char}

/-- A text without blanks is tight. -/
theorem tight_of_forall (h : ∀ c ∈ core, isBlank c = false) : Tight core :=
  ⟨fun c hc => h c (List.mem_of_head? hc), fun c hc => h c (List.mem_of_getLast? hc)⟩

theorem trimStart_append (hbefore : AllBlank before) (cs : List Char) :
    trimStart (before ++ cs) = trimStart cs :=
  List.dropWhile_append_of_pos hbefore

theorem trimStart_of_first (h : ∀ c ∈ core.head?, isBlank c = false) : trimStart core = core := by
  cases core with
  | nil => rfl
  | cons c core =>
      have hc := h c rfl
      simp [trimStart, hc]

theorem trimEnd_append (hbehind : AllBlank behind) (cs : List Char) :
    trimEnd (cs ++ behind) = trimEnd cs := by
  have hreverse : ∀ c ∈ behind.reverse, isBlank c = true := fun c hc =>
    hbehind c (List.mem_reverse.mp hc)
  rw [trimEnd, trimEnd, List.reverse_append, List.dropWhile_append_of_pos hreverse]

theorem trimEnd_of_last (h : ∀ c ∈ core.getLast?, isBlank c = false) : trimEnd core = core := by
  have hreverse : trimStart core.reverse = core.reverse :=
    trimStart_of_first fun c hc => h c (by rwa [List.head?_reverse] at hc)
  rw [trimEnd, show core.reverse.dropWhile isBlank = trimStart core.reverse from rfl, hreverse,
    List.reverse_reverse]

theorem trimEnd_concat {last : Char} (hlast : isBlank last = false) (cs : List Char) :
    trimEnd (cs ++ [last]) = cs ++ [last] := by
  refine trimEnd_of_last fun c hc => ?_
  rw [List.getLast?_concat] at hc
  exact Option.some.inj hc ▸ hlast

/-- Blanks in front of a text do not matter. -/
theorem trim_append_left (hbefore : AllBlank before) (cs : List Char) :
    trim (before ++ cs) = trim cs := by
  rw [trim, trimStart_append hbefore]
  rfl

/-- Blanks behind a text do not matter. -/
theorem trim_append_right (hbehind : AllBlank behind) (cs : List Char) :
    trim (cs ++ behind) = trim cs := by
  have hnone : trimStart behind = [] := by
    have hstart := trimStart_append hbehind []
    rwa [List.append_nil] at hstart
  have hstart : trimStart (cs ++ behind) =
      if (trimStart cs).isEmpty then trimStart behind else trimStart cs ++ behind :=
    List.dropWhile_append
  rw [trim, trim, hstart]
  by_cases hempty : (trimStart cs).isEmpty = true
  · rw [if_pos hempty, hnone, List.isEmpty_iff.mp hempty]
  · rw [if_neg hempty, trimEnd_append hbehind]

theorem trim_of_tight (h : Tight core) : trim core = core := by
  rw [trim, trimStart_of_first h.first, trimEnd_of_last h.last]

/-- **Trimming takes away the blanks around a text**, and nothing of the text. -/
theorem trim_padded (hbefore : AllBlank before) (hbehind : AllBlank behind) (h : Tight core) :
    trim (before ++ core ++ behind) = core := by
  rw [trim_append_right hbehind, trim_append_left hbefore, trim_of_tight h]

/-- What is trimmed away is blank. -/
theorem exists_eq_padded_trim (cs : List Char) :
    ∃ before behind, AllBlank before ∧ AllBlank behind ∧ cs = before ++ trim cs ++ behind := by
  have htaken : ∀ ds : List Char, AllBlank (ds.takeWhile isBlank) := fun ds c hc =>
    List.all_eq_true.mp List.all_takeWhile c hc
  refine ⟨cs.takeWhile isBlank, ((trimStart cs).reverse.takeWhile isBlank).reverse, htaken cs,
    fun c hc => htaken _ c (List.mem_reverse.mp hc), ?_⟩
  have hend : trim cs ++ ((trimStart cs).reverse.takeWhile isBlank).reverse = trimStart cs := by
    rw [trim, trimEnd, ← List.reverse_append, List.takeWhile_append_dropWhile, List.reverse_reverse]
  rw [List.append_assoc, hend]
  exact List.takeWhile_append_dropWhile.symm

end

/-! ## Trimming and cutting -/

section

variable {separator : Char}

/-- A character in front that is no separator goes to the first piece. -/
theorem splitAll_cons_of_ne {c : Char} (hc : c ≠ separator) (cs : List Char) :
    ∃ piece pieces, splitAll separator cs = piece :: pieces
      ∧ splitAll separator (c :: cs) = (c :: piece) :: pieces := by
  cases hpieces : splitAll separator cs with
  | nil =>
      rw [splitAll_eq_splitOn, List.splitOn_eq_splitOnP] at hpieces
      exact absurd hpieces (List.splitOnP_ne_nil _ _)
  | cons piece pieces => exact ⟨piece, pieces, rfl, by rw [splitAll, if_neg hc, hpieces]⟩

/-- A character behind that is no separator goes to the last piece. -/
theorem splitAll_concat_of_ne {c : Char} (hc : c ≠ separator) (cs : List Char) :
    ∃ pieces piece, splitAll separator cs = pieces ++ [piece]
      ∧ splitAll separator (cs ++ [c]) = pieces ++ [piece ++ [c]] := by
  induction cs with
  | nil => exact ⟨[], [], rfl, by rw [List.nil_append, splitAll, if_neg hc]; rfl⟩
  | cons d cs ih =>
      obtain ⟨pieces, piece, hpieces, hlonger⟩ := ih
      by_cases hd : d = separator
      · refine ⟨[] :: pieces, piece, ?_, ?_⟩
        · rw [splitAll, if_pos hd, hpieces]
          rfl
        · rw [List.cons_append, splitAll, if_pos hd, hlonger]
          rfl
      · rw [List.cons_append, splitAll, if_neg hd, hpieces, splitAll, if_neg hd, hlonger]
        cases pieces with
        | nil => exact ⟨[], d :: piece, rfl, rfl⟩
        | cons first pieces => exact ⟨(d :: first) :: pieces, piece, rfl, rfl⟩

theorem map_trim_splitAll_append_left (hseparator : isBlank separator = false)
    {before : List Char} (hbefore : AllBlank before) (cs : List Char) :
    (splitAll separator (before ++ cs)).map trim = (splitAll separator cs).map trim := by
  induction before with
  | nil => rfl
  | cons c before ih =>
      have hblank : isBlank c = true := hbefore c List.mem_cons_self
      have hc : c ≠ separator := fun heq => Bool.false_ne_true
        (hseparator.symm.trans (heq ▸ hblank))
      obtain ⟨piece, pieces, hpieces, hlonger⟩ := splitAll_cons_of_ne hc (before ++ cs)
      have hone : AllBlank [c] := fun d hd => List.mem_singleton.mp hd ▸ hblank
      rw [← ih fun d hd => hbefore d (List.mem_cons_of_mem _ hd), List.cons_append, hlonger, hpieces,
        List.map_cons, List.map_cons, ← trim_append_left hone piece]
      rfl

theorem map_trim_splitAll_append_right (hseparator : isBlank separator = false)
    {behind : List Char} (hbehind : AllBlank behind) (cs : List Char) :
    (splitAll separator (cs ++ behind)).map trim = (splitAll separator cs).map trim := by
  induction behind generalizing cs with
  | nil => rw [List.append_nil]
  | cons c behind ih =>
      have hblank : isBlank c = true := hbehind c List.mem_cons_self
      have hc : c ≠ separator := fun heq => Bool.false_ne_true
        (hseparator.symm.trans (heq ▸ hblank))
      obtain ⟨pieces, piece, hpieces, hlonger⟩ := splitAll_concat_of_ne hc cs
      have hone : AllBlank [c] := fun d hd => List.mem_singleton.mp hd ▸ hblank
      rw [List.append_cons, ih fun d hd => hbehind d (List.mem_cons_of_mem _ hd), hlonger, hpieces,
        List.map_append, List.map_append, List.map_singleton, List.map_singleton,
        trim_append_right hone]

/-- **Pieces that are trimmed anyway** do not change when the whole is trimmed first. -/
theorem map_trim_splitAll_trim (hseparator : isBlank separator = false) (cs : List Char) :
    (splitAll separator (trim cs)).map trim = (splitAll separator cs).map trim := by
  obtain ⟨before, behind, hbefore, hbehind, heq⟩ := exists_eq_padded_trim cs
  conv => rhs; rw [heq]
  rw [map_trim_splitAll_append_right hseparator hbehind,
    map_trim_splitAll_append_left hseparator hbefore]

end

end ScriptBridge.Text
