import Mathlib.Data.List.Basic
import ScriptBridge.Definition.Line
import ScriptBridge.Proofs.Cutting

/-!
# Content lines and their numbers

A definition file is read by its content lines, and the number of one is the only thing in an error
that leads back to the file. Where a line stands is said here without a reader: `HasLine` looks at
nothing but the line feeds around it, and its number is one more than the number of line feeds in
front of it. So every line counts, also the blank ones and the comments that nobody reads.

A carriage return in front of a line feed is blank, and the lines that are read are trimmed. It makes
no difference therefore that it is taken off before, and a text that ends with a line feed has an
empty last line that nobody sees.
-/

namespace ScriptBridge

namespace Text

/-! ## Lines by their line feeds -/

/-- **A line of a text**, with its number: it holds no line feed, and on either side of it there is one
or the text is over. -/
def HasLine (text : List Char) (number : Nat) (line : List Char) : Prop :=
  ∃ before behind, text = before ++ line ++ behind ∧ '\n' ∉ line
    ∧ (before = [] ∨ before.getLast? = some '\n') ∧ (behind = [] ∨ behind.head? = some '\n')
    ∧ number = before.count '\n' + 1

theorem splitLines_ne_nil (text : List Char) : splitLines text ≠ [] := by
  fun_cases splitLines text <;> simp

/-- A character in front goes to the first line. -/
theorem splitLines_cons_of_ne {c : Char} (hc : c ≠ '\n') (text : List Char) :
    ∃ line lines, splitLines text = line :: lines ∧ splitLines (c :: text) = (c :: line) :: lines := by
  obtain ⟨line, lines, hlines⟩ := List.exists_cons_of_ne_nil (splitLines_ne_nil text)
  refine ⟨line, lines, hlines, ?_⟩
  rw [splitLines.eq_3 c text hc, hlines]

theorem splitLines_of_not_mem {line : List Char} (h : '\n' ∉ line) : splitLines line = [line] := by
  induction line with
  | nil => rfl
  | cons c line ih =>
      have hc : c ≠ '\n' := fun heq => h (heq ▸ List.mem_cons_self)
      rw [splitLines.eq_3 c line hc, ih fun hmem => h (List.mem_cons_of_mem _ hmem)]

/-- **A line feed ends a line**: what is behind it is divided on its own. -/
theorem splitLines_append (before behind : List Char) :
    splitLines (before ++ '\n' :: behind) = splitLines before ++ splitLines behind := by
  induction before with
  | nil => rfl
  | cons c before ih =>
      by_cases hc : c = '\n'
      · subst hc
        show [] :: splitLines (before ++ '\n' :: behind) = [] :: (splitLines before ++ _)
        rw [ih]
      · obtain ⟨line, lines, hlines, hlonger⟩ := splitLines_cons_of_ne hc before
        rw [List.cons_append, splitLines.eq_3 c _ hc, ih, hlonger, hlines]
        rfl

theorem length_splitLines (text : List Char) :
    (splitLines text).length = text.count '\n' + 1 := by
  induction text with
  | nil => rfl
  | cons c text ih =>
      by_cases hc : c = '\n'
      · subst hc
        rw [List.count_cons_self, ← ih]
        rfl
      · obtain ⟨line, lines, hlines, hlonger⟩ := splitLines_cons_of_ne hc text
        rw [List.count_cons_of_ne hc, ← ih, hlonger, hlines]
        rfl

/-- The first line of a text goes up to the first line feed. -/
theorem getElem?_zero_splitLines {line behind : List Char} (h : '\n' ∉ line)
    (hbehind : behind = [] ∨ behind.head? = some '\n') :
    (splitLines (line ++ behind))[0]? = some line := by
  rcases hbehind with rfl | hfeed
  · rw [List.append_nil, splitLines_of_not_mem h]
    rfl
  · obtain ⟨rest, rfl⟩ := List.head?_eq_some_iff.mp hfeed
    rw [splitLines_append, splitLines_of_not_mem h]
    rfl

theorem getElem?_splitLines_of_hasLine {text line : List Char} {number : Nat}
    (h : HasLine text number line) : (splitLines text)[number - 1]? = some line := by
  obtain ⟨before, behind, rfl, hline, hbefore, hbehind, rfl⟩ := h
  have hfirst := getElem?_zero_splitLines hline hbehind
  rw [Nat.add_sub_cancel]
  rcases hbefore with rfl | hfeed
  · exact hfirst
  · obtain ⟨earlier, rfl⟩ := List.getLast?_eq_some_iff.mp hfeed
    have hcount : (earlier ++ ['\n']).count '\n' = (splitLines earlier).length := by
      rw [length_splitLines, List.count_append]
      rfl
    rw [List.append_assoc, List.append_assoc, List.singleton_append, splitLines_append, hcount,
      List.getElem?_append_right (Nat.le_refl _), Nat.sub_self]
    exact hfirst

/-- **A text is one line, or a line, a line feed and a text.** -/
theorem splitLines_cases (text : List Char) :
    ('\n' ∉ text ∧ splitLines text = [text]) ∨
      ∃ first rest, text = first ++ '\n' :: rest ∧ '\n' ∉ first
        ∧ splitLines text = first :: splitLines rest := by
  by_cases hfeed : '\n' ∈ text
  · obtain ⟨first, rest, rfl, hfirst⟩ := List.eq_append_cons_of_mem hfeed
    refine Or.inr ⟨first, rest, rfl, hfirst, ?_⟩
    rw [splitLines_append, splitLines_of_not_mem hfirst]
    rfl
  · exact Or.inl ⟨hfeed, splitLines_of_not_mem hfeed⟩

/-- A line behind the first one has the same number of line feeds and one more in front of it. -/
theorem HasLine.after {first rest line : List Char} {number : Nat} (hfirst : '\n' ∉ first)
    (h : HasLine rest number line) : HasLine (first ++ '\n' :: rest) (number + 1) line := by
  obtain ⟨before, behind, rfl, hline, hbefore, hbehind, rfl⟩ := h
  have hnone : first.count '\n' = 0 := List.count_eq_zero.mpr hfirst
  refine ⟨first ++ '\n' :: before, behind, by simp, hline, Or.inr ?_, hbehind, ?_⟩
  · rcases hbefore with rfl | hlast
    · exact List.getLast?_concat
    · rw [List.getLast?_append, List.getLast?_cons, hlast]
      rfl
  · rw [List.count_append, hnone, List.count_cons_self, Nat.zero_add]

theorem hasLine_of_getElem?_splitLines {text line : List Char} {place : Nat}
    (h : (splitLines text)[place]? = some line) : HasLine text (place + 1) line := by
  induction place generalizing text with
  | zero =>
      rcases splitLines_cases text with ⟨hline, hlines⟩ | ⟨first, rest, rfl, hfirst, hlines⟩
      · rw [hlines] at h
        obtain rfl : text = line := Option.some.inj h
        exact ⟨[], [], by simp, hline, Or.inl rfl, Or.inl rfl, rfl⟩
      · rw [hlines] at h
        obtain rfl : first = line := Option.some.inj h
        exact ⟨[], '\n' :: rest, rfl, hfirst, Or.inl rfl, Or.inr rfl, rfl⟩
  | succ place ih =>
      rcases splitLines_cases text with ⟨hline, hlines⟩ | ⟨first, rest, rfl, hfirst, hlines⟩
      · rw [hlines] at h
        exact absurd h (by simp)
      · rw [hlines] at h
        exact (ih h).after hfirst

/-- **The lines of a text are its pieces**, in their order. -/
theorem hasLine_iff {text line : List Char} {number : Nat} :
    HasLine text number line ↔ 0 < number ∧ (splitLines text)[number - 1]? = some line := by
  constructor
  · intro h
    refine ⟨?_, getElem?_splitLines_of_hasLine h⟩
    obtain ⟨before, _, _, _, _, _, rfl⟩ := h
    exact Nat.succ_pos _
  · rintro ⟨hpos, hplace⟩
    have hline := hasLine_of_getElem?_splitLines hplace
    rwa [Nat.sub_add_cancel hpos] at hline

/-- A carriage return at the end of a line is blank. -/
theorem trim_withoutReturn (line : List Char) : trim (withoutReturn line) = trim line := by
  unfold withoutReturn
  split
  · rename_i hlast
    obtain ⟨front, rfl⟩ := List.getLast?_eq_some_iff.mp hlast
    have hreturn : isBlank '\r' = true := rfl
    have hblank : AllBlank ['\r'] := fun c hc => List.mem_singleton.mp hc ▸ hreturn
    rw [List.dropLast_concat, trim_append_right hblank]
  · rfl

end Text

namespace Definition

open Text

/-! ## Lines that declare something -/

/-- **A content line of a file**: a line with the blanks around it taken off, which is not empty and does
not start as a comment does. -/
def ContentLine (text : List Char) (number : Nat) (line : List Char) : Prop :=
  ∃ raw, HasLine text number raw ∧ line = trim raw
    ∧ line ≠ [] ∧ ¬ ['#'] <+: line ∧ ¬ ['/', '/'] <+: line

theorem isContent_iff (line : List Char) :
    isContent line = true ↔ line ≠ [] ∧ ¬ ['#'] <+: line ∧ ¬ ['/', '/'] <+: line := by
  fun_cases isContent line <;> simp_all [List.cons_prefix_iff]

theorem numbered_append (number : Nat) (first second : List (List Char)) :
    numbered number (first ++ second) =
      numbered number first ++ numbered (number + first.length) second := by
  induction first generalizing number with
  | nil => rfl
  | cons line first ih =>
      rw [List.cons_append, numbered, numbered, ih, List.length_cons, List.cons_append,
        Nat.add_assoc, Nat.add_comm 1]

/-- Lines that are trimmed alike are numbered alike. -/
theorem numbered_congr {number : Nat} {lines lines' : List (List Char)}
    (h : lines.map trim = lines'.map trim) : numbered number lines = numbered number lines' := by
  induction lines generalizing number lines' with
  | nil => rw [List.map_eq_nil_iff.mp h.symm]
  | cons line lines ih =>
      obtain ⟨line', lines', rfl, hline, hlines⟩ := List.map_eq_cons_iff.mp h.symm
      rw [numbered, numbered, hline, ih hlines.symm]

theorem getElem?_numbered (number : Nat) (lines : List (List Char)) (place : Nat) :
    (numbered number lines)[place]? = lines[place]?.map fun line => (number + place, trim line) := by
  induction lines generalizing number place with
  | nil => rfl
  | cons line lines ih =>
      cases place with
      | zero => rfl
      | succ place =>
          rw [numbered, List.getElem?_cons_succ, List.getElem?_cons_succ, ih, Nat.add_assoc,
            Nat.add_comm 1]

/-- **The pieces between line feeds are all that counts**: neither the carriage returns nor an empty
piece at the end of a file show in its content lines. -/
theorem contentLines_eq (text : List Char) :
    contentLines text = (numbered 1 (splitLines text)).filter fun line => isContent line.2 := by
  obtain ⟨ended, last, hpieces⟩ :=
    (List.eq_nil_or_concat' (splitLines text)).resolve_left (splitLines_ne_nil text)
  have hended : ∀ number, numbered number (ended.map withoutReturn) = numbered number ended :=
    fun number => numbered_congr (by simp [Function.comp_def, trim_withoutReturn])
  unfold contentLines lines
  rw [hpieces]
  dsimp only
  rw [List.dropLast_concat, List.getLast?_concat]
  split
  · rename_i hlast
    obtain rfl := Option.some.inj hlast
    rw [hended, numbered_append, List.filter_append]
    exact (List.append_nil _).symm
  · rename_i hlast
    obtain rfl := Option.some.inj hlast
    rw [numbered_append, numbered_append, hended, List.length_map]
  · rename_i hlast
    exact absurd hlast (by simp)

/-- **The content lines of a file** are the lines that declare something, each with its number. -/
theorem mem_contentLines_iff {text line : List Char} {number : Nat} :
    (number, line) ∈ contentLines text ↔ ContentLine text number line := by
  rw [contentLines_eq, List.mem_filter, List.mem_iff_getElem?]
  simp only [getElem?_numbered, Option.map_eq_some_iff, Prod.mk.injEq, isContent_iff]
  constructor
  · rintro ⟨⟨place, raw, hraw, rfl, rfl⟩, hcontent⟩
    exact ⟨raw, hasLine_iff.mpr ⟨by omega, by rwa [Nat.add_sub_cancel_left]⟩, rfl, hcontent⟩
  · rintro ⟨raw, hraw, rfl, hcontent⟩
    obtain ⟨hpos, hplace⟩ := hasLine_iff.mp hraw
    exact ⟨⟨number - 1, raw, hplace, by omega, rfl⟩, hcontent⟩

theorem numbered_pairwise (number : Nat) (lines : List (List Char)) :
    (numbered number lines).Pairwise fun earlier later => earlier.1 < later.1 := by
  refine List.pairwise_iff_getElem.mpr fun i j hi hj hlt => ?_
  have hplace : ∀ k (h : k < (numbered number lines).length),
      ((numbered number lines)[k]).1 = number + k := by
    intro k h
    have heq := List.getElem?_eq_getElem h
    rw [getElem?_numbered] at heq
    obtain ⟨line, _, hline⟩ := Option.map_eq_some_iff.mp heq
    rw [← hline]
  rw [hplace i hi, hplace j hj]
  exact Nat.add_lt_add_left hlt number

/-- **Content lines come in the order of the file.** -/
theorem contentLines_pairwise (text : List Char) :
    (contentLines text).Pairwise fun earlier later => earlier.1 < later.1 :=
  (numbered_pairwise 1 (lines text)).filter _

/-- The blank line and the comment count, and both line endings end a line. -/
example : contentLines "A\r\n\n // B\r\n\tC \nD\r".toList = [(1, ['A']), (4, ['C']), (5, ['D'])] := by
  decide

end Definition

end ScriptBridge
