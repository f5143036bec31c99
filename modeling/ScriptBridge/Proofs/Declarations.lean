import Mathlib.Data.List.Basic
import ScriptBridge.Definition.Callbacks
import ScriptBridge.Proofs.Cutting

/-!
# Declarations as they are written

A callback can be declared in many ways: its annotations come in any order, an argument may have a
tag that means nothing, and blanks stand between all the parts. `WrittenDeclaration` is a declaration
with all these choices made, `line` writes it down, and reading the line gives back the callback and
nothing of the choices.

**Words.** What holds the parts of a line together is that words hold no character that divides a
declaration. `Word` asks for no more than that, so letters of every alphabet may stand in a name.

**Why the order of the cuts matters.** Annotations and texts share the brackets, and an annotation
may hold any other divider. The annotations are cut off first, and behind them a cut is made at a
divider only where everything in front of it is known to be free of it. Blanks at the ends of the
arguments are trimmed before the arguments are divided, which takes blanks from the first and the
last argument only (`map_trim_splitAll_trim`).
-/

namespace ScriptBridge

open Text

/-! ## The parts of a line -/

/-- The characters that divide a declaration. -/
def dividers : List Char := ['[', ']', '(', ')', ',', ':', ';']

/-- Whether a character may stand in a word: it is not blank and does not divide a declaration. -/
def isWordChar (c : Char) : Bool := !isBlank c && !dividers.contains c

/-- **A text of blanks**, which may be empty. -/
structure Blanks where
  chars : List Char
  blank : AllBlank chars

/-- **A word.** -/
structure Word where
  chars : List Char
  nonempty : chars ≠ []
  within : ∀ c ∈ chars, isWordChar c = true

/-- **A part with the blanks around it.** -/
structure Padded (α : Type) where
  before : Blanks
  inner : α
  behind : Blanks

namespace Padded

variable {α : Type}

/-- A part as it is written. -/
def written (write : α → List Char) (p : Padded α) : List Char :=
  p.before.chars ++ write p.inner ++ p.behind.chars

end Padded

/-! ## Annotations -/

/-- **An annotation that means something.** -/
inductive Mark where
  | cancelable
  | returnOne
  | deferred
  | unload
  deriving DecidableEq

/-- How an annotation is written. -/
def Mark.chars : Mark → List Char
  | .cancelable => "Cancelable".toList
  | .returnOne => "ReturnOne".toList
  | .deferred => "Deferred".toList
  | .unload => "Unload".toList

/-- **An annotation**: one that means something, or any other text that can stand between two commas.
-/
inductive Annotation where
  | known (mark : Mark)
  | unknown (chars : List Char) (comma : ',' ∉ chars) (bracket : ']' ∉ chars)
      (other : ∀ mark : Mark, trim chars ≠ mark.chars)

namespace Annotation

/-- What an annotation means. -/
def mark? : Annotation → Option Mark
  | .known mark => some mark
  | .unknown _ _ _ _ => none

/-- How an annotation is written. -/
def chars : Annotation → List Char
  | .known mark => mark.chars
  | .unknown chars _ _ _ => chars

end Annotation

/-- **The annotations of a declaration**, and the blanks behind their brackets. -/
structure AnnotationList where
  items : List (Padded Annotation)
  gap : Blanks

/-- The text between the brackets. -/
def AnnotationList.inside (list : AnnotationList) : List Char :=
  [','].intercalate (list.items.map (Padded.written Annotation.chars))

/-- What stands in front of the keyword. -/
def AnnotationList.chars (list : AnnotationList) : List Char :=
  '[' :: (list.inside ++ ']' :: list.gap.chars)

/-! ## Arguments -/

/-- **A tag**, with the blanks around its colon. -/
structure Tag where
  word : Word
  before : Blanks
  behind : Blanks

/-- A tag as it is written. -/
def Tag.chars (tag : Tag) : List Char :=
  tag.word.chars ++ tag.before.chars ++ ':' :: tag.behind.chars

/-- The word that makes an argument a float. -/
def floatWord : List Char := "Float".toList

/-- **Brackets behind a name**, with the blanks in front of them. They may hold anything that does not
divide arguments. -/
structure Brackets where
  gap : Blanks
  inside : List Char
  within : ∀ c ∈ inside, c ∉ [',', ':', '[', ']', '(', ')']

/-- The brackets as they are written. -/
def Brackets.chars (brackets : Brackets) : List Char :=
  brackets.gap.chars ++ '[' :: (brackets.inside ++ [']'])

/-- **An argument.** A float has no brackets. -/
structure WrittenArgument where
  tag : Option Tag
  name : Word
  brackets : Option Brackets
  exclusive : ∀ t ∈ tag, t.word.chars = floatWord → brackets = none

namespace WrittenArgument

/-- The kind of an argument: brackets make it a text, and the tag `Float` a float. -/
def kind (a : WrittenArgument) : ArgumentKind :=
  if a.brackets.isSome then .text
  else if a.tag.any (·.word.chars = floatWord) then .float
  else .integer

/-- The tag as it is written. -/
def tagChars (a : WrittenArgument) : List Char := (a.tag.map Tag.chars).getD []

/-- The name and the brackets as they are written. -/
def nameChars (a : WrittenArgument) : List Char :=
  a.name.chars ++ (a.brackets.map Brackets.chars).getD []

/-- An argument as it is written. -/
def chars (a : WrittenArgument) : List Char := a.tagChars ++ a.nameChars

/-- What an argument declares. -/
def declared (a : WrittenArgument) : String × ArgumentKind := (String.ofList a.name.chars, a.kind)

end WrittenArgument

/-! ## Declarations -/

/-- **A declaration with all choices made.** `semicolon` holds the blanks in front of the semicolon, if
there is one, and `start` those behind the opening parenthesis. -/
structure WrittenDeclaration where
  indent : Blanks
  annotations : Option AnnotationList
  gap : Blanks
  separated : gap.chars ≠ []
  name : Word
  nameGap : Blanks
  start : Blanks
  arguments : List (Padded WrittenArgument)
  semicolon : Option Blanks
  trail : Blanks

namespace WrittenDeclaration

/-- The annotations that mean something, in order and with repetitions. -/
def marks (d : WrittenDeclaration) : List Mark :=
  ((d.annotations.map (·.items)).getD []).filterMap (·.inner.mark?)

/-- What stands in front of the keyword. -/
def annotationChars (d : WrittenDeclaration) : List Char :=
  (d.annotations.map AnnotationList.chars).getD []

/-- What stands between the parentheses. -/
def argumentChars (d : WrittenDeclaration) : List Char :=
  d.start.chars ++ [','].intercalate (d.arguments.map (Padded.written WrittenArgument.chars))

/-- What stands behind the closing parenthesis. -/
def endChars (d : WrittenDeclaration) : List Char :=
  (d.semicolon.map fun gap => gap.chars ++ [';']).getD []

/-- The keyword and all that follows it. -/
def keywordChars (d : WrittenDeclaration) : List Char :=
  "forward".toList ++ (d.gap.chars ++ (d.name.chars ++ (d.nameGap.chars
    ++ '(' :: (d.argumentChars ++ ')' :: d.endChars))))

/-- **The line of a declaration.** -/
def line (d : WrittenDeclaration) : List Char :=
  d.indent.chars ++ (d.annotationChars ++ d.keywordChars) ++ d.trail.chars

end WrittenDeclaration

/-! ## Words and blanks -/

namespace Word

variable {c : Char}

theorem not_blank (w : Word) (h : c ∈ w.chars) : isBlank c = false := by
  have hword := w.within c h
  simp only [isWordChar, Bool.and_eq_true, Bool.not_eq_true'] at hword
  exact hword.1

/-- A word holds none of the dividers. -/
theorem divider_not_mem (w : Word) (h : c ∈ dividers) : c ∉ w.chars := by
  intro hmem
  have hword := w.within c hmem
  simp only [isWordChar, Bool.and_eq_true, Bool.not_eq_true', List.contains_eq_mem,
    decide_eq_false_iff_not] at hword
  exact hword.2 h

theorem tight (w : Word) : Tight w.chars := tight_of_forall fun _ => w.not_blank

end Word

/-- Blanks hold none of the dividers. -/
theorem Blanks.divider_not_mem (b : Blanks) {c : Char} (h : c ∈ dividers) : c ∉ b.chars := by
  have hdividers : dividers.all (fun c => !isBlank c) = true := by decide
  have hnot : isBlank c = false := by simpa using List.all_eq_true.mp hdividers c h
  intro hmem
  exact Bool.false_ne_true (hnot.symm.trans (b.blank c hmem))

/-- A text of which no piece holds a character does not hold it, unless it is the separator. -/
theorem not_mem_intercalate {c separator : Char} (hc : c ≠ separator) :
    ∀ {pieces : List (List Char)}, (∀ piece ∈ pieces, c ∉ piece) →
      c ∉ [separator].intercalate pieces
  | [], _ => by simp
  | [piece], h => by simpa using h
  | piece :: next :: pieces, h => by
      rw [List.intercalate_cons_cons, List.mem_append, List.mem_append]
      rintro ((hmem | hmem) | hmem)
      · exact h piece List.mem_cons_self hmem
      · exact hc (List.mem_singleton.mp hmem)
      · exact not_mem_intercalate hc (fun p hp => h p (List.mem_cons_of_mem _ hp)) hmem

theorem Padded.trim_written {α : Type} (write : α → List Char) (p : Padded α) :
    trim (p.written write) = trim (write p.inner) := by
  rw [Padded.written, trim_append_right p.behind.blank, trim_append_left p.before.blank]

/-- A divider that a part does not hold is not among the blanks around it either. -/
theorem Padded.not_mem_written {α : Type} {write : α → List Char} {p : Padded α} {c : Char}
    (hdivider : c ∈ dividers) (h : c ∉ write p.inner) : c ∉ p.written write := by
  simp only [Padded.written, List.mem_append, not_or]
  exact ⟨⟨p.before.divider_not_mem hdivider, h⟩, p.behind.divider_not_mem hdivider⟩

namespace Declaration

/-! ## Reading annotations -/

/-- A callback with one more annotation. -/
def marked (callback : Callback) : Mark → Callback
  | .cancelable => { callback with cancelable := true }
  | .returnOne => { callback with returnValue := 1 }
  | .deferred => { callback with deferred := true }
  | .unload => { callback with unloadsProgram := true }

/-- The callback of some annotations, before its name is known. -/
def ofMarks (marks : List Mark) : Callback where
  name := ""
  cancelable := decide (.cancelable ∈ marks)
  returnValue := if .returnOne ∈ marks then 1 else 0
  deferred := decide (.deferred ∈ marks)
  unloadsProgram := decide (.unload ∈ marks)

theorem marked_ofMarks (marks : List Mark) (mark : Mark) :
    marked (ofMarks marks) mark = ofMarks (marks ++ [mark]) := by
  cases mark <;> simp [marked, ofMarks]

theorem annotate_chars (callback : Callback) (a : Annotation) :
    annotate callback a.chars = (a.mark?.map (marked callback)).getD callback := by
  cases a with
  | known mark => cases mark <;> rfl
  | unknown chars _ _ other =>
      have hother : ∀ mark : Mark, String.ofList (trim chars) ≠ String.ofList mark.chars :=
        fun mark heq => other mark (String.ofList_injective heq)
      unfold annotate
      split
      · exact absurd ‹_› (hother .cancelable)
      · exact absurd ‹_› (hother .returnOne)
      · exact absurd ‹_› (hother .deferred)
      · exact absurd ‹_› (hother .unload)
      · rfl

theorem annotate_written (callback : Callback) (p : Padded Annotation) :
    annotate callback (p.written Annotation.chars) =
      (p.inner.mark?.map (marked callback)).getD callback := by
  rw [← annotate_chars]
  unfold annotate
  rw [Padded.trim_written]

/-- **Annotations are taken one after the other**, in any order. -/
theorem foldl_annotate (items : List (Padded Annotation)) (marks : List Mark) :
    (items.map (Padded.written Annotation.chars)).foldl annotate (ofMarks marks) =
      ofMarks (marks ++ items.filterMap (·.inner.mark?)) := by
  induction items generalizing marks with
  | nil => simp
  | cons p items ih =>
      rw [List.map_cons, List.foldl_cons, annotate_written]
      cases hmark : p.inner.mark? with
      | none =>
          rw [List.filterMap_cons, hmark]
          exact ih marks
      | some mark =>
          rw [List.filterMap_cons, hmark, Option.map_some, Option.getD_some, marked_ofMarks, ih,
            List.append_assoc]
          rfl

/-- An annotation holds none of the characters at which annotations are cut. -/
theorem dividers_not_mem_chars (a : Annotation) : ',' ∉ a.chars ∧ ']' ∉ a.chars := by
  cases a with
  | known mark => cases mark <;> decide
  | unknown chars comma bracket _ => exact ⟨comma, bracket⟩

/-- **The text between the brackets** is taken for what it means. -/
theorem foldl_annotate_inside (list : AnnotationList) :
    (splitAll ',' list.inside).foldl annotate { name := "" } =
      ofMarks (list.items.filterMap (·.inner.mark?)) := by
  unfold AnnotationList.inside
  by_cases hitems : list.items = []
  · -- brackets with nothing in them hold one empty annotation
    rw [hitems]
    rfl
  · have hfree : ∀ piece ∈ list.items.map (Padded.written Annotation.chars), ',' ∉ piece := by
      intro piece hpiece
      obtain ⟨p, -, rfl⟩ := List.mem_map.mp hpiece
      exact Padded.not_mem_written (by decide) (dividers_not_mem_chars p.inner).1
    have hne : list.items.map (Padded.written Annotation.chars) ≠ [] := by simpa using hitems
    rw [splitAll_intercalate hne hfree]
    exact foldl_annotate list.items []

/-- The first bracket that closes ends the annotations. -/
theorem annotations_bracket {inside : List Char} (h : ']' ∉ inside) (rest : List Char) :
    annotations ('[' :: (inside ++ ']' :: rest)) =
      .ok ((splitAll ',' inside).foldl annotate { name := "" }, trimStart rest) := by
  simp only [annotations, splitOnce?_append h]

theorem keyword_not_blank (d : WrittenDeclaration) :
    ∀ c ∈ d.keywordChars.head?, isBlank c = false := by
  have hfirst : d.keywordChars.head? = some 'f' := rfl
  intro c hc
  obtain rfl : 'f' = c := Option.some.inj (hfirst.symm.trans hc)
  decide

/-- **Annotations are cut off a line** in front of its keyword. -/
theorem annotations_line (d : WrittenDeclaration) :
    annotations (d.annotationChars ++ d.keywordChars) = .ok (ofMarks d.marks, d.keywordChars) := by
  unfold WrittenDeclaration.annotationChars WrittenDeclaration.marks
  cases d.annotations with
  | none => rfl
  | some list =>
      have hfree : ']' ∉ list.inside := by
        refine not_mem_intercalate (by decide) fun piece hpiece => ?_
        obtain ⟨p, -, rfl⟩ := List.mem_map.mp hpiece
        exact Padded.not_mem_written (by decide) (dividers_not_mem_chars p.inner).2
      have hkeyword : trimStart d.keywordChars = d.keywordChars :=
        trimStart_of_first (keyword_not_blank d)
      have hline : list.chars ++ d.keywordChars =
          '[' :: (list.inside ++ ']' :: (list.gap.chars ++ d.keywordChars)) := by
        simp [AnnotationList.chars]
      show annotations (list.chars ++ d.keywordChars) = _
      rw [hline, annotations_bracket hfree, foldl_annotate_inside,
        trimStart_append list.gap.blank, hkeyword]
      rfl

/-! ## Reading the head -/

theorem first_not_blank (w : Word) (rest : List Char) :
    ∀ c ∈ (w.chars ++ rest).head?, isBlank c = false := by
  intro c hc
  cases hchars : w.chars with
  | nil => exact absurd hchars w.nonempty
  | cons first chars =>
      rw [hchars] at hc
      obtain rfl : first = c := Option.some.inj hc
      exact w.not_blank (hchars ▸ List.mem_cons_self)

/-- **The keyword ends at the blanks behind it.** -/
theorem keyword_line (d : WrittenDeclaration) :
    keyword d.keywordChars =
      .ok (d.name.chars ++ (d.nameGap.chars ++ '(' :: (d.argumentChars ++ ')' :: d.endChars))) := by
  unfold keyword WrittenDeclaration.keywordChars
  rw [after?_append]
  cases hgap : d.gap.chars with
  | nil => exact absurd hgap d.separated
  | cons blank gap =>
      have hblank : AllBlank (blank :: gap) := hgap ▸ d.gap.blank
      rw [List.cons_append]
      dsimp only
      rw [if_pos (hblank blank List.mem_cons_self),
        trimStart_append fun c hc => hblank c (List.mem_cons_of_mem _ hc),
        trimStart_of_first (first_not_blank d.name _)]

/-- The name ends at the blanks in front of the parenthesis. -/
theorem name_line (d : WrittenDeclaration) (rest : List Char) :
    splitOnce? '(' (d.name.chars ++ (d.nameGap.chars ++ '(' :: rest)) =
        some (d.name.chars ++ d.nameGap.chars, rest)
      ∧ trim (d.name.chars ++ d.nameGap.chars) = d.name.chars := by
  have hfree : '(' ∉ d.name.chars ++ d.nameGap.chars := by
    rw [List.mem_append, not_or]
    exact ⟨d.name.divider_not_mem (by decide), d.nameGap.divider_not_mem (by decide)⟩
  rw [← List.append_assoc, splitOnce?_append hfree, trim_append_right d.nameGap.blank,
    trim_of_tight d.name.tight]
  exact ⟨rfl, rfl⟩

/-! ## Reading the arguments -/

/-- **What stands between the parentheses** is found from the end of the line. -/
theorem inside_line (d : WrittenDeclaration) :
    inside (d.argumentChars ++ ')' :: d.endChars) = .ok (trim d.argumentChars) := by
  unfold inside WrittenDeclaration.endChars
  cases d.semicolon with
  | none =>
      have hend : trimEnd (d.argumentChars ++ [')']) = d.argumentChars ++ [')'] :=
        trimEnd_concat (by decide) _
      dsimp only [Option.map_none, Option.getD_none]
      rw [hend, before?_eq_none (by decide), Option.getD_none, hend, before?_append]
  | some gap =>
      have hend : d.argumentChars ++ ')' :: (gap.chars ++ [';']) =
          d.argumentChars ++ [')'] ++ gap.chars ++ [';'] := by simp
      dsimp only [Option.map_some, Option.getD_some]
      rw [hend, trimEnd_concat (by decide), before?_append, Option.getD_some,
        trimEnd_append gap.blank, trimEnd_concat (by decide), before?_append]

/-- A name and the brackets behind it, after the tag. -/
theorem untagged_nameChars (a : WrittenArgument) {kind : ArgumentKind}
    (hkind : a.brackets.isSome → kind = .integer) :
    untagged a.nameChars kind =
      .ok (String.ofList a.name.chars, if a.brackets.isSome then .text else kind) := by
  have hname : a.name.chars.isEmpty = false := by simpa using a.name.nonempty
  unfold untagged WrittenArgument.nameChars
  cases hbrackets : a.brackets with
  | none =>
      dsimp only [Option.map_none, Option.getD_none]
      rw [List.append_nil, splitOnce?_eq_none (a.name.divider_not_mem (by decide))]
      simp [named, hname]
  | some brackets =>
      have hfree : '[' ∉ a.name.chars ++ brackets.gap.chars := by
        rw [List.mem_append, not_or]
        exact ⟨a.name.divider_not_mem (by decide), brackets.gap.divider_not_mem (by decide)⟩
      have hholds : holds ']' (brackets.inside ++ [']']) = true := by simp [holds]
      have hinteger : kind = .integer := hkind (by rw [hbrackets]; rfl)
      dsimp only [Option.map_some, Option.getD_some, Brackets.chars]
      rw [← List.append_assoc, splitOnce?_append hfree]
      dsimp only
      rw [hholds, hinteger, trim_append_right brackets.gap.blank, trim_of_tight a.name.tight]
      simp [named, hname]

/-- A name with its brackets holds no character at which arguments or tags are cut. -/
theorem not_mem_nameChars (a : WrittenArgument) {c : Char} (hdivider : c ∈ dividers)
    (hcut : c ∈ [',', ':']) : c ∉ a.nameChars := by
  have hbrackets : ∀ brackets : Brackets, c ∉ brackets.chars := by
    intro brackets hmem
    rcases List.mem_append.mp hmem with hgap | hinside
    · exact brackets.gap.divider_not_mem hdivider hgap
    · simp only [List.mem_cons, List.mem_append, List.not_mem_nil, or_false] at hinside hcut
      rcases hinside with rfl | hinside | rfl
      · exact absurd hcut (by decide)
      · exact brackets.within c hinside (by rcases hcut with rfl | rfl <;> decide)
      · exact absurd hcut (by decide)
  unfold WrittenArgument.nameChars
  rw [List.mem_append, not_or]
  refine ⟨a.name.divider_not_mem hdivider, ?_⟩
  cases a.brackets with
  | none => exact List.not_mem_nil
  | some brackets => exact hbrackets brackets

theorem tight_nameChars (a : WrittenArgument) : Tight a.nameChars := by
  refine ⟨first_not_blank a.name _, ?_⟩
  unfold WrittenArgument.nameChars
  cases a.brackets with
  | none =>
      dsimp only [Option.map_none, Option.getD_none]
      rw [List.append_nil]
      exact a.name.tight.last
  | some brackets =>
      have hend : a.name.chars ++ brackets.chars =
          a.name.chars ++ brackets.gap.chars ++ '[' :: brackets.inside ++ [']'] := by
        simp [Brackets.chars]
      intro c hc
      dsimp only [Option.map_some, Option.getD_some] at hc
      rw [hend, List.getLast?_concat] at hc
      exact (Option.some.inj hc : ']' = c) ▸ rfl

theorem nameChars_ne_nil (a : WrittenArgument) : a.nameChars ≠ [] := fun h =>
  a.name.nonempty (List.append_eq_nil_iff.mp h).1

theorem tight_chars (a : WrittenArgument) : Tight a.chars := by
  unfold WrittenArgument.chars WrittenArgument.tagChars
  cases a.tag with
  | none => exact tight_nameChars a
  | some tag =>
      refine ⟨?_, fun c hc => (tight_nameChars a).last c ?_⟩
      · dsimp only [Option.map_some, Option.getD_some, Tag.chars]
        rw [List.append_assoc, List.append_assoc]
        exact first_not_blank tag.word _
      · rwa [List.getLast?_append_of_ne_nil _ (nameChars_ne_nil a)] at hc

theorem kindOfTag_word (tag : Tag) :
    kindOfTag (tag.word.chars ++ tag.before.chars) =
      if tag.word.chars = floatWord then .float else .integer := by
  unfold kindOfTag
  rw [trim_append_right tag.before.blank, trim_of_tight tag.word.tight]
  rfl

/-- **One argument**, with any blanks around it. -/
theorem argument_written (p : Padded WrittenArgument) :
    argument (p.written WrittenArgument.chars) = .ok p.inner.declared := by
  unfold argument
  rw [Padded.trim_written, trim_of_tight (tight_chars p.inner)]
  generalize p.inner = a
  unfold WrittenArgument.chars WrittenArgument.tagChars WrittenArgument.declared
    WrittenArgument.kind
  have hexclusive := a.exclusive
  cases htag : a.tag with
  | none =>
      have hfree : ':' ∉ a.nameChars := not_mem_nameChars a (by decide) (by decide)
      dsimp only [Option.map_none, Option.getD_none]
      rw [List.nil_append, splitOnce?_eq_none hfree]
      dsimp only
      rw [untagged_nameChars a fun _ => rfl]
      rfl
  | some tag =>
      have hfree : ':' ∉ tag.word.chars ++ tag.before.chars := by
        rw [List.mem_append, not_or]
        exact ⟨tag.word.divider_not_mem (by decide), tag.before.divider_not_mem (by decide)⟩
      have hcut : tag.chars ++ a.nameChars =
          tag.word.chars ++ tag.before.chars ++ ':' :: (tag.behind.chars ++ a.nameChars) := by
        simp [Tag.chars]
      dsimp only [Option.map_some, Option.getD_some]
      rw [hcut, splitOnce?_append hfree]
      dsimp only
      rw [trim_append_left tag.behind.blank, trim_of_tight (tight_nameChars a), kindOfTag_word,
        untagged_nameChars a ?_]
      · by_cases hfloat : tag.word.chars = floatWord <;> simp [hfloat]
      · intro hbrackets
        refine if_neg fun hfloat => ?_
        rw [hexclusive tag htag hfloat] at hbrackets
        exact absurd hbrackets (by simp)

theorem comma_not_mem_chars (a : WrittenArgument) : ',' ∉ a.chars := by
  have htag : ∀ tag : Tag, ',' ∉ tag.chars := by
    intro tag
    simp only [Tag.chars, List.mem_append, List.mem_cons, not_or]
    exact ⟨⟨tag.word.divider_not_mem (by decide), tag.before.divider_not_mem (by decide)⟩,
      by decide, tag.behind.divider_not_mem (by decide)⟩
  unfold WrittenArgument.chars WrittenArgument.tagChars
  rw [List.mem_append, not_or]
  refine ⟨?_, not_mem_nameChars a (by decide) (by decide)⟩
  cases a.tag with
  | none => exact List.not_mem_nil
  | some tag => exact htag tag

/-- An argument is read from its trimmed text. -/
theorem argument_congr {text other : List Char} (h : trim text = trim other) :
    argument text = argument other := by
  unfold argument
  rw [h]

theorem mapM_argument_congr {texts others : List (List Char)} (h : texts.map trim = others.map trim) :
    texts.mapM argument = others.mapM argument := by
  induction texts generalizing others with
  | nil => rw [List.map_eq_nil_iff.mp h.symm]
  | cons text texts ih =>
      obtain ⟨other, others, rfl, htext, htexts⟩ := List.map_eq_cons_iff.mp h.symm
      rw [List.mapM_cons, List.mapM_cons, argument_congr htext.symm, ih htexts.symm]

theorem mapM_argument_written (arguments : List (Padded WrittenArgument)) :
    (arguments.map (Padded.written WrittenArgument.chars)).mapM argument =
      .ok (arguments.map (·.inner.declared)) := by
  induction arguments with
  | nil => rfl
  | cons p arguments ih =>
      rw [List.map_cons, List.mapM_cons, argument_written, ih]
      rfl

/-- **The arguments**, trimmed as a whole and then one by one. -/
theorem arguments_line (d : WrittenDeclaration) :
    arguments (trim d.argumentChars) = .ok (d.arguments.map (·.inner.declared)) := by
  unfold arguments WrittenDeclaration.argumentChars
  rw [trim_append_left d.start.blank]
  by_cases hnone : d.arguments = []
  · rw [hnone]
    rfl
  · have hne : d.arguments.map (Padded.written WrittenArgument.chars) ≠ [] := by simpa using hnone
    have hfree : ∀ piece ∈ d.arguments.map (Padded.written WrittenArgument.chars), ',' ∉ piece := by
      intro piece hpiece
      obtain ⟨p, -, rfl⟩ := List.mem_map.mp hpiece
      exact Padded.not_mem_written (by decide) (comma_not_mem_chars p.inner)
    have hcomma : isBlank ',' = false := by decide
    have hpieces := map_trim_splitAll_trim hcomma
      ([','].intercalate (d.arguments.map (Padded.written WrittenArgument.chars)))
    rw [splitAll_intercalate hne hfree] at hpieces
    -- an argument is not empty, so the text between the parentheses is not either
    have hsome : (trim ([','].intercalate
        (d.arguments.map (Padded.written WrittenArgument.chars)))).isEmpty = false := by
      refine Bool.eq_false_iff.mpr fun hempty => ?_
      rw [List.isEmpty_iff.mp hempty] at hpieces
      obtain ⟨p, arguments, hp⟩ := List.exists_cons_of_ne_nil hnone
      rw [hp, List.map_cons, List.map_cons, Padded.trim_written, trim_of_tight (tight_chars p.inner)]
        at hpieces
      exact nameChars_ne_nil p.inner (List.append_eq_nil_iff.mp (List.cons.inj hpieces).1.symm).2
    rw [hsome, mapM_argument_congr hpieces, mapM_argument_written]
    rfl

/-! ## Reading the line -/

theorem end_not_blank (d : WrittenDeclaration) :
    ∀ c ∈ (')' :: d.endChars).getLast?, isBlank c = false := by
  intro c hc
  unfold WrittenDeclaration.endChars at hc
  cases hsemicolon : d.semicolon with
  | none =>
      rw [hsemicolon] at hc
      obtain rfl : ')' = c := Option.some.inj hc
      decide
  | some gap =>
      rw [hsemicolon] at hc
      dsimp only [Option.map_some, Option.getD_some] at hc
      rw [← List.cons_append, List.getLast?_concat] at hc
      obtain rfl : ';' = c := Option.some.inj hc
      decide

theorem tight_line (d : WrittenDeclaration) : Tight (d.annotationChars ++ d.keywordChars) := by
  have hline : d.annotationChars ++ d.keywordChars =
      d.annotationChars ++ "forward".toList ++ d.gap.chars ++ d.name.chars ++ d.nameGap.chars
        ++ '(' :: d.argumentChars ++ ')' :: d.endChars := by
    unfold WrittenDeclaration.keywordChars
    generalize "forward".toList = keyword
    simp
  refine ⟨fun c hc => ?_, fun c hc => end_not_blank d c ?_⟩
  · unfold WrittenDeclaration.annotationChars at hc
    cases hannotations : d.annotations with
    | none =>
        rw [hannotations] at hc
        exact keyword_not_blank d c hc
    | some list =>
        rw [hannotations] at hc
        obtain rfl : '[' = c := Option.some.inj hc
        decide
  · rwa [hline, List.getLast?_append_of_ne_nil _ (List.cons_ne_nil _ _)] at hc

/--
**What is written is read.** A line gives back the callback that it declares, whatever its
annotations are and in whichever order they come, however its arguments are tagged, and whatever
blanks stand between its parts. An annotation counts if it is there, once or more often, and the
value that a suppressed call answers is one exactly if `ReturnOne` is among them.
-/
theorem declarations_are_read_as_written (d : WrittenDeclaration) :
    parse d.line =
      .ok {
        name := String.ofList d.name.chars
        arguments := d.arguments.map fun p => (String.ofList p.inner.name.chars, p.inner.kind)
        cancelable := decide (.cancelable ∈ d.marks)
        deferred := decide (.deferred ∈ d.marks)
        unloadsProgram := decide (.unload ∈ d.marks)
        returnValue := if .returnOne ∈ d.marks then 1 else 0 } := by
  have hname : d.name.chars.isEmpty = false := by simpa using d.name.nonempty
  obtain ⟨hcut, htrim⟩ := name_line d (d.argumentChars ++ ')' :: d.endChars)
  unfold parse WrittenDeclaration.line
  rw [trim_padded d.indent.blank d.trail.blank (tight_line d), annotations_line d]
  dsimp only
  rw [keyword_line d]
  dsimp only
  rw [hcut]
  dsimp only
  rw [htrim, hname, inside_line d]
  dsimp only
  rw [arguments_line d]
  rfl

/-- Blanks stand everywhere, an annotation means nothing, and a text has a tag. -/
example :
    let one : Blanks := ⟨[' '], List.all_eq_true.mp (by decide)⟩
    let word (chars : List Char) (h : chars ≠ [] ∧ chars.all isWordChar = true) : Word :=
      ⟨chars, h.1, List.all_eq_true.mp h.2⟩
    let text : WrittenArgument :=
      ⟨some ⟨word "bool".toList (by decide), one, one⟩, word ['t'] (by decide),
        some ⟨one, ['8'], by simp⟩, by decide⟩
    let nothing : Annotation :=
      .unknown "Cats".toList (by decide) (by decide) fun mark => by cases mark <;> decide
    let d : WrittenDeclaration :=
      ⟨one, some ⟨[⟨one, nothing, one⟩, ⟨one, .known .deferred, one⟩], one⟩, one, by decide,
        word "OnText".toList (by decide), one, one, [⟨one, text, one⟩], some one, one⟩
    d.line = " [ Cats , Deferred ] forward OnText (  bool : t [8] ) ; ".toList := by
  decide

end Declaration

end ScriptBridge
