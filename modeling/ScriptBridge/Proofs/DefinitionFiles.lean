import Mathlib.Data.List.Forall2
import ScriptBridge.Definition.Callbacks
import ScriptBridge.Definition.Natives
import ScriptBridge.Proofs.ContentLines

/-!
# What definition files are accepted

Files of callbacks and of native names are read alike: content line by content line, each is added to
what the lines before it gave, and the first one that is refused is the answer. So a file is accepted
if no line is refused, and an error is about a line in front of which all are in order
(`foldlM_eq_error_iff`). What is left to say is what a line adds and why it is refused, which is said
of the lines alone: `CallbackTable.Declares` and `NativeNames.Lists` relate the content lines of a file
to what they give, and `Refused` is one constructor for each reason.

**Order of the reasons.** A line of a list of names can be surplus only if nothing else is wrong with
it. A repeated name consists of the right characters, because the name that it repeats does, so the
other two reasons exclude each other as well.
-/

namespace ScriptBridge

namespace Definition

variable {α β ε : Type} {add : β → α → Except ε β} {start last : β} {entry : α} {entries : List α} {e : ε}

theorem foldlM_cons_eq_ok_iff : (entry :: entries).foldlM add start = .ok last ↔
    ∃ next, add start entry = .ok next ∧ entries.foldlM add next = .ok last := by
  rw [List.foldlM_cons]
  cases hentry : add start entry <;> simp [bind, Except.bind]

/-- **The first refusal is the answer**, and everything in front of it was added. -/
theorem foldlM_eq_error_iff : entries.foldlM add start = .error e ↔
    ∃ before entry behind sofar, entries = before ++ entry :: behind
      ∧ before.foldlM add start = .ok sofar ∧ add sofar entry = .error e := by
  constructor
  · intro h
    induction entries generalizing start with
    | nil => exact absurd h (by simp [pure, Except.pure])
    | cons first entries ih =>
        cases hfirst : add start first with
        | error e' =>
            rw [List.foldlM_cons, hfirst] at h
            obtain rfl : e' = e := Except.error.inj h
            exact ⟨[], first, entries, start, rfl, rfl, hfirst⟩
        | ok next =>
            rw [List.foldlM_cons, hfirst] at h
            obtain ⟨before, entry, behind, sofar, rfl, hbefore, hentry⟩ := ih h
            exact ⟨first :: before, entry, behind, sofar, rfl,
              foldlM_cons_eq_ok_iff.mpr ⟨next, hfirst, hbefore⟩, hentry⟩
  · rintro ⟨before, entry, behind, sofar, rfl, hbefore, hentry⟩
    rw [List.foldlM_append, hbefore]
    show (entry :: behind).foldlM add sofar = .error e
    rw [List.foldlM_cons, hentry]
    rfl

end Definition

/-! ## Callbacks -/

namespace CallbackTable

/-- The names that are taken. -/
def names (table : CallbackTable) : List String := table.callbacks.map (·.name)

theorem position?_isSome_iff {table : CallbackTable} {name : String} :
    (table.position? name).isSome = true ↔ name ∈ table.names := by
  unfold position? names
  rw [List.findIdx?_isSome, List.any_eq_true, List.mem_map]
  simp only [beq_iff_eq]

/-- A position leads to the callback whose name was looked up. -/
theorem get?_of_position? {table : CallbackTable} {name : String} {position : Nat}
    (h : table.position? name = some position) :
    ∃ callback, table.get? position = some callback ∧ callback.name = name := by
  obtain ⟨hlt, hname, _⟩ := List.findIdx?_eq_some_iff_getElem.mp h
  exact ⟨_, List.getElem?_eq_getElem hlt, by simpa using hname⟩

theorem insert?_eq_some_iff {table longer : CallbackTable} {callback : Callback} :
    table.insert? callback = some longer ↔
      callback.name ∉ table.names ∧ longer = ⟨table.callbacks ++ [callback]⟩ := by
  unfold insert?
  by_cases htaken : callback.name ∈ table.names
  · rw [if_pos (position?_isSome_iff.mpr htaken)]
    simp [htaken]
  · rw [if_neg fun h => htaken (position?_isSome_iff.mp h)]
    simp [htaken, eq_comm]

theorem insert?_eq_none_iff {table : CallbackTable} {callback : Callback} :
    table.insert? callback = none ↔ callback.name ∈ table.names := by
  rw [← not_iff_not, ← position?_isSome_iff, insert?]
  split <;> simp_all

/-- Add the declaration of one content line. -/
def addLine (table : CallbackTable) (entry : Nat × List Char) : Except DefinitionError CallbackTable :=
  match Declaration.parse entry.2 with
  | .error problem => .error (.malformed entry.1 problem (String.ofList entry.2))
  | .ok callback =>
    match table.insert? callback with
    | none => .error (.duplicate callback.name entry.1)
    | some table => .ok table

theorem addLines_eq_foldlM (table : CallbackTable) (lines : List (Nat × List Char)) :
    table.addLines lines = lines.foldlM addLine table := by
  induction lines generalizing table with
  | nil => rfl
  | cons line lines ih =>
      rw [List.foldlM_cons, addLines, addLine]
      cases Declaration.parse line.2 with
      | error problem => rfl
      | ok callback =>
          cases hlonger : table.insert? callback with
          | none => simp only [hlonger]; rfl
          | some longer => simp only [hlonger]; exact ih longer

theorem addLine_eq_ok_iff {table longer : CallbackTable} {entry : Nat × List Char} :
    table.addLine entry = .ok longer ↔
      ∃ callback, Declaration.parse entry.2 = .ok callback ∧ callback.name ∉ table.names
        ∧ longer = ⟨table.callbacks ++ [callback]⟩ := by
  unfold addLine
  cases Declaration.parse entry.2 with
  | error problem => simp
  | ok callback =>
      cases hlonger : table.insert? callback with
      | none => simp [hlonger, insert?_eq_none_iff.mp hlonger]
      | some next =>
          obtain ⟨hfree, rfl⟩ := insert?_eq_some_iff.mp hlonger
          simp [hlonger, hfree, eq_comm]

/-- **What content lines declare**: each line its callback, and no two lines the same name. -/
structure Declares (lines : List (Nat × List Char)) (callbacks : List Callback) : Prop where
  parsed : List.Forall₂ (fun line callback => Declaration.parse line.2 = .ok callback) lines callbacks
  distinct : (callbacks.map (·.name)).Nodup

/-- **Why a content line is refused** behind lines that declared some callbacks. -/
inductive Refused (earlier : List Callback) (number : Nat) (line : List Char) :
    DefinitionError → Prop where
  | malformed {problem : DeclarationProblem} : Declaration.parse line = .error problem →
      Refused earlier number line (.malformed number problem (String.ofList line))
  | repeated {callback : Callback} : Declaration.parse line = .ok callback →
      callback.name ∈ earlier.map (·.name) →
      Refused earlier number line (.duplicate callback.name number)

theorem addLine_eq_error_iff {table : CallbackTable} {number : Nat} {line : List Char}
    {e : DefinitionError} :
    table.addLine (number, line) = .error e ↔ Refused table.callbacks number line e := by
  unfold addLine
  constructor
  · intro h
    cases hparse : Declaration.parse line with
    | error problem =>
        simp only [hparse] at h
        exact Except.error.inj h ▸ .malformed hparse
    | ok callback =>
        cases hlonger : table.insert? callback with
        | none =>
            simp only [hparse, hlonger] at h
            exact Except.error.inj h ▸ .repeated hparse (insert?_eq_none_iff.mp hlonger)
        | some next =>
            simp only [hparse, hlonger] at h
            exact absurd h (by simp)
  · rintro (hparse | ⟨hparse, htaken⟩)
    · simp only [hparse]
    · have hnone := insert?_eq_none_iff.mpr htaken
      simp only [hparse, hnone]

theorem nodup_names_concat {table : CallbackTable} {callback : Callback} :
    (CallbackTable.names ⟨table.callbacks ++ [callback]⟩).Nodup ↔
      table.names.Nodup ∧ callback.name ∉ table.names := by
  show ((table.callbacks ++ [callback]).map (·.name)).Nodup ↔ _
  rw [List.map_append, List.map_singleton, (List.perm_append_singleton _ _).nodup_iff,
    List.nodup_cons]
  exact and_comm

/-- **Lines are added to a table** one behind the other, as long as their names are new. -/
theorem foldlM_addLine_eq_ok_iff {table added : CallbackTable} {lines : List (Nat × List Char)}
    (hnames : table.names.Nodup) : lines.foldlM addLine table = .ok added ↔
      ∃ callbacks,
        List.Forall₂ (fun line callback => Declaration.parse line.2 = .ok callback) lines callbacks
          ∧ added = ⟨table.callbacks ++ callbacks⟩
          ∧ ((table.callbacks ++ callbacks).map (·.name)).Nodup := by
  induction lines generalizing table with
  | nil =>
      constructor
      · intro h
        obtain rfl : table = added := Except.ok.inj h
        exact ⟨[], .nil, by rw [List.append_nil], by rwa [List.append_nil]⟩
      · rintro ⟨callbacks, hnone, rfl, _⟩
        cases hnone
        rw [List.append_nil]
        rfl
  | cons line lines ih =>
      rw [Definition.foldlM_cons_eq_ok_iff]
      constructor
      · rintro ⟨next, hline, hlines⟩
        obtain ⟨callback, hparse, hfree, rfl⟩ := addLine_eq_ok_iff.mp hline
        obtain ⟨callbacks, hparsed, rfl, hdistinct⟩ :=
          (ih (nodup_names_concat.mpr ⟨hnames, hfree⟩)).mp hlines
        rw [List.append_assoc] at hdistinct ⊢
        exact ⟨callback :: callbacks, .cons hparse hparsed, rfl, hdistinct⟩
      · rintro ⟨callbacks, hparsed, rfl, hdistinct⟩
        cases hparsed with
        | @cons _ callback _ callbacks hparse hparsed =>
            rw [List.append_cons] at hdistinct
            have hnext : (CallbackTable.names ⟨table.callbacks ++ [callback]⟩).Nodup := by
              rw [List.map_append] at hdistinct
              exact (List.nodup_append.mp hdistinct).1
            have hfree : callback.name ∉ table.names := (nodup_names_concat.mp hnext).2
            have hlines := (ih hnext).mpr ⟨callbacks, hparsed, by rw [List.append_cons], hdistinct⟩
            exact ⟨_, addLine_eq_ok_iff.mpr ⟨callback, hparse, hfree, rfl⟩, hlines⟩

theorem declares_iff {table : CallbackTable} {lines : List (Nat × List Char)} :
    lines.foldlM addLine empty = .ok table ↔ Declares lines table.callbacks := by
  have hnone : empty.names.Nodup := List.nodup_nil
  rw [foldlM_addLine_eq_ok_iff hnone]
  constructor
  · rintro ⟨callbacks, hparsed, rfl, hdistinct⟩
    exact ⟨hparsed, hdistinct⟩
  · rintro ⟨hparsed, hdistinct⟩
    exact ⟨table.callbacks, hparsed, rfl, hdistinct⟩

/--
**A file of callbacks is accepted if each of its content lines declares a callback and no two of them
the same name.** The table then holds what they declare, in their order. Any other file is answered
with an error about the first line that cannot be parsed or repeats a name, and the number in it is that
of the line in the file: one more than the line feeds in front of it.
-/
theorem callback_files_are_accepted_exactly (text : String) :
    (∀ number line, (number, line) ∈ Definition.contentLines text.toList ↔
        Definition.ContentLine text.toList number line)
      ∧ (Definition.contentLines text.toList).Pairwise (fun earlier later => earlier.1 < later.1)
      ∧ (∀ table, parse text = .ok table ↔
          Declares (Definition.contentLines text.toList) table.callbacks)
      ∧ ∀ e, parse text = .error e ↔
          ∃ before number line behind callbacks,
            Definition.contentLines text.toList = before ++ (number, line) :: behind
              ∧ Declares before callbacks ∧ Refused callbacks number line e := by
  have hparse : parse text = (Definition.contentLines text.toList).foldlM addLine empty :=
    addLines_eq_foldlM _ _
  refine ⟨fun _ _ => Definition.mem_contentLines_iff, Definition.contentLines_pairwise _,
    fun table => ?_, fun e => ?_⟩
  · rw [hparse, declares_iff]
  · rw [hparse, Definition.foldlM_eq_error_iff]
    constructor
    · rintro ⟨before, ⟨number, line⟩, behind, table, hlines, hbefore, hrefused⟩
      exact ⟨before, number, line, behind, table.callbacks, hlines, declares_iff.mp hbefore,
        addLine_eq_error_iff.mp hrefused⟩
    · rintro ⟨before, number, line, behind, callbacks, hlines, hbefore, hrefused⟩
      exact ⟨before, (number, line), behind, ⟨callbacks⟩, hlines, declares_iff.mpr hbefore,
        addLine_eq_error_iff.mpr hrefused⟩

/-- The first line that is wrong repeats a name, and the one behind it cannot be parsed. -/
example : parse "forward A();\r\n# forward B();\n\n forward A(x);\nforward" =
    .error (.duplicate "A" 4) :=
  rfl

end CallbackTable

/-! ## Names of natives -/

namespace NativeNames

/-- **A word over the letters of the basic alphabet and the underscore.** -/
def IsWord (line : List Char) : Prop := ∀ c ∈ line, c.isAlpha = true ∨ c = '_'

theorem all_isNameChar_iff {line : List Char} : line.all isNameChar = true ↔ IsWord line := by
  rw [List.all_eq_true]
  refine forall₂_congr fun c _ => ?_
  have halpha : c.isAlpha = (decide ('A'.val ≤ c.val ∧ c.val ≤ 'Z'.val)
      || (decide ('a'.val ≤ c.val) && decide (c.val ≤ 'z'.val))) := rfl
  simp [isNameChar, halpha, Char.le_def, or_comm]

/-- Add the name of one content line. -/
def addLine (names : List String) (entry : Nat × List Char) : Except DefinitionError (List String) :=
  let name := String.ofList entry.2
  if !entry.2.all isNameChar then .error (.malformed entry.1 .nativeName name)
  else if names.contains name then .error (.duplicate name entry.1)
  else if names.length = maxNatives then .error (.tooMany maxNatives)
  else .ok (names ++ [name])

theorem addLines_eq_foldlM (names : List String) (lines : List (Nat × List Char)) :
    addLines names lines = lines.foldlM addLine names := by
  induction lines generalizing names with
  | nil => rfl
  | cons line lines ih =>
      rw [List.foldlM_cons, addLines, addLine]
      split
      · rfl
      split
      · rfl
      split
      · rfl
      exact ih _

/-- **What one line does.** A name that has another character, is there already or finds no place is
refused for the first of these reasons, and any other is added. -/
theorem addLine_cases (names : List String) (number : Nat) (line : List Char) :
    (¬ IsWord line
        ∧ addLine names (number, line) = .error (.malformed number .nativeName (String.ofList line)))
      ∨ (IsWord line ∧ String.ofList line ∈ names
        ∧ addLine names (number, line) = .error (.duplicate (String.ofList line) number))
      ∨ (IsWord line ∧ String.ofList line ∉ names ∧ names.length = 255
        ∧ addLine names (number, line) = .error (.tooMany 255))
      ∨ (IsWord line ∧ String.ofList line ∉ names ∧ names.length ≠ 255
        ∧ addLine names (number, line) = .ok (names ++ [String.ofList line])) := by
  unfold addLine
  rw [← all_isNameChar_iff, ← List.contains_iff_mem]
  dsimp only
  by_cases hchars : line.all isNameChar = true
  · rw [hchars, if_neg (by decide)]
    by_cases htaken : names.contains (String.ofList line) = true
    · exact Or.inr (Or.inl ⟨rfl, htaken, by rw [if_pos htaken]⟩)
    · rw [if_neg htaken]
      by_cases hfull : names.length = 255
      · exact Or.inr (Or.inr (Or.inl ⟨rfl, htaken, hfull, if_pos hfull⟩))
      · exact Or.inr (Or.inr (Or.inr ⟨rfl, htaken, hfull, if_neg hfull⟩))
  · exact Or.inl ⟨hchars, by rw [Bool.not_eq_true] at hchars; rw [hchars]; rfl⟩

/-- **What content lines list**: words, no word twice, and no more of them than there are places. -/
structure Lists (lines : List (Nat × List Char)) (names : List String) : Prop where
  words : ∀ line ∈ lines, IsWord line.2
  inOrder : names = lines.map fun line => String.ofList line.2
  distinct : names.Nodup
  fits : names.length ≤ 255

/-- **Why a content line is refused** behind lines that listed some names. A name is surplus if it could
have been listed but all places are taken. -/
inductive Refused (earlier : List String) (number : Nat) (line : List Char) :
    DefinitionError → Prop where
  | malformed : ¬ IsWord line →
      Refused earlier number line (.malformed number .nativeName (String.ofList line))
  | repeated : String.ofList line ∈ earlier →
      Refused earlier number line (.duplicate (String.ofList line) number)
  | surplus : IsWord line → String.ofList line ∉ earlier → earlier.length = 255 →
      Refused earlier number line (.tooMany 255)

theorem addLine_eq_ok_iff {names longer : List String} {entry : Nat × List Char} :
    addLine names entry = .ok longer ↔
      IsWord entry.2 ∧ String.ofList entry.2 ∉ names ∧ names.length ≠ 255
        ∧ longer = names ++ [String.ofList entry.2] := by
  rcases addLine_cases names entry.1 entry.2 with
    ⟨hword, heq⟩ | ⟨hword, htaken, heq⟩ | ⟨hword, hfree, hfull, heq⟩ | ⟨hword, hfree, hplace, heq⟩
  · simp [heq, hword]
  · simp [heq, htaken]
  · simp [heq, hfull]
  · simp [heq, hword, hfree, hplace, eq_comm]

theorem addLine_eq_error_iff {names : List String} {number : Nat} {line : List Char}
    {e : DefinitionError} (hwords : ∀ name ∈ names, IsWord name.toList) :
    addLine names (number, line) = .error e ↔ Refused names number line e := by
  -- the name that is repeated is a word
  have hrepeated : String.ofList line ∈ names → IsWord line := fun h => by
    simpa using hwords _ h
  rcases addLine_cases names number line with
    ⟨hword, heq⟩ | ⟨hword, htaken, heq⟩ | ⟨hword, hfree, hfull, heq⟩ | ⟨hword, hfree, hplace, heq⟩
  all_goals rw [heq]
  · constructor
    · exact fun h => Except.error.inj h ▸ .malformed hword
    · rintro (_ | htaken | ⟨hword', _, _⟩)
      · rfl
      · exact absurd (hrepeated htaken) hword
      · exact absurd hword' hword
  · constructor
    · exact fun h => Except.error.inj h ▸ .repeated htaken
    · rintro (hword' | _ | ⟨_, hfree, _⟩)
      · exact absurd hword hword'
      · rfl
      · exact absurd htaken hfree
  · constructor
    · exact fun h => Except.error.inj h ▸ .surplus hword hfree hfull
    · rintro (hword' | htaken | _)
      · exact absurd hword hword'
      · exact absurd htaken hfree
      · rfl
  · constructor
    · exact fun h => absurd h (by simp)
    · rintro (hword' | htaken | ⟨_, _, hfull⟩)
      · exact absurd hword hword'
      · exact absurd htaken hfree
      · exact absurd hfull hplace

/-- **Lines are added to a list** one behind the other, as long as they are new words with a place. -/
theorem foldlM_addLine_eq_ok_iff {names added : List String} {lines : List (Nat × List Char)}
    (hdistinct : names.Nodup) (hfits : names.length ≤ 255) :
    lines.foldlM addLine names = .ok added ↔
      (∀ line ∈ lines, IsWord line.2) ∧ added = names ++ lines.map (fun line => String.ofList line.2)
        ∧ added.Nodup ∧ added.length ≤ 255 := by
  induction lines generalizing names with
  | nil =>
      constructor
      · intro h
        obtain rfl : names = added := Except.ok.inj h
        exact ⟨by simp, by simp, hdistinct, hfits⟩
      · rintro ⟨_, hadded, _⟩
        rw [hadded, List.map_nil, List.append_nil]
        rfl
  | cons line lines ih =>
      rw [Definition.foldlM_cons_eq_ok_iff, List.map_cons, List.append_cons]
      constructor
      · rintro ⟨next, hline, hlines⟩
        obtain ⟨hword, hfree, hplace, rfl⟩ := addLine_eq_ok_iff.mp hline
        have hdistinct' : (names ++ [String.ofList line.2]).Nodup :=
          (List.perm_append_singleton _ _).nodup_iff.mpr (List.nodup_cons.mpr ⟨hfree, hdistinct⟩)
        have hfits' : (names ++ [String.ofList line.2]).length ≤ 255 := by
          rw [List.length_append, List.length_singleton]
          omega
        obtain ⟨hwords, hrest⟩ := (ih hdistinct' hfits').mp hlines
        exact ⟨List.forall_mem_cons.mpr ⟨hword, hwords⟩, hrest⟩
      · rintro ⟨hwords, hadded, hdistinct', hfits'⟩
        obtain ⟨hword, hwords⟩ := List.forall_mem_cons.mp hwords
        have hnext : (names ++ [String.ofList line.2]).Nodup :=
          (List.nodup_append.mp (hadded ▸ hdistinct')).1
        have hfree : String.ofList line.2 ∉ names :=
          (List.nodup_cons.mp ((List.perm_append_singleton _ _).nodup_iff.mp hnext)).1
        have hlength : (names ++ [String.ofList line.2]).length ≤ added.length := by
          rw [hadded]
          exact (List.prefix_append _ _).length_le
        have hplace : names.length ≠ 255 := by
          rw [List.length_append, List.length_singleton] at hlength
          omega
        exact ⟨_, addLine_eq_ok_iff.mpr ⟨hword, hfree, hplace, rfl⟩,
          (ih hnext (Nat.le_trans hlength hfits')).mpr ⟨hwords, hadded, hdistinct', hfits'⟩⟩

theorem lists_iff {names : List String} {lines : List (Nat × List Char)} :
    lines.foldlM addLine [] = .ok names ↔ Lists lines names := by
  rw [foldlM_addLine_eq_ok_iff List.nodup_nil (Nat.zero_le _), List.nil_append]
  exact ⟨fun ⟨hwords, hnames, hdistinct, hfits⟩ => ⟨hwords, hnames, hdistinct, hfits⟩,
    fun h => ⟨h.words, h.inOrder, h.distinct, h.fits⟩⟩

theorem Lists.isWord {names : List String} {lines : List (Nat × List Char)} (h : Lists lines names) :
    ∀ name ∈ names, IsWord name.toList := by
  intro name hname
  rw [h.inOrder] at hname
  obtain ⟨line, hline, rfl⟩ := List.mem_map.mp hname
  rw [String.toList_ofList]
  exact h.words line hline

/--
**A list of names is accepted if its content lines are words, no two of them alike, and no more than
255.** The names are given in the order of the file. Any other list is answered with an error about
the first line that is no word, repeats a name or comes when all places are taken. The last of these
is said only of a line with which nothing else is wrong: behind 255 names a line that is no word is
still malformed, and one of the names is still a repetition.
-/
theorem name_lists_are_accepted_exactly (text : String) :
    (∀ number line, (number, line) ∈ Definition.contentLines text.toList ↔
        Definition.ContentLine text.toList number line)
      ∧ (Definition.contentLines text.toList).Pairwise (fun earlier later => earlier.1 < later.1)
      ∧ (∀ names, parse text = .ok names ↔ Lists (Definition.contentLines text.toList) names)
      ∧ (∀ e, parse text = .error e ↔
          ∃ before number line behind names,
            Definition.contentLines text.toList = before ++ (number, line) :: behind
              ∧ Lists before names ∧ Refused names number line e)
      ∧ ∀ limit, parse text = .error (.tooMany limit) ↔
          limit = 255 ∧ ∃ before number line behind names,
            Definition.contentLines text.toList = before ++ (number, line) :: behind
              ∧ Lists before names ∧ names.length = 255 ∧ IsWord line ∧ String.ofList line ∉ names := by
  have hparse : parse text = (Definition.contentLines text.toList).foldlM addLine [] :=
    addLines_eq_foldlM _ _
  have herror : ∀ e, parse text = .error e ↔
      ∃ before number line behind names,
        Definition.contentLines text.toList = before ++ (number, line) :: behind
          ∧ Lists before names ∧ Refused names number line e := by
    intro e
    rw [hparse, Definition.foldlM_eq_error_iff]
    constructor
    · rintro ⟨before, ⟨number, line⟩, behind, names, hlines, hbefore, hrefused⟩
      have hlists := lists_iff.mp hbefore
      exact ⟨before, number, line, behind, names, hlines, hlists,
        (addLine_eq_error_iff hlists.isWord).mp hrefused⟩
    · rintro ⟨before, number, line, behind, names, hlines, hlists, hrefused⟩
      exact ⟨before, (number, line), behind, names, hlines, lists_iff.mpr hlists,
        (addLine_eq_error_iff hlists.isWord).mpr hrefused⟩
  refine ⟨fun _ _ => Definition.mem_contentLines_iff, Definition.contentLines_pairwise _,
    fun names => by rw [hparse, lists_iff], herror, fun limit => ?_⟩
  rw [herror]
  constructor
  · rintro ⟨before, number, line, behind, names, hlines, hlists, hrefused⟩
    cases hrefused with
    | surplus hword hfree hfull =>
        exact ⟨rfl, before, number, line, behind, names, hlines, hlists, hfull, hword, hfree⟩
  · rintro ⟨rfl, before, number, line, behind, names, hlines, hlists, hfull, hword, hfree⟩
    exact ⟨before, number, line, behind, names, hlines, hlists, .surplus hword hfree hfull⟩

/-- The comment counts as a line, and the blanks around a name are no part of it. -/
example : parse "A_b\n// A_b\r\n\tA_b \nA1" = .error (.duplicate "A_b" 3) :=
  rfl

end NativeNames

end ScriptBridge
