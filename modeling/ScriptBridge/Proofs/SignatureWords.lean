import Mathlib.Data.List.Induction
import ScriptBridge.Signature

/-!
# The words that are signatures

Both readers of signatures accept a language and refuse everything else with the first thing
that is wrong. The languages are said here without the readers: a signature of a call is a run of
supplied values and then a run of written ones, a signature of a provided native is any word over
its six letters, and neither has more than `maxSlots` letters.

**What is wrong first.** A text that is refused for a character has a word in front of that
character which the character does not continue, and it is reported at the number of characters
in front of it, whatever comes behind it and however long the text is. A text that is refused for
its length is a word.

Positions count characters and not bytes: a text is read as the list of its characters.
-/

namespace ScriptBridge

/-! ## Letters -/

namespace SlotType

/-- A letter is read as the type that is written with it. -/
theorem ofChar?_eq_some {c : Char} {slot : SlotType} (h : ofChar? c = some slot) :
    c = slot.toChar := by
  unfold ofChar? at h
  split at h
  case h_8 => cases h
  all_goals
    cases h
    rfl

/-- A supplied value is written with a lower case letter. -/
theorem isLower_toChar (slot : SlotType) : slot.toChar.isLower = !slot.isReference := by
  cases slot <;> rfl

/-- A written value is written with an upper case letter. -/
theorem isUpper_toChar (slot : SlotType) : slot.toChar.isUpper = slot.isReference := by
  cases slot <;> rfl

theorem textRef_toChar (slot : SlotType) : (slot.toChar == 'S') = (slot == .textRef) := by
  cases slot <;> rfl

end SlotType

namespace Signature

/-- The letters of the supplied values. -/
def plainLetters : List Char := ['i', 'f', 's', 'a']

/-- The letters of the written values. -/
def referenceLetters : List Char := ['I', 'F', 'S']

/-- The letters of a provided native. -/
def providedLetters : List Char := ['i', 'f', 's', 'I', 'F', 'S']

theorem ofChar?_plain {c : Char} (h : c ∈ plainLetters) :
    ∃ slot, SlotType.ofChar? c = some slot ∧ slot.isReference = false := by
  simp only [plainLetters, List.mem_cons, List.not_mem_nil, or_false] at h
  rcases h with rfl | rfl | rfl | rfl <;> exact ⟨_, rfl, rfl⟩

theorem ofChar?_reference {c : Char} (h : c ∈ referenceLetters) :
    ∃ slot, SlotType.ofChar? c = some slot ∧ slot.isReference = true := by
  simp only [referenceLetters, List.mem_cons, List.not_mem_nil, or_false] at h
  rcases h with rfl | rfl | rfl <;> exact ⟨_, rfl, rfl⟩

theorem ofChar?_provided {c : Char} (h : c ∈ providedLetters) :
    ∃ slot, SlotType.ofChar? c = some slot ∧ slot ≠ .array := by
  simp only [providedLetters, List.mem_cons, List.not_mem_nil, or_false] at h
  rcases h with rfl | rfl | rfl | rfl | rfl | rfl <;> exact ⟨_, rfl, SlotType.noConfusion⟩

/-- A character outside both alphabets is no type at all. -/
theorem ofChar?_outside {c : Char} (hplain : c ∉ plainLetters) (href : c ∉ referenceLetters) :
    SlotType.ofChar? c = none := by
  cases h : SlotType.ofChar? c with
  | none => rfl
  | some slot =>
      rw [SlotType.ofChar?_eq_some h] at hplain href
      cases slot with
      | int | float | text | array => exact absurd (by decide) hplain
      | intRef | floatRef | textRef => exact absurd (by decide) href

/-- A character outside the alphabet of the provided natives is no type, or an array. -/
theorem ofChar?_outside_provided {c : Char} (h : c ∉ providedLetters) :
    SlotType.ofChar? c = none ∨ SlotType.ofChar? c = some .array := by
  cases hslot : SlotType.ofChar? c with
  | none => exact .inl rfl
  | some slot =>
      rw [SlotType.ofChar?_eq_some hslot] at h
      cases slot with
      | array => exact .inr rfl
      | int | float | text | intRef | floatRef | textRef => exact absurd (by decide) h

/-! ## Grammars -/

/-- **A grammar**: its words, and which character does not continue a word, for what reason. -/
structure Grammar where
  word : List Char → Prop
  refuses : List Char → Char → SignatureError → Prop

/-- **A signature of a call into the machine**: supplied values and then written ones. -/
def IsOutboundWord (cs : List Char) : Prop :=
  ∃ plain references, cs = plain ++ references ∧
    (∀ c ∈ plain, c ∈ plainLetters) ∧ ∀ c ∈ references, c ∈ referenceLetters

/-- **What cannot continue such a word**: a character of no alphabet, and a supplied value behind
a written one. -/
inductive OutboundRefusal (front : List Char) (c : Char) : SignatureError → Prop
  | character : c ∉ plainLetters → c ∉ referenceLetters →
      OutboundRefusal front c (.invalidCharacter c front.length)
  | order {d : Char} : c ∈ plainLetters → d ∈ front → d ∈ referenceLetters →
      OutboundRefusal front c (.plainAfterReference c front.length)

/-- **A signature of a provided native**: its letters, in any order. -/
def IsProvidedWord (cs : List Char) : Prop := ∀ c ∈ cs, c ∈ providedLetters

/-- **What cannot continue such a word**: a character that is not one of its letters. -/
inductive ProvidedRefusal (front : List Char) (c : Char) : SignatureError → Prop
  | character : c ∉ providedLetters → ProvidedRefusal front c (.invalidCharacter c front.length)

/-- The grammar of the calls into the machine. -/
def outbound : Grammar := ⟨IsOutboundWord, OutboundRefusal⟩

/-- The grammar of the provided natives. -/
def provided : Grammar := ⟨IsProvidedWord, ProvidedRefusal⟩

/-- **Why a text is no signature of a grammar.** The character that is reported is the first one
that does not continue a word, and the length is reported of a word only. -/
inductive Grammar.Fault (g : Grammar) (cs : List Char) : SignatureError → Prop
  | character {front back : List Char} {c : Char} {e : SignatureError} :
      cs = front ++ c :: back → g.word front → g.refuses front c e → g.Fault cs e
  | tooMany : g.word cs → maxSlots < cs.length →
      g.Fault cs (.tooManyArguments cs.length maxSlots)

/-- **What a signature says about the text that it was read from.** -/
structure Reads (cs : List Char) (s : Signature) : Prop where
  /-- It is written as it was read. -/
  written : s.toChars = cs
  /-- Lower case letters are values that the caller supplies. -/
  arguments : s.argumentCount = cs.countP Char.isLower
  /-- Upper case letters are values that the native writes. -/
  references : s.referenceCount = cs.countP Char.isUpper
  /-- A text that the native writes takes two arguments. -/
  physical : s.physicalCount = cs.length + cs.count 'S'

/-- **A reader is exact for a grammar.** -/
structure Exact (g : Grammar) (read : String → Except SignatureError Signature) : Prop where
  /-- It accepts the words of the grammar that are not too long, and no other text. -/
  accepts : ∀ text, (∃ s, read text = .ok s) ↔ g.word text.toList ∧ text.toList.length ≤ maxSlots
  /-- What it gives is the text again, with its arguments counted. -/
  reads : ∀ text s, read text = .ok s → Reads text.toList s
  /-- It reports an error exactly if that is what is wrong first. -/
  refuses : ∀ text e, read text = .error e ↔ g.Fault text.toList e

/-! ## Reading types -/

/-- The types of the letters among some characters. -/
def slotsOf (cs : List Char) : List SlotType := cs.filterMap SlotType.ofChar?

theorem slotsOf_cons {c : Char} {slot : SlotType} (h : SlotType.ofChar? c = some slot)
    (cs : List Char) : slotsOf (c :: cs) = slot :: slotsOf cs :=
  List.filterMap_cons_some h

theorem slotsOf_append (cs ds : List Char) : slotsOf (cs ++ ds) = slotsOf cs ++ slotsOf ds :=
  List.filterMap_append

/-- Letters are written as they were read. -/
theorem map_toChar_slotsOf : ∀ {cs : List Char}, (∀ c ∈ cs, (SlotType.ofChar? c).isSome) →
    (slotsOf cs).map SlotType.toChar = cs
  | [], _ => rfl
  | c :: cs, h => by
      obtain ⟨slot, hslot⟩ := Option.isSome_iff_exists.mp (h c List.mem_cons_self)
      have ih := map_toChar_slotsOf fun d hd => h d (List.mem_cons_of_mem c hd)
      rw [slotsOf_cons hslot, List.map_cons, ih, ← SlotType.ofChar?_eq_some hslot]

/-- **The counts of a signature are counts of its letters.** -/
theorem reads_of_letters {cs : List Char} (h : ∀ c ∈ cs, (SlotType.ofChar? c).isSome) :
    Reads cs ⟨slotsOf cs⟩ := by
  have hwritten := map_toChar_slotsOf h
  generalize slotsOf cs = slots at hwritten
  subst hwritten
  refine ⟨rfl, ?_, ?_, ?_⟩
  · rw [List.countP_map]
    exact List.countP_congr fun slot _ => by rw [Function.comp, SlotType.isLower_toChar]
  · rw [List.countP_map]
    exact List.countP_congr fun slot _ => by rw [Function.comp, SlotType.isUpper_toChar]
  · rw [List.length_map, List.count, List.countP_map]
    refine congrArg (slots.length + ·) (List.countP_congr fun slot _ => ?_)
    rw [Function.comp, SlotType.textRef_toChar]

/-! ## One argument for both readers -/

/-- What a reader of characters has to do for its grammar. -/
structure Scans (g : Grammar) (scan : List Char → Except SignatureError (List SlotType)) :
    Prop where
  /-- A word has letters only. -/
  letters : ∀ {cs : List Char}, g.word cs → ∀ c ∈ cs, (SlotType.ofChar? c).isSome
  /-- The empty text is a word. -/
  empty : g.word []
  /-- A character continues a word, or is refused behind it. -/
  continues : ∀ {front : List Char} (c : Char), g.word front →
    g.word (front ++ [c]) ∨ ∃ e, g.refuses front c e
  /-- A word is read to its end. -/
  word : ∀ {cs : List Char}, g.word cs → scan cs = .ok (slotsOf cs)
  /-- Nothing behind a refused character is looked at. -/
  stops : ∀ {front back : List Char} {c : Char} {e : SignatureError}, g.word front →
    g.refuses front c e → scan (front ++ c :: back) = .error e

variable {g : Grammar} {scan : List Char → Except SignatureError (List SlotType)}

/-- **A text is a word or has a first character that does not continue one.** The induction takes
the characters from the last one: what is wrong in front of it stays wrong. -/
theorem Scans.word_or_refused (h : Scans g scan) (cs : List Char) :
    g.word cs ∨ ∃ front c back e, cs = front ++ c :: back ∧ g.word front ∧ g.refuses front c e := by
  induction cs using List.reverseRecOn with
  | nil => exact .inl h.empty
  | append_singleton cs last ih =>
      rcases ih with hword | ⟨front, c, back, e, rfl, hfront, href⟩
      · rcases h.continues last hword with hword' | ⟨e, href⟩
        · exact .inl hword'
        · exact .inr ⟨cs, last, [], e, rfl, hword, href⟩
      · refine .inr ⟨front, c, back ++ [last], e, ?_, hfront, href⟩
        rw [List.append_assoc, List.cons_append]

theorem slotsOf_length {cs : List Char} (h : ∀ c ∈ cs, (SlotType.ofChar? c).isSome) :
    (slotsOf cs).length = cs.length := by
  rw [← List.length_map (f := SlotType.toChar), map_toChar_slotsOf h]

/-- What is left to say about a word is its length. -/
theorem Scans.bounded_word (h : Scans g scan) {cs : List Char} (hword : g.word cs) :
    bounded (slotsOf cs) = if maxSlots < cs.length
      then .error (.tooManyArguments cs.length maxSlots) else .ok ⟨slotsOf cs⟩ := by
  unfold bounded
  rw [slotsOf_length (h.letters hword)]

/-- **A reader that scans for its grammar and then looks at the length is exact.** -/
theorem Scans.exact (h : Scans g scan) {read : String → Except SignatureError Signature}
    (hread : ∀ text, read text = match scan text.toList with
      | .ok slots => bounded slots
      | .error e => .error e) : Exact g read := by
  have hword : ∀ {text : String}, g.word text.toList → read text =
      if maxSlots < text.toList.length then .error (.tooManyArguments text.toList.length maxSlots)
        else .ok ⟨slotsOf text.toList⟩ := by
    intro text hw
    rw [hread, h.word hw]
    exact h.bounded_word hw
  have hrefused : ∀ {text : String} {front back : List Char} {c : Char} {e : SignatureError},
      text.toList = front ++ c :: back → g.word front → g.refuses front c e →
      read text = .error e := by
    intro text front back c e htext hfront href
    rw [hread, htext, h.stops hfront href]
  have hok : ∀ {text : String} {s : Signature}, read text = .ok s →
      g.word text.toList ∧ text.toList.length ≤ maxSlots ∧ s = ⟨slotsOf text.toList⟩ := by
    intro text s hs
    rcases h.word_or_refused text.toList with hw | ⟨front, c, back, e, htext, hfront, href⟩
    · rw [hword hw] at hs
      by_cases hlong : maxSlots < text.toList.length
      · rw [if_pos hlong] at hs
        cases hs
      · rw [if_neg hlong] at hs
        cases hs
        exact ⟨hw, Nat.le_of_not_lt hlong, rfl⟩
    · rw [hrefused htext hfront href] at hs
      cases hs
  refine ⟨fun text => ⟨?_, ?_⟩, ?_, fun text e => ⟨?_, ?_⟩⟩
  · rintro ⟨s, hs⟩
    exact ⟨(hok hs).1, (hok hs).2.1⟩
  · rintro ⟨hw, hshort⟩
    exact ⟨_, (hword hw).trans (if_neg (Nat.not_lt.mpr hshort))⟩
  · intro text s hs
    obtain ⟨hw, _, rfl⟩ := hok hs
    exact reads_of_letters (h.letters hw)
  · intro he
    rcases h.word_or_refused text.toList with hw | ⟨front, c, back, e', htext, hfront, href⟩
    · rw [hword hw] at he
      by_cases hlong : maxSlots < text.toList.length
      · rw [if_pos hlong] at he
        cases he
        exact .tooMany hw hlong
      · rw [if_neg hlong] at he
        cases he
    · rw [hrefused htext hfront href] at he
      cases he
      exact .character htext hfront href
  · intro hfault
    cases hfault with
    | character htext hfront href => exact hrefused htext hfront href
    | tooMany hw hlong => exact (hword hw).trans (if_pos hlong)

/-! ## Calls into the machine -/

/-- Supplied values are read one by one while no written one came before them. -/
theorem outboundSlots_plain : ∀ {plain : List Char}, (∀ c ∈ plain, c ∈ plainLetters) →
    ∀ (rest : List Char) (position : Nat), outboundSlots (plain ++ rest) position false =
      (slotsOf plain ++ ·) <$> outboundSlots rest (position + plain.length) false
  | [], _, rest, position => (id_map (outboundSlots rest position false)).symm
  | c :: plain, h, rest, position => by
      obtain ⟨slot, hslot, hkind⟩ := ofChar?_plain (h c List.mem_cons_self)
      have ih := outboundSlots_plain (fun d hd => h d (List.mem_cons_of_mem c hd)) rest
        (position + 1)
      rw [List.cons_append, outboundSlots, hslot]
      simp only [hkind, Bool.false_and, Bool.false_or, Bool.false_eq_true, if_false]
      rw [ih, slotsOf_cons hslot, List.length_cons, Nat.add_right_comm, Nat.add_assoc]
      cases outboundSlots rest (position + (plain.length + 1)) false <;> rfl

/-- Written values are read one by one, and behind the first of them no supplied one is allowed. -/
theorem outboundSlots_references : ∀ {references : List Char},
    (∀ c ∈ references, c ∈ referenceLetters) →
    ∀ (rest : List Char) (position : Nat) (seen : Bool),
      outboundSlots (references ++ rest) position seen = (slotsOf references ++ ·) <$>
        outboundSlots rest (position + references.length) (seen || !references.isEmpty)
  | [], _, rest, position, seen => by
      rw [List.isEmpty_nil, Bool.not_true, Bool.or_false]
      exact (id_map (outboundSlots rest position seen)).symm
  | c :: references, h, rest, position, seen => by
      obtain ⟨slot, hslot, hkind⟩ := ofChar?_reference (h c List.mem_cons_self)
      have ih := outboundSlots_references (fun d hd => h d (List.mem_cons_of_mem c hd)) rest
        (position + 1) true
      rw [List.cons_append, outboundSlots, hslot]
      simp only [hkind, Bool.not_true, Bool.and_false, Bool.or_true, Bool.false_eq_true, if_false]
      rw [ih, slotsOf_cons hslot, List.length_cons, Nat.add_right_comm, Nat.add_assoc,
        Bool.true_or, List.isEmpty_cons, Bool.not_false, Bool.or_true]
      cases outboundSlots rest (position + (references.length + 1)) true <;> rfl

/-- **Behind a word, the reader knows the position and whether a written value came.** -/
theorem outboundSlots_word {plain references : List Char} (hplain : ∀ c ∈ plain, c ∈ plainLetters)
    (href : ∀ c ∈ references, c ∈ referenceLetters) (rest : List Char) :
    outboundSlots (plain ++ references ++ rest) 0 false =
      (slotsOf (plain ++ references) ++ ·) <$>
        outboundSlots rest (plain ++ references).length (!references.isEmpty) := by
  rw [List.append_assoc, outboundSlots_plain hplain, outboundSlots_references href,
    Nat.zero_add, ← List.length_append, Bool.false_or, slotsOf_append]
  cases outboundSlots rest (plain ++ references).length (!references.isEmpty) with
  | error e => rfl
  | ok slots => exact congrArg Except.ok (List.append_assoc _ _ _).symm

theorem not_reference_of_plain {c : Char} (h : c ∈ plainLetters) : c ∉ referenceLetters := by
  intro href
  obtain ⟨slot, hslot, hkind⟩ := ofChar?_plain h
  obtain ⟨slot', hslot', hkind'⟩ := ofChar?_reference href
  cases hslot.symm.trans hslot'
  cases hkind.symm.trans hkind'

/-- A refused character stops the reader behind a word. -/
theorem outboundSlots_refused {plain references : List Char}
    (hplain : ∀ c ∈ plain, c ∈ plainLetters) (href : ∀ c ∈ references, c ∈ referenceLetters)
    {c : Char} {e : SignatureError} (h : OutboundRefusal (plain ++ references) c e)
    (back : List Char) :
    outboundSlots (c :: back) (plain ++ references).length (!references.isEmpty) = .error e := by
  cases h with
  | character hp hr => rw [outboundSlots, ofChar?_outside hp hr]
  | @order d hc hd hdref =>
      obtain ⟨slot, hslot, hkind⟩ := ofChar?_plain hc
      have hmem : d ∈ references := by
        rcases List.mem_append.mp hd with hd' | hd'
        · exact absurd hdref (not_reference_of_plain (hplain d hd'))
        · exact hd'
      have hseen : references.isEmpty = false := by
        cases references with
        | nil => cases hmem
        | cons _ _ => rfl
      rw [outboundSlots, hslot]
      simp only [hseen, hkind, Bool.not_false, Bool.and_self, if_true]

theorem scans_outbound : Scans outbound (outboundSlots · 0 false) where
  letters := by
    rintro _ ⟨plain, references, rfl, hplain, href⟩ c hc
    rcases List.mem_append.mp hc with hc' | hc'
    · obtain ⟨slot, hslot, _⟩ := ofChar?_plain (hplain c hc')
      exact Option.isSome_of_eq_some hslot
    · obtain ⟨slot, hslot, _⟩ := ofChar?_reference (href c hc')
      exact Option.isSome_of_eq_some hslot
  empty := ⟨[], [], rfl, fun _ h => absurd h List.not_mem_nil, fun _ h => absurd h List.not_mem_nil⟩
  continues := by
    rintro _ c ⟨plain, references, rfl, hplain, href⟩
    by_cases hr : c ∈ referenceLetters
    · have hlonger : ∀ d ∈ references ++ [c], d ∈ referenceLetters :=
        List.forall_mem_append.mpr ⟨href, List.forall_mem_singleton.mpr hr⟩
      exact .inl ⟨plain, references ++ [c], List.append_assoc _ _ _, hplain, hlonger⟩
    · by_cases hp : c ∈ plainLetters
      · cases references with
        | nil =>
            have hlonger : ∀ d ∈ plain ++ [c], d ∈ plainLetters :=
              List.forall_mem_append.mpr ⟨hplain, List.forall_mem_singleton.mpr hp⟩
            exact .inl ⟨plain ++ [c], [], by rw [List.append_nil, List.append_nil], hlonger, href⟩
        | cons d references =>
            exact .inr ⟨_, .order hp (List.mem_append_right plain List.mem_cons_self)
              (href d List.mem_cons_self)⟩
      · exact .inr ⟨_, .character hp hr⟩
  word := by
    rintro _ ⟨plain, references, rfl, hplain, href⟩
    have h := outboundSlots_word hplain href []
    rw [List.append_nil, outboundSlots] at h
    exact h.trans (congrArg Except.ok (List.append_nil _))
  stops := by
    rintro _ back c e ⟨plain, references, rfl, hplain, href⟩ h
    show outboundSlots (plain ++ references ++ c :: back) 0 false = _
    rw [outboundSlots_word hplain href, outboundSlots_refused hplain href h back]
    rfl

/-! ## Provided natives -/

/-- Letters are read one by one. -/
theorem providedSlots_word : ∀ {cs : List Char}, IsProvidedWord cs →
    ∀ (rest : List Char) (position : Nat), providedSlots (cs ++ rest) position =
      (slotsOf cs ++ ·) <$> providedSlots rest (position + cs.length)
  | [], _, rest, position => (id_map (providedSlots rest position)).symm
  | c :: cs, h, rest, position => by
      obtain ⟨slot, hslot, hkind⟩ := ofChar?_provided (h c List.mem_cons_self)
      have ih := providedSlots_word (fun d hd => h d (List.mem_cons_of_mem c hd)) rest
        (position + 1)
      have hstep : providedSlots (c :: (cs ++ rest)) position =
          (slot :: ·) <$> providedSlots (cs ++ rest) (position + 1) := by
        rw [providedSlots, hslot]
        cases slot with
        | array => exact absurd rfl hkind
        | int | float | text | intRef | floatRef | textRef =>
            cases providedSlots (cs ++ rest) (position + 1) <;> rfl
      rw [List.cons_append, hstep, ih, slotsOf_cons hslot, List.length_cons, Nat.add_right_comm,
        Nat.add_assoc]
      cases providedSlots rest (position + (cs.length + 1)) <;> rfl

theorem scans_provided : Scans provided (providedSlots · 0) where
  letters := by
    intro cs h c hc
    obtain ⟨slot, hslot, _⟩ := ofChar?_provided (h c hc)
    exact Option.isSome_of_eq_some hslot
  empty := fun _ h => absurd h List.not_mem_nil
  continues := by
    intro front c h
    by_cases hc : c ∈ providedLetters
    · exact .inl (List.forall_mem_append.mpr ⟨h, List.forall_mem_singleton.mpr hc⟩)
    · exact .inr ⟨_, .character hc⟩
  word := by
    intro cs h
    have hread := providedSlots_word h [] 0
    rw [List.append_nil, providedSlots] at hread
    exact hread.trans (congrArg Except.ok (List.append_nil _))
  stops := by
    intro front back c e hfront h
    show providedSlots (front ++ c :: back) 0 = _
    rw [providedSlots_word hfront, Nat.zero_add]
    cases h with
    | character hc =>
        rcases ofChar?_outside_provided hc with hslot | hslot
        · rw [providedSlots, hslot]
          rfl
        · rw [providedSlots, hslot]
          rfl

/-! ## Both readers -/

/-- **Both readers of signatures are exact for their grammars.** -/
theorem signature_readers_exact : Exact outbound parse ∧ Exact provided parseProvided :=
  ⟨scans_outbound.exact fun _ => rfl, scans_provided.exact fun _ => rfl⟩

/-- The first character that does not continue a word is reported, and not the worse one behind. -/
example : parse "iSsé" = .error (.plainAfterReference 's' 2) ∧
    parseProvided "iSsaé" = .error (.invalidCharacter 'a' 3) := ⟨rfl, rfl⟩

end Signature

end ScriptBridge
