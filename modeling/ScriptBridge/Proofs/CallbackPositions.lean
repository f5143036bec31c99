import ScriptBridge.Definition.Index
import ScriptBridge.Proofs.DefinitionFiles

/-!
# Positions stand for callbacks

A row of callbacks and an index of their names are changed one after the other, and whoever has asked for
a position keeps the bare number. What holds the two parts together is `Coherent`: the index leads from a
name to a position exactly if the callback at this position has the name. So a name that is taken is one
that the index knows, and the next position is always one that the index leads to from nowhere.

An insertion keeps this (`Coherent.insert`), and changes nothing or puts one callback behind all others
(`insert_cases`). From there on everything is said by induction on the insertions: which of them are in the
row, and that no position ever changes its callback. A file is read by the same insertions, none of which is
refused (`exists_insertAll_of_addLines`).

In the end nothing but the row counts: it is the table that the rest of the library works with.
-/

namespace ScriptBridge

namespace IndexedCallbacks

variable {kept : IndexedCallbacks} {callback : Callback}

/-- **The index and the row agree.** -/
def Coherent (kept : IndexedCallbacks) : Prop :=
  ∀ name position, kept.position? name = some position ↔
    ∃ callback, kept.get? position = some callback ∧ callback.name = name

/-- **The callbacks that were added**, given what was answered to each insertion. -/
def added (callbacks : List Callback) (answers : List Bool) : List Callback :=
  ((callbacks.zip answers).filter (·.2)).map (·.1)

/-! ## One insertion -/

/-- **An insertion is refused and changes nothing**, or it puts the callback at the next position. -/
theorem insert_cases (kept : IndexedCallbacks) (callback : Callback) :
    ((∃ position, kept.position? callback.name = some position)
        ∧ kept.insert callback = (false, kept))
      ∨ (kept.position? callback.name = none
        ∧ kept.insert callback = (true, (kept.note callback.name).push callback)) := by
  unfold insert
  cases hposition : kept.position? callback.name with
  | some position => exact Or.inl ⟨⟨position, rfl⟩, rfl⟩
  | none => exact Or.inr ⟨rfl, rfl⟩

theorem eq_of_insert_refused (kept : IndexedCallbacks) (callback : Callback)
    (h : (kept.insert callback).1 = false) : (kept.insert callback).2 = kept := by
  rcases kept.insert_cases callback with ⟨_, hinsert⟩ | ⟨_, hinsert⟩
  · rw [hinsert]
  · rw [hinsert] at h
    cases h

/-- The callback at a position behind an insertion is the new one or was there before. -/
theorem get?_push {name : String} {position : Nat} {found : Callback} :
    ((kept.note name).push callback).get? position = some found ↔
      kept.get? position = some found ∨ (position = kept.size ∧ callback = found) := by
  show (kept.callbacks ++ [callback])[position]? = some found ↔
    kept.callbacks[position]? = some found ∨ (position = kept.callbacks.length ∧ callback = found)
  rcases Nat.lt_trichotomy position kept.callbacks.length with hlt | rfl | hgt
  · rw [List.getElem?_append_left hlt]
    exact (or_iff_left fun h => Nat.ne_of_lt hlt h.1).symm
  · rw [List.getElem?_concat_length, List.getElem?_eq_none (Nat.le_refl _)]
    simp
  · rw [List.getElem?_eq_none (by rw [List.length_append, List.length_singleton]; omega),
      List.getElem?_eq_none (Nat.le_of_lt hgt)]
    simp only [reduceCtorEq, false_or, false_iff, not_and]
    omega

theorem position?_push {name other : String} :
    ((kept.note name).push callback).position? other =
      if other = name then some kept.size else kept.position? other := by
  show List.lookup other ((name, kept.size) :: kept.index) = _
  rw [List.lookup_cons]
  by_cases hname : other = name
  · rw [if_pos hname, beq_iff_eq.mpr hname]
  · rw [if_neg hname, beq_eq_false_iff_ne.mpr hname]
    rfl

namespace Coherent

theorem empty : Coherent {} := by
  intro name position
  constructor
  · intro h
    cases h
  · rintro ⟨callback, h, _⟩
    cases h

/-- A position that is handed out lies in the row. -/
theorem get?_isSome (h : kept.Coherent) {name : String} {position : Nat}
    (hposition : kept.position? name = some position) :
    ∃ callback, kept.get? position = some callback ∧ callback.name = name :=
  (h name position).mp hposition

/-- No callback in the row has a name that the index does not know. -/
theorem name_ne (h : kept.Coherent) {name : String} {position : Nat} {found : Callback}
    (hnone : kept.position? name = none) (hfound : kept.get? position = some found) :
    found.name ≠ name := by
  intro hname
  have hposition := (h name position).mpr ⟨found, hfound, hname⟩
  rw [hnone] at hposition
  cases hposition

/-- **An insertion keeps the two parts in agreement.** -/
theorem insert (h : kept.Coherent) (callback : Callback) : (kept.insert callback).2.Coherent := by
  rcases kept.insert_cases callback with ⟨_, hinsert⟩ | ⟨hfree, hinsert⟩
  · rw [hinsert]
    exact h
  rw [hinsert]
  intro name position
  simp only [position?_push, get?_push]
  by_cases hname : name = callback.name
  · rw [if_pos hname, Option.some.injEq]
    subst hname
    constructor
    · rintro rfl
      exact ⟨callback, Or.inr ⟨rfl, rfl⟩, rfl⟩
    · rintro ⟨found, hold | ⟨rfl, _⟩, hfound⟩
      · exact absurd hfound (h.name_ne hfree hold)
      · rfl
  · rw [if_neg hname, h]
    refine exists_congr fun found => and_congr_left fun hfound => ?_
    refine (or_iff_left ?_).symm
    rintro ⟨_, rfl⟩
    exact hname hfound.symm

/-- The names of the callbacks are pairwise distinct. -/
theorem nodup (h : kept.Coherent) : (kept.callbacks.map (·.name)).Nodup := by
  refine List.pairwise_iff_getElem.mpr fun i j hi hj hlt heq => ?_
  rw [List.getElem_map, List.getElem_map] at heq
  rw [List.length_map] at hi hj
  have hfirst := (h _ i).mpr ⟨_, List.getElem?_eq_getElem hi, heq⟩
  have hsecond := (h _ j).mpr ⟨_, List.getElem?_eq_getElem hj, rfl⟩
  rw [hfirst] at hsecond
  exact Nat.ne_of_lt hlt (Option.some.inj hsecond)

/-- **A look-up finds what is at the position under the name**, and never leaves the row. -/
theorem lookUp (h : kept.Coherent) (name : String) :
    (kept.position? name = none ∧ kept.lookUp name = .missing)
      ∨ ∃ position callback, kept.position? name = some position
        ∧ kept.get? position = some callback ∧ kept.lookUp name = .found callback := by
  unfold IndexedCallbacks.lookUp
  cases hposition : kept.position? name with
  | none => exact Or.inl ⟨rfl, rfl⟩
  | some position =>
      obtain ⟨callback, hcallback, _⟩ := h.get?_isSome hposition
      exact Or.inr ⟨position, callback, rfl, hcallback, by simp only [hcallback]⟩

/-- An insertion is refused exactly if a callback has the name already. -/
theorem insert_refused_iff (h : kept.Coherent) (callback : Callback) :
    (kept.insert callback).1 = false ↔
      ∃ position taken, kept.get? position = some taken ∧ taken.name = callback.name := by
  rcases kept.insert_cases callback with ⟨⟨position, htaken⟩, hinsert⟩ | ⟨hfree, hinsert⟩
  · rw [hinsert]
    exact iff_of_true rfl ⟨position, h.get?_isSome htaken⟩
  · rw [hinsert]
    refine iff_of_false Bool.false_ne_true.symm ?_
    rintro ⟨position, taken, htaken, hname⟩
    exact h.name_ne hfree htaken hname

/-- The index answers what a search through the row does. -/
theorem position?_table (h : kept.Coherent) (name : String) :
    kept.table.position? name = kept.position? name := by
  refine Option.ext fun position => ?_
  constructor
  · intro hposition
    exact (h name position).mpr (CallbackTable.get?_of_position? hposition)
  · intro hposition
    obtain ⟨callback, hcallback, hname⟩ := h.get?_isSome hposition
    have htaken : (kept.table.position? name).isSome = true :=
      CallbackTable.position?_isSome_iff.mpr (List.mem_map.mpr
        ⟨callback, List.mem_of_getElem? hcallback, hname⟩)
    obtain ⟨other, hother⟩ := Option.isSome_iff_exists.mp htaken
    have hsame := (h name other).mpr (CallbackTable.get?_of_position? hother)
    rw [hother, ← hsame, hposition]

theorem lookUp_table (h : kept.Coherent) (name : String) :
    kept.lookUp name = (kept.table.find? name).elim .missing .found := by
  unfold CallbackTable.find?
  rw [h.position?_table]
  rcases h.lookUp name with ⟨hnone, hlookUp⟩ | ⟨position, callback, hposition, hcallback, hlookUp⟩
  · rw [hlookUp, hnone]
    rfl
  · rw [hlookUp, hposition]
    show _ = (kept.get? position).elim _ _
    rw [hcallback]
    rfl

end Coherent

/-! ## Any number of insertions -/

theorem insertAll_cons (kept : IndexedCallbacks) (callback : Callback) (calls : List Callback) :
    kept.insertAll (callback :: calls) =
      ((kept.insert callback).1 :: ((kept.insert callback).2.insertAll calls).1,
        ((kept.insert callback).2.insertAll calls).2) := rfl

theorem insertAll_append (kept : IndexedCallbacks) (first second : List Callback) :
    kept.insertAll (first ++ second) =
      ((kept.insertAll first).1 ++ ((kept.insertAll first).2.insertAll second).1,
        ((kept.insertAll first).2.insertAll second).2) := by
  induction first generalizing kept with
  | nil => rfl
  | cons callback first ih =>
      rw [List.cons_append, insertAll_cons, ih, insertAll_cons]
      rfl

theorem Coherent.insertAll (h : kept.Coherent) (calls : List Callback) :
    (kept.insertAll calls).2.Coherent := by
  induction calls generalizing kept with
  | nil => exact h
  | cons callback calls ih => exact ih (h.insert callback)

/-- **The row grows by the callbacks that were added**, in their order. -/
theorem callbacks_insertAll (kept : IndexedCallbacks) (calls : List Callback) :
    (kept.insertAll calls).2.callbacks = kept.callbacks ++ added calls (kept.insertAll calls).1 := by
  induction calls generalizing kept with
  | nil => exact (List.append_nil _).symm
  | cons callback calls ih =>
      rw [insertAll_cons]
      rcases kept.insert_cases callback with ⟨_, hinsert⟩ | ⟨_, hinsert⟩
      · rw [hinsert]
        exact ih kept
      · rw [hinsert]
        refine (ih _).trans ?_
        show kept.callbacks ++ [callback] ++ _ = kept.callbacks ++ (callback :: _)
        rw [List.append_assoc]
        rfl

theorem added_replicate (callbacks : List Callback) :
    added callbacks (List.replicate callbacks.length true) = callbacks := by
  induction callbacks with
  | nil => rfl
  | cons callback callbacks ih => exact congrArg (callback :: ·) ih

/-- A callback stays at its position. -/
theorem get?_insertAll {position : Nat} {found : Callback} (h : kept.get? position = some found)
    (calls : List Callback) : (kept.insertAll calls).2.get? position = some found := by
  show (kept.insertAll calls).2.callbacks[position]? = some found
  rw [callbacks_insertAll]
  exact List.getElem?_append_left (List.getElem?_eq_some_iff.mp h).1 |>.trans h

/-! ## The table that is kept -/

theorem table_insert (h : kept.Coherent) (callback : Callback) :
    (kept.table.insert? callback).isSome = (kept.insert callback).1
      ∧ (kept.table.insert? callback).getD kept.table = (kept.insert callback).2.table := by
  unfold CallbackTable.insert?
  rw [h.position?_table]
  rcases kept.insert_cases callback with ⟨⟨position, htaken⟩, hinsert⟩ | ⟨hfree, hinsert⟩
  · rw [htaken, hinsert]
    exact ⟨rfl, rfl⟩
  · rw [hfree, hinsert]
    exact ⟨rfl, rfl⟩

theorem table_insertAll (h : kept.Coherent) (calls : List Callback) :
    kept.table.insertAll calls = ((kept.insertAll calls).1, (kept.insertAll calls).2.table) := by
  induction calls generalizing kept with
  | nil => rfl
  | cons callback calls ih =>
      obtain ⟨hanswer, htable⟩ := table_insert h callback
      rw [CallbackTable.insertAll, hanswer, htable, ih (h.insert callback), insertAll_cons]

/-! ## Files -/

/-- **A file is read by insertions**, one for each content line, and none of them is refused. -/
theorem exists_insertAll_of_addLines {start : IndexedCallbacks} {lines : List (Nat × List Char)}
    (h : start.addLines lines = .ok kept) :
    ∃ declared,
      List.Forall₂ (fun line callback => Declaration.parse line.2 = .ok callback) lines declared
        ∧ start.insertAll declared = (List.replicate declared.length true, kept) := by
  induction lines generalizing start with
  | nil =>
      obtain rfl := Except.ok.inj h
      exact ⟨[], .nil, rfl⟩
  | cons line lines ih =>
      unfold addLines at h
      cases hparse : Declaration.parse line.2 with
      | error problem =>
          simp only [hparse] at h
          cases h
      | ok callback =>
          simp only [hparse] at h
          rcases start.insert_cases callback with ⟨_, hinsert⟩ | ⟨_, hinsert⟩
          · simp only [hinsert] at h
            cases h
          · simp only [hinsert] at h
            obtain ⟨declared, hparsed, hinserted⟩ := ih h
            refine ⟨callback :: declared, .cons hparse hparsed, ?_⟩
            rw [insertAll_cons, hinsert, hinserted]
            rfl

/-- Reading a file gives the same table, or the same error, with an index and without one. -/
theorem table_addLines (h : kept.Coherent) (lines : List (Nat × List Char)) :
    kept.table.addLines lines = (kept.addLines lines).map table := by
  induction lines generalizing kept with
  | nil => rfl
  | cons line lines ih =>
      rw [CallbackTable.addLines, addLines]
      cases Declaration.parse line.2 with
      | error problem => rfl
      | ok callback =>
          have htable := table_insert h callback
          have hnext := h.insert callback
          dsimp only
          rcases kept.insert_cases callback with ⟨_, hinsert⟩ | ⟨_, hinsert⟩
          · rw [hinsert] at htable ⊢
            rw [Option.isSome_eq_false_iff.mp htable.1 |> Option.isNone_iff_eq_none.mp]
            rfl
          · rw [hinsert] at htable hnext ⊢
            obtain ⟨longer, hlonger⟩ := Option.isSome_iff_exists.mp htable.1
            rw [hlonger] at htable ⊢
            obtain rfl : longer = _ := htable.2
            exact ih hnext

/-- **Whatever a table starts with was inserted into an empty one**: nothing at all, or what the content
lines of a file declare. -/
theorem exists_insertAll_of_start {start : IndexedCallbacks}
    (h : start = {} ∨ ∃ text, parse text = .ok start) :
    ∃ declared : List Callback,
      (start = {} ∧ declared = []
          ∨ ∃ text, parse text = .ok start ∧ CallbackTable.parse text = .ok start.table
            ∧ CallbackTable.Declares (Definition.contentLines text.toList) declared)
        ∧ insertAll {} declared = (List.replicate declared.length true, start) := by
  rcases h with rfl | ⟨text, hparse⟩
  · exact ⟨[], Or.inl ⟨rfl, rfl⟩, rfl⟩
  · obtain ⟨declared, hparsed, hinserted⟩ := exists_insertAll_of_addLines hparse
    have htable : CallbackTable.parse text = .ok start.table := by
      have h := table_addLines Coherent.empty (Definition.contentLines text.toList)
      rw [show addLines {} _ = _ from hparse] at h
      exact h
    have hrow := callbacks_insertAll {} declared
    rw [hinserted, added_replicate] at hrow
    have hcoherent := Coherent.empty.insertAll declared
    rw [hinserted] at hcoherent
    have hdistinct := hcoherent.nodup
    rw [show start.callbacks = declared from hrow] at hdistinct
    exact ⟨declared, Or.inr ⟨text, hparse, htable, hparsed, hdistinct⟩, hinserted⟩

/--
**A position stands for one callback, for good.** Callbacks are added, in any order and under any names,
to no table at all or to one that was read from a file. Then:

* the index leads from a name to a position exactly if the callback at this position has the name, no two
  callbacks share a name, and a look-up by name finds what is at the position under the name. So it never
  leaves the row;
* all callbacks were added one behind the other, those of the file first, and the one at a position is the
  one whose insertion was the first, second or later one to succeed, as the position says;
* an insertion fails exactly if a callback has the name already, and then changes nothing;
* whatever is added later, a position that was handed out for a name is still the one for this name, and
  the callback there is the same;
* a table without an index answers every insertion and every question by name as this one does.
-/
theorem positions_stand_for_callbacks (start : IndexedCallbacks)
    (hstart : start = {} ∨ ∃ text, parse text = .ok start) (calls : List Callback) :
    let answers := (start.insertAll calls).1
    let kept := (start.insertAll calls).2
    (∀ name position, kept.position? name = some position ↔
        ∃ callback, kept.get? position = some callback ∧ callback.name = name)
      ∧ (kept.callbacks.map (·.name)).Nodup
      ∧ (∀ name, (kept.position? name = none ∧ kept.lookUp name = .missing)
        ∨ ∃ position callback, kept.position? name = some position
          ∧ kept.get? position = some callback ∧ kept.lookUp name = .found callback)
      ∧ (∃ declared : List Callback,
        (start = {} ∧ declared = []
            ∨ ∃ text, parse text = .ok start ∧ CallbackTable.parse text = .ok start.table
              ∧ CallbackTable.Declares (Definition.contentLines text.toList) declared)
          ∧ insertAll {} (declared ++ calls) = (List.replicate declared.length true ++ answers, kept)
          ∧ ∀ position, kept.get? position =
            (added (declared ++ calls) (List.replicate declared.length true ++ answers))[position]?)
      ∧ (∀ callback,
        ((kept.insert callback).1 = false ↔
            ∃ position taken, kept.get? position = some taken ∧ taken.name = callback.name)
          ∧ ((kept.insert callback).1 = false → (kept.insert callback).2 = kept))
      ∧ (∀ (later : List Callback) (name : String) (position : Nat),
        kept.position? name = some position →
          (kept.insertAll later).2.position? name = some position
            ∧ (kept.insertAll later).2.get? position = kept.get? position)
      ∧ start.table.insertAll calls = (answers, kept.table)
      ∧ ∀ name, kept.table.position? name = kept.position? name
        ∧ kept.lookUp name = (kept.table.find? name).elim .missing .found := by
  intro answers kept
  obtain ⟨declared, hdeclared, hinserted⟩ := exists_insertAll_of_start hstart
  have hopened : start.Coherent := by
    have h := Coherent.empty.insertAll declared
    rwa [hinserted] at h
  have hkept : kept.Coherent := hopened.insertAll calls
  have hwhole : insertAll {} (declared ++ calls) =
      (List.replicate declared.length true ++ answers, kept) := by
    rw [insertAll_append, hinserted]
  refine ⟨hkept, hkept.nodup, hkept.lookUp, ⟨declared, hdeclared, hwhole, fun position => ?_⟩,
    fun callback => ?_, fun later name position hposition => ?_, table_insertAll hopened calls,
    fun name => ⟨hkept.position?_table name, hkept.lookUp_table name⟩⟩
  · have hrow := callbacks_insertAll {} (declared ++ calls)
    rw [hwhole] at hrow
    exact congrArg (·[position]?) hrow
  · exact ⟨hkept.insert_refused_iff callback, kept.eq_of_insert_refused callback⟩
  · obtain ⟨found, hfound, hname⟩ := hkept.get?_isSome hposition
    have hlater := get?_insertAll hfound later
    exact ⟨(hkept.insertAll later name position).mpr ⟨found, hlater, hname⟩, hlater.trans hfound.symm⟩

/-- Two of three names are taken by a file. The callback that was declared stays, whatever is added later. -/
theorem positions_stand_for_callbacks_taken :
    let declared : Callback := { name := "OnB", arguments := [("a", .integer)] }
    let start : IndexedCallbacks := ⟨[{ name := "OnA" }, declared], [("OnB", 1), ("OnA", 0)]⟩
    let calls : List Callback :=
      [{ name := "OnB", cancelable := true }, { name := "OnC" }, { name := "OnA", returnValue := 1 }]
    let kept := (start.insertAll calls).2
    (start = {} ∨ ∃ text, parse text = .ok start)
      ∧ (start.insertAll calls).1 = [false, true, false]
      ∧ kept.lookUp "OnB" = .found declared ∧ kept.lookUp "OnD" = .missing
      ∧ kept.get? 2 = some { name := "OnC" }
      ∧ ∀ later, (kept.insertAll later).2.position? "OnB" = some 1
        ∧ (kept.insertAll later).2.get? 1 = some declared := by
  intro declared start calls kept
  have hparse : parse "forward OnA();\n\nforward OnB(a);" = .ok start := by rfl
  have hstart : start = {} ∨ ∃ text, parse text = .ok start := Or.inr ⟨_, hparse⟩
  obtain ⟨hleads, _, _, _, _, hlater, _⟩ := positions_stand_for_callbacks start hstart calls
  have hposition : kept.position? "OnB" = some 1 := (hleads _ _).mpr ⟨declared, rfl, rfl⟩
  exact ⟨hstart, rfl, rfl, rfl, rfl, fun later => hlater later _ _ hposition⟩

end IndexedCallbacks

end ScriptBridge
