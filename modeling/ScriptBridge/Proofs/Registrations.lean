import Mathlib.Data.Finset.Card
import Mathlib.Data.Finset.Dedup
import Mathlib.Data.List.TakeWhile
import ScriptBridge.Native.Call

/-!
# Who registered first

A registry hears the natives of a server again for each program that is loaded, and natives of the same
name from others as well. The first function that was registered under a name is the one that is
called, for good.

**What counts.** A list is read from its start on, and nothing in it says how long it is: it ends with an
entry that misses a part, or after a number of entries that comes with it. `RegisteredList.effective` are
the natives of a list that count, and whatever lies behind the list in memory is not among them
(`upToEnd_counted`).

**The law of a run.** `Records` relates a registry to all natives that counted so far, in their order: a
name leads to the function of the first of them, and every name is held once. One registration keeps it,
so a run of lists, batches and calls does.
-/

namespace ScriptBridge

variable {F W : Type}

/-! ## Lists -/

/-- **A list that can be registered.** It ends with an entry that misses its name or its function, or it
comes with a positive number of entries, no more than it has. -/
structure RegisteredList (F : Type) where
  entries : List (NativeEntry F)
  number : Cell
  ends : (∃ entry ∈ entries, entry.name = none ∨ entry.function = none)
    ∨ (0 < number.toInt ∧ number.toInt ≤ entries.length)

/-- Whether an entry has both of its parts. -/
def NativeEntry.isComplete (entry : NativeEntry F) : Bool :=
  entry.name.isSome && entry.function.isSome

/-- **The natives of a list that count**: those in front of its first entry that misses a part, and no
more than the number that comes with it if that is positive. A name ends with its first zero, and what
is no UTF-8 in it is replaced. -/
def RegisteredList.effective (list : RegisteredList F) : List (String × F) :=
  let complete := list.entries.takeWhile NativeEntry.isComplete
  let counted := if 0 < list.number.toInt then complete.take list.number.toInt.toNat else complete
  counted.filterMap Registry.entry?

namespace Registry

theorem entry?_isSome (entry : NativeEntry F) : Option.isSome ( entry? entry) = entry.isComplete := by
  unfold entry? NativeEntry.isComplete
  cases entry.name with
  | none => rfl
  | some name => cases entry.function <;> rfl

/-- Reading stops at the first entry that misses a part. -/
theorem upToEnd_eq : ∀ entries : List (NativeEntry F),
    upToEnd entries = (entries.takeWhile NativeEntry.isComplete).filterMap entry?
  | [] => rfl
  | entry :: entries => by
      have hcomplete := entry?_isSome entry
      unfold upToEnd
      cases hentry : entry? entry with
      | none =>
          rw [hentry] at hcomplete
          rw [List.takeWhile_cons_of_neg (fun h => Bool.false_ne_true (hcomplete.trans h))]
          rfl
      | some native =>
          rw [hentry] at hcomplete
          rw [List.takeWhile_cons_of_pos hcomplete.symm, List.filterMap_cons_some hentry,
            upToEnd_eq entries]

/-- A list that holds its own end is not read beyond it. -/
theorem takeWhile_append_of_ended {entries : List (NativeEntry F)}
    (h : ∃ entry ∈ entries, entry.name = none ∨ entry.function = none)
    (behind : List (NativeEntry F)) :
    (entries ++ behind).takeWhile NativeEntry.isComplete =
      entries.takeWhile NativeEntry.isComplete := by
  obtain ⟨entry, hmem, hmissing⟩ := h
  have hincomplete : entry.isComplete = false := by
    unfold NativeEntry.isComplete
    rcases hmissing with hname | hfunction
    · rw [hname]
      rfl
    · rw [hfunction, Option.isSome_none, Bool.and_false]
  rw [List.takeWhile_append, if_neg]
  intro hall
  have hsame := (List.takeWhile_prefix NativeEntry.isComplete).eq_of_length hall
  have hcomplete := List.mem_takeWhile_imp (hsame ▸ hmem)
  rw [hincomplete] at hcomplete
  exact Bool.false_ne_true hcomplete

/-- **What is read of a list are the natives that count**, whatever lies behind it in memory. -/
theorem upToEnd_counted (list : RegisteredList F) (behind : List (NativeEntry F)) :
    upToEnd (counted list.number (list.entries ++ behind)) = list.effective := by
  have hpositive : 0 < list.number ↔ 0 < list.number.toInt := by
    rw [Int32.lt_iff_toInt_lt, Int32.toInt_zero]
  rw [upToEnd_eq]
  unfold counted RegisteredList.effective
  refine congrArg (List.filterMap entry?) ?_
  by_cases hnumber : 0 < list.number.toInt
  · rw [if_pos (hpositive.mpr hnumber), if_pos hnumber, List.take_takeWhile]
    rcases list.ends with hended | ⟨_, hlength⟩
    · rw [← List.take_takeWhile, takeWhile_append_of_ended hended, List.take_takeWhile]
    · rw [List.take_append_of_le_length (by omega)]
  · rw [if_neg (fun h => hnumber (hpositive.mp h)), if_neg hnumber]
    rcases list.ends with hended | ⟨hcounted, _⟩
    · exact takeWhile_append_of_ended hended behind
    · exact absurd hcounted hnumber

/-! ## What a registry holds -/

/-- **A registry holds the natives that counted so far.** A name leads to the first function that was
registered under it, and is held once. -/
structure Records (registry : Registry F) (natives : List (String × F)) : Prop where
  found : ∀ name, registry.find? name = natives.lookup name
  once : (registry.natives.map (·.1)).Nodup
  names : ∀ name, name ∈ registry.natives.map (·.1) ↔ name ∈ natives.map (·.1)

theorem lookup_isSome_iff_mem (natives : List (String × F)) (name : String) :
    (natives.lookup name).isSome = true ↔ name ∈ natives.map (·.1) := by
  rw [List.lookup_isSome_iff, List.mem_map]
  exact exists_congr fun native => and_congr_right fun _ => beq_iff_eq.trans eq_comm

/-- **One native**: it counts behind all others. -/
theorem Records.add {registry : Registry F} {natives : List (String × F)}
    (h : registry.Records natives) (native : String × F) :
    (registry.add native).Records (natives ++ [native]) := by
  unfold Registry.add
  by_cases hknown : registry.knows native.1 = true
  · have hmem : native.1 ∈ natives.map (·.1) := by
      rw [← lookup_isSome_iff_mem, ← h.found]
      exact hknown
    rw [if_pos hknown]
    refine ⟨fun name => ?_, h.once, fun name => ?_⟩
    · rw [h.found, List.lookup_append]
      cases hfound : natives.lookup name with
      | some function => rfl
      | none =>
          -- a name without a function is another one
          have hother : (name == native.1) = false := by
            refine beq_eq_false_iff_ne.mpr fun hname => ?_
            rw [← lookup_isSome_iff_mem, ← hname, hfound] at hmem
            exact Bool.false_ne_true hmem
          rw [Option.none_or, List.lookup_cons, hother]
          rfl
    · rw [h.names, List.map_append, List.mem_append]
      refine (or_iff_left_of_imp fun hname => ?_).symm
      rw [List.mem_singleton.mp hname]
      exact hmem
  · have hnew : native.1 ∉ registry.natives.map (·.1) := by
      rw [← lookup_isSome_iff_mem]
      exact hknown
    rw [if_neg hknown]
    refine ⟨fun name => ?_, ?_, fun name => ?_⟩
    · have hfound := h.found name
      unfold find? at hfound ⊢
      rw [List.lookup_append, List.lookup_append, hfound]
    · have hnames : (registry.natives ++ [native]).map (·.1) =
          (registry.natives.map (·.1)).concat native.1 := by
        rw [List.map_append, List.concat_eq_append, List.map_singleton]
      rw [hnames]
      exact h.once.concat hnew
    · rw [List.map_append, List.mem_append, h.names, List.map_append, List.mem_append]

/-- **Natives in their order.** -/
theorem Records.register {registry : Registry F} {natives : List (String × F)}
    (h : registry.Records natives) (more : List (String × F)) :
    (registry.register more).Records (natives ++ more) := by
  induction more generalizing registry natives with
  | nil => rwa [List.append_nil]
  | cons native more ih =>
      have hrest := ih (h.add native)
      rwa [List.append_assoc] at hrest

/-- Every name is held once, so as many natives are held as there are names. -/
theorem Records.size {registry : Registry F} {natives : List (String × F)}
    (h : registry.Records natives) : registry.size = (natives.map (·.1)).toFinset.card := by
  have hsame : (registry.natives.map (·.1)).toFinset = (natives.map (·.1)).toFinset := by
    ext name
    rw [List.mem_toFinset, List.mem_toFinset, h.names]
  rw [← hsame, List.toFinset_card_of_nodup h.once, List.length_map]
  rfl

theorem prefix_add (registry : Registry F) (native : String × F) :
    registry.natives <+: (registry.add native).natives := by
  unfold add
  split
  · exact List.prefix_refl _
  · exact List.prefix_append _ _

theorem prefix_register (registry : Registry F) (more : List (String × F)) :
    registry.natives <+: (registry.register more).natives := by
  induction more generalizing registry with
  | nil => exact List.prefix_refl _
  | cons native more ih => exact (prefix_add registry native).trans (ih _)

end Registry

/-! ## Runs -/

/-- **What can happen to a registry.** A list lies in front of other entries in memory. -/
inductive RegistryAction (F W : Type) where
  | missing (number : Cell)
  | list (registered : RegisteredList F) (behind : List (NativeEntry F))
  | batch (natives : List (String × F))
  | call (name : String) (arguments : List NativeArgument)
  | install (port : HookPort W)

namespace RegistryAction

/-- The natives of an action that count. -/
def effective : RegistryAction F W → List (String × F)
  | .list registered _ => registered.effective
  | .batch natives => natives
  | _ => []

/-- **What an action does**, in a world of the natives. -/
def act (meaning : F → Native W) (s : Registry F × W) : RegistryAction F W → Registry F × W
  | .missing number => (s.1.registerList none number, s.2)
  | .list registered behind =>
    (s.1.registerList (some (registered.entries ++ behind)) registered.number, s.2)
  | .batch natives => (s.1.register natives, s.2)
  | .call name arguments =>
    let outcome := s.1.call meaning name arguments s.2
    (outcome.registry, outcome.world)
  | .install port =>
    let (_, registry, w) := s.1.install port s.2
    (registry, w)

/-- **A registry led by actions**, one after the other. -/
def run (meaning : F → Native W) (actions : List (RegistryAction F W)) (s : Registry F × W) :
    Registry F × W :=
  actions.foldl (act meaning) s

/-- The natives of a run that count, in the order in which they were registered. -/
def allEffective (actions : List (RegistryAction F W)) : List (String × F) :=
  actions.flatMap effective

/-- A call leaves the natives alone. -/
theorem natives_call (registry : Registry F) (meaning : F → Native W) (name : String)
    (arguments : List NativeArgument) (w : W) :
    (registry.call meaning name arguments w).registry.natives = registry.natives := by
  unfold Registry.call
  cases registry.find? name with
  | none => rfl
  | some handle => rfl

theorem natives_install (registry : Registry F) (port : HookPort W) (w : W) :
    (registry.install port w).2.1.natives = registry.natives := by
  unfold Registry.install
  split <;> rfl

/-- **What an action does to the natives**: those that count are registered, in their order. -/
theorem natives_act (meaning : F → Native W) (s : Registry F × W) (action : RegistryAction F W) :
    (action.act meaning s).1.natives = (s.1.register action.effective).natives := by
  cases action with
  | missing number => rfl
  | list registered behind =>
      show (s.1.register (Registry.upToEnd (Registry.counted _ _))).natives = _
      rw [Registry.upToEnd_counted]
      rfl
  | batch natives => rfl
  | call name arguments => exact natives_call s.1 meaning name arguments s.2
  | install port => exact natives_install s.1 port s.2

/-- **One action** keeps the law. -/
theorem records_act (meaning : F → Native W) {s : Registry F × W} {natives : List (String × F)}
    (h : s.1.Records natives) (action : RegistryAction F W) :
    (action.act meaning s).1.Records (natives ++ action.effective) := by
  have hregistered := h.register action.effective
  have hnatives := natives_act meaning s action
  exact ⟨fun name => (congrArg (List.lookup name) hnatives).trans (hregistered.found name),
    hnatives ▸ hregistered.once, hnatives ▸ hregistered.names⟩

/-- **A run** keeps the law. -/
theorem records_run (meaning : F → Native W) (actions : List (RegistryAction F W))
    {s : Registry F × W} {natives : List (String × F)} (h : s.1.Records natives) :
    (run meaning actions s).1.Records (natives ++ allEffective actions) := by
  induction actions generalizing s natives with
  | nil => rwa [allEffective, List.flatMap_nil, List.append_nil]
  | cons action actions ih =>
      have hrest := ih (records_act meaning h action)
      rwa [List.append_assoc] at hrest

/-- Natives are added behind those that are there. -/
theorem prefix_run (meaning : F → Native W) (actions : List (RegistryAction F W))
    (s : Registry F × W) : s.1.natives <+: (run meaning actions s).1.natives := by
  induction actions generalizing s with
  | nil => exact List.prefix_refl _
  | cons action actions ih =>
      refine List.IsPrefix.trans ?_ (ih (action.act meaning s))
      rw [natives_act]
      exact Registry.prefix_register s.1 action.effective

end RegistryAction

/--
**The first registration wins.** Take a new registry and any lists, batches, calls and installations of
the hook, in any order.

A name leads to a function exactly if this is the first native of that name among all that count, over the
whole run, and to nothing exactly if none of them has the name. As many natives are held as there are
different names among them. What was held at any time is held later, in the same place.
-/
theorem first_registration_wins (meaning : F → Native W) (arrayLengths : ArrayLengths)
    (earlier later : List (RegistryAction F W)) (w : W) :
    let start : Registry F × W := ({ arrayLengths }, w)
    let after := (RegistryAction.run meaning (earlier ++ later) start).1
    let natives := RegistryAction.allEffective (earlier ++ later)
    (∀ name function, after.find? name = some function ↔
        ∃ before behind, natives = before ++ (name, function) :: behind
          ∧ name ∉ before.map (·.1))
      ∧ (∀ name, after.find? name = none ↔ name ∉ natives.map (·.1))
      ∧ after.size = (natives.map (·.1)).toFinset.card
      ∧ (RegistryAction.run meaning earlier start).1.natives <+: after.natives
      ∧ ∀ name function, (RegistryAction.run meaning earlier start).1.find? name = some function →
        after.find? name = some function := by
  intro start after natives
  have hstart : start.1.Records ([] : List (String × F)) :=
    ⟨fun _ => rfl, List.nodup_nil, fun _ => Iff.rfl⟩
  have hafter : after.Records natives := RegistryAction.records_run meaning (earlier ++ later) hstart
  have hsplit : after = (RegistryAction.run meaning later (RegistryAction.run meaning earlier start)).1 :=
    congrArg Prod.fst (List.foldl_append)
  have hprefix : (RegistryAction.run meaning earlier start).1.natives <+: after.natives :=
    hsplit ▸ RegistryAction.prefix_run meaning later _
  refine ⟨fun name function => ?_, fun name => ?_, hafter.size, hprefix, fun name function hfound => ?_⟩
  · rw [hafter.found, List.lookup_eq_some_iff]
    refine exists_congr fun before => exists_congr fun behind => and_congr_right fun _ => ?_
    rw [List.mem_map]
    constructor
    · rintro hother ⟨native, hmem, hname⟩
      exact bne_iff_ne.mp (hother native hmem) hname.symm
    · intro hother native hmem
      exact bne_iff_ne.mpr fun hname => hother ⟨native, hmem, hname.symm⟩
  · rw [hafter.found, ← Registry.lookup_isSome_iff_mem, Option.not_isSome_iff_eq_none]
  · obtain ⟨more, hmore⟩ := hprefix
    unfold Registry.find? at hfound ⊢
    rw [← hmore, List.lookup_append, hfound]
    rfl

/-- A list that ends with an entry without a function, though it comes with a larger number. -/
def endedList : RegisteredList Nat where
  entries := [⟨some [65], some 1⟩, ⟨some [66], none⟩, ⟨some [66], some 2⟩]
  number := 3
  ends := .inl ⟨⟨some [66], none⟩, by simp, .inr rfl⟩

/-- A list without an end, which comes with a number. The first name in it is no UTF-8. -/
def countedList : RegisteredList Nat where
  entries := [⟨some [0xFF], some 3⟩, ⟨some [66], some 4⟩]
  number := 1
  ends := .inr (by decide)

/-- Two lists, a call, and natives of the same names: those behind the end of a list never count, and what
was found first stays. -/
theorem first_registration_wins_again :
    let meaning : Nat → Native Unit := fun _ m _ w => (0, m, w)
    let earlier : List (RegistryAction Nat Unit) :=
      [.list endedList [⟨some [66], some 5⟩], .list countedList [], .call "A" []]
    let later : List (RegistryAction Nat Unit) := [.missing 0, .batch [("A", 6), ("\uFFFD", 7)]]
    let start : Registry Nat × Unit := ({}, ())
    let after := (RegistryAction.run meaning (earlier ++ later) start).1
    (RegistryAction.run meaning earlier start).1.find? "A" = some 1 ∧ after.find? "A" = some 1
      ∧ after.find? "\uFFFD" = some 3 ∧ after.find? "B" = none ∧ after.size = 2 := by
  intro meaning earlier later start after
  have hnatives : RegistryAction.allEffective (earlier ++ later) =
      [("A", 1), ("\uFFFD", 3), ("A", 6), ("\uFFFD", 7)] := by decide +kernel
  obtain ⟨hfound, hnone, hsize, _, hkept⟩ := first_registration_wins meaning {} earlier later ()
  rw [hnatives] at hfound hnone hsize
  have hearlier : (RegistryAction.run meaning earlier start).1.find? "A" = some 1 := by
    obtain ⟨hfirst, _⟩ := first_registration_wins meaning {} earlier [] ()
    rw [List.append_nil] at hfirst
    exact (hfirst "A" 1).mpr ⟨[], [("\uFFFD", 3)], by decide +kernel, by decide⟩
  refine ⟨hearlier, hkept "A" 1 hearlier, (hfound _ _).mpr ?_, (hnone "B").mpr (by decide), ?_⟩
  · exact ⟨[("A", 1)], [("A", 6), ("\uFFFD", 7)], rfl, by decide⟩
  · rw [hsize]
    decide

end ScriptBridge
