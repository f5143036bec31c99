import ScriptBridge.Proofs.Executions

/-!
# Which program is followed

An interceptor follows one program at a time and keeps, for that program, which index leads to which
declared callback. Programs come and go and may have the same public functions at other places, so
an index that is kept for too long would lead one program's execution to another's callback.

**Indices.** What is kept is read off the names that a program gave when it was announced.
`Declares` says which index leads where, in terms of these names alone. A place in the table is cut
to the width of an index, so with more names than there are indices some of them would share one;
`Machine.publicNames_length_lt` says that no machine has that many.

**Histories.** `InterceptorRun` is an interceptor with everything that was asked of it and what its
delegates were told. `FollowedSince` reads off a history that a program was announced and that
nothing came in between that ends it: no other announcement, no unload and no forgetting. The
invariant says that an interceptor follows a program only then, and keeps the indices of that
announcement.
-/

namespace ScriptBridge

/-! ## Indices -/

namespace Cell

/-- Places that are no more than there are indices have different ones. -/
theorem ofSize_injective {m n : Nat} (hm : m < UInt32.size) (hn : n < UInt32.size)
    (h : ofSize m = ofSize n) : m = n := by
  have hwords : (Int32.ofNat m).toUInt32.toNat = (Int32.ofNat n).toUInt32.toNat :=
    congrArg (fun c : Cell => c.toUInt32.toNat) h
  have hword : ∀ k : Nat, (Int32.ofNat k).toUInt32.toNat = k % UInt32.size := fun _ => rfl
  rw [hword, hword, Nat.mod_eq_of_lt hm, Nat.mod_eq_of_lt hn] at hwords
  exact hwords

end Cell

/-- **No machine has more public functions than there are indices.** -/
theorem Machine.publicNames_length_lt (m : Machine) (id : ProgramId) :
    (m.program id).publicNames.length < UInt32.size := by
  show m.publicNames.length < UInt32.size
  unfold Machine.publicNames
  cases m.image with
  | none => decide
  | some image =>
      show image.publicNames.length < UInt32.size
      unfold Image.publicNames
      rw [List.length_map, List.length_range]
      have hpublics : -2 ^ 31 ≤ image.publics := Int32.le_toInt _
      have hnatives : image.natives < 2 ^ 31 := Int32.toInt_lt _
      unfold Image.publicCount
      split
      · rename_i hsize
        have hdiv : (image.natives - image.publics) / image.entrySize
            ≤ image.natives - image.publics := Int.ediv_le_self _ (by omega)
        show _ < 4294967296
        omega
      · decide

/-! ## What is kept of a table of names -/

/-- **An index leads to a position**: a public function at this index has the name of the callback
at the position, and is not the one that is recognised without a declaration. -/
def Declares (callbacks : CallbackTable) (names : List String) (index : Cell) (position : Nat) :
    Prop :=
  ∃ (place : Nat) (name : String), names[place]? = some name ∧ Cell.ofSize place = index
    ∧ name ≠ Interceptor.playerUpdateName ∧ callbacks.position? name = some position

/-- **What an interceptor keeps of the names of a program.** -/
structure Caches (callbacks : CallbackTable) (names : List String) (i : Interceptor) : Prop where
  kept : ∀ index, (i.intercepted.lookup index).isSome = true ↔
    ∃ position, Declares callbacks names index position
  leads : ∀ index position, i.intercepted.lookup index = some position →
    Declares callbacks names index position
  /-- Where an index stands for one function, it leads to the position of that one. -/
  exact : names.length ≤ UInt32.size → ∀ index position,
    i.intercepted.lookup index = some position ↔ Declares callbacks names index position
  update : ∀ index, i.playerUpdate = some index ↔
    ∃ place, names[place]? = some Interceptor.playerUpdateName ∧ Cell.ofSize place = index
      ∧ ∀ later, place < later → names[later]? ≠ some Interceptor.playerUpdateName

namespace Interceptor

theorem mem_declared (callbacks : CallbackTable) (index : Cell) (position : Nat) :
    ∀ (names : List String) (start : Nat),
      (index, position) ∈ declared callbacks start names ↔
        ∃ (place : Nat) (name : String), names[place]? = some name
          ∧ Cell.ofSize (start + place) = index ∧ name ≠ playerUpdateName
          ∧ callbacks.position? name = some position
  | [], _ => by simp [declared]
  | name :: names, start => by
      have ih := mem_declared callbacks index position names (start + 1)
      -- a place among the remaining names is one further among all of them
      have hshift : (∃ (place : Nat) (other : String), names[place]? = some other
            ∧ Cell.ofSize (start + 1 + place) = index ∧ other ≠ playerUpdateName
            ∧ callbacks.position? other = some position) ↔
          ∃ (place : Nat) (other : String), (name :: names)[place + 1]? = some other
            ∧ Cell.ofSize (start + (place + 1)) = index ∧ other ≠ playerUpdateName
            ∧ callbacks.position? other = some position := by
        simp only [List.getElem?_cons_succ, Nat.add_assoc, Nat.add_comm 1]
      have hsplit : (∃ (place : Nat) (other : String), (name :: names)[place]? = some other
            ∧ Cell.ofSize (start + place) = index ∧ other ≠ playerUpdateName
            ∧ callbacks.position? other = some position) ↔
          (Cell.ofSize start = index ∧ name ≠ playerUpdateName
            ∧ callbacks.position? name = some position)
          ∨ (index, position) ∈ declared callbacks (start + 1) names := by
        rw [ih, hshift]
        constructor
        · rintro ⟨_ | place, other, hname, hrest⟩
          · obtain rfl : name = other := Option.some.inj hname
            exact Or.inl hrest
          · exact Or.inr ⟨place, other, hname, hrest⟩
        · rintro (hrest | ⟨place, other, hname, hrest⟩)
          · exact ⟨0, name, rfl, hrest⟩
          · exact ⟨place + 1, other, hname, hrest⟩
      rw [declared, hsplit]
      by_cases hname : name = playerUpdateName
      · rw [if_pos hname]
        exact ⟨Or.inr, fun h => h.resolve_left fun hhere => hhere.2.1 hname⟩
      · rw [if_neg hname]
        cases hposition : callbacks.position? name with
        | none => simp
        | some found =>
            rw [List.mem_cons]
            refine or_congr_left ⟨fun h => ?_, fun h => ?_⟩
            · obtain ⟨rfl, rfl⟩ := Prod.mk.inj h
              exact ⟨rfl, hname, rfl⟩
            · obtain ⟨rfl, _, hfound⟩ := h
              rw [Option.some.inj hfound]

theorem updateIndex_eq_none_iff :
    ∀ (names : List String) (start : Nat),
      updateIndex start names = none ↔ playerUpdateName ∉ names
  | [], _ => by simp [updateIndex]
  | name :: names, start => by
      have ih := updateIndex_eq_none_iff names (start + 1)
      unfold updateIndex
      rw [List.mem_cons, not_or, ← ih]
      cases updateIndex (start + 1) names with
      | some found => simp
      | none =>
          by_cases hname : name = playerUpdateName
          · simp [hname]
          · simp [hname, Ne.symm hname]

theorem updateIndex_eq_some_iff (index : Cell) :
    ∀ (names : List String) (start : Nat),
      updateIndex start names = some index ↔
        ∃ place, names[place]? = some playerUpdateName ∧ Cell.ofSize (start + place) = index
          ∧ ∀ later, place < later → names[later]? ≠ some playerUpdateName
  | [], _ => by simp [updateIndex]
  | name :: names, start => by
      have ih := fun found => updateIndex_eq_some_iff found names (start + 1)
      unfold updateIndex
      cases hrest : updateIndex (start + 1) names with
      | some found =>
          obtain ⟨place, hname, hfound, hlast⟩ := (ih found).mp hrest
          rw [Nat.add_assoc, Nat.add_comm 1] at hfound
          constructor
          · rintro ⟨⟩
            refine ⟨place + 1, hname, hfound, fun later hlater => ?_⟩
            obtain ⟨later, rfl⟩ : ∃ n, later = n + 1 := ⟨later - 1, by omega⟩
            exact hlast later (by omega)
          · -- the last place of the name is not the first of all
            rintro ⟨other, hother, rfl, hlast'⟩
            have hle : ¬ other < place + 1 := fun h => hlast' (place + 1) h hname
            obtain ⟨other, rfl⟩ : ∃ n, other = n + 1 := ⟨other - 1, by omega⟩
            have hge : ¬ place < other := fun h => hlast other h hother
            obtain rfl : other = place := by omega
            rw [hfound]
      | none =>
          -- the name does not come again
          have hnone : ∀ place : Nat, names[place]? ≠ some playerUpdateName := fun place hplace =>
            (updateIndex_eq_none_iff names (start + 1)).mp hrest (List.mem_of_getElem? hplace)
          constructor
          · intro h
            by_cases hname : name = playerUpdateName
            · rw [if_pos hname] at h
              refine ⟨0, congrArg some hname, Option.some.inj h, fun later hlater => ?_⟩
              obtain ⟨later, rfl⟩ : ∃ n, later = n + 1 := ⟨later - 1, by omega⟩
              exact hnone later
            · rw [if_neg hname] at h
              exact absurd h (by simp)
          · rintro ⟨_ | place, hplace, rfl, _⟩
            · rw [if_pos (Option.some.inj hplace)]
              rfl
            · exact absurd hplace (hnone place)

/-- **A program that is announced leaves its names behind.** -/
theorem caches_load (i : Interceptor) (program : Program) :
    Caches i.callbacks program.publicNames (i.load program) := by
  have hmem : ∀ index position,
      (index, position) ∈ declared i.callbacks 0 program.publicNames ↔
        Declares i.callbacks program.publicNames index position := by
    intro index position
    rw [mem_declared]
    simp only [Nat.zero_add, Declares]
  have hleads : ∀ index position,
      (declared i.callbacks 0 program.publicNames).lookup index = some position →
        Declares i.callbacks program.publicNames index position := by
    intro index position hlookup
    obtain ⟨before, after, hsplit, _⟩ := List.lookup_eq_some_iff.mp hlookup
    exact (hmem index position).mp (by rw [hsplit]; simp)
  have hkept : ∀ index position, Declares i.callbacks program.publicNames index position →
      ∃ found, (declared i.callbacks 0 program.publicNames).lookup index = some found := by
    intro index position hdeclares
    refine Option.ne_none_iff_exists'.mp fun hnone => ?_
    have hne := List.lookup_eq_none_iff.mp hnone _ ((hmem index position).mpr hdeclares)
    simp at hne
  refine ⟨fun index => ?_, hleads, fun hlen index position => ⟨hleads index position, fun h => ?_⟩,
    fun index => ?_⟩
  · rw [Option.isSome_iff_exists]
    exact ⟨fun ⟨position, h⟩ => ⟨position, hleads index position h⟩,
      fun ⟨position, h⟩ => hkept index position h⟩
  · -- the index is that of one place only, so what is found is what was asked for
    obtain ⟨found, hfound⟩ := hkept index position h
    obtain ⟨place, name, hname, rfl, _, hposition⟩ := h
    obtain ⟨place', name', hname', hindex, _, hposition'⟩ := hleads _ _ hfound
    have hlt := (List.getElem?_eq_some_iff.mp hname).1
    have hlt' := (List.getElem?_eq_some_iff.mp hname').1
    obtain rfl : place' = place := Cell.ofSize_injective (by omega) (by omega) hindex
    obtain rfl : name = name' := Option.some.inj (hname.symm.trans hname')
    exact hfound.trans (hposition'.symm.trans hposition)
  · have hupdate := updateIndex_eq_some_iff index program.publicNames 0
    simp only [Nat.zero_add] at hupdate
    exact hupdate

/-- An interceptor that is installed and has seen nothing. -/
def ready (callbacks : CallbackTable) : Interceptor := { callbacks, installed := true }

/-- **What an execution leaves**, without what it depends on: a new program, the same one with
another bag, or none. -/
theorem Acts.outcome {D : Type} {i i' : Interceptor} {program : Program} {index : Cell}
    {delegate : Delegate D} {d d' : D} {decision : Decision} {reports : List Report}
    (h : i.Acts program index delegate d decision i' d' reports) (hinstalled : i.installed = true) :
    (index = entryPoint ∧ i' = i.load program
        ∧ reports = [.programChanged (some program.id)])
      ∨ (index ≠ entryPoint ∧ (∃ bag, i' = { i with arguments := bag })
        ∧ (∀ report ∈ reports, report.isDispatch = true)
        ∧ (reports ≠ [] → i.program = some program.id))
      ∨ (index ≠ entryPoint ∧ (∃ bag, i' = ({ i with arguments := bag } : Interceptor).cleared)
        ∧ .programChanged none ∈ reports ∧ i.program = some program.id) := by
  cases h with
  | asleep hasleep => exact absurd (hinstalled.symm.trans hasleep) (by decide)
  | loads _ hindex => exact .inl ⟨hindex, rfl, rfl⟩
  | foreign hinside _ => exact .inr (.inl ⟨hinside, ⟨_, rfl⟩, by simp, by simp⟩)
  | updates hwatches _ _ =>
      exact .inr (.inl ⟨hwatches.inside, ⟨_, rfl⟩, by simp [Report.isDispatch],
        fun _ => hwatches.followed⟩)
  | noPlayer hwatches _ _ => exact .inr (.inl ⟨hwatches.inside, ⟨_, rfl⟩, by simp, by simp⟩)
  | unknown hwatches _ _ => exact .inr (.inl ⟨hwatches.inside, ⟨_, rfl⟩, by simp, by simp⟩)
  | unread bag hwatches _ _ _ => exact .inr (.inl ⟨hwatches.inside, ⟨bag, rfl⟩, by simp, by simp⟩)
  | @offers _ bag hwatches _ _ _ _ _ =>
      exact .inr (.inl ⟨hwatches.inside, ⟨bag, rfl⟩, by simp [Report.isDispatch],
        fun _ => hwatches.followed⟩)
  | @unloads _ bag hwatches _ _ _ _ _ =>
      exact .inr (.inr ⟨hwatches.inside, ⟨bag, rfl⟩, by simp, hwatches.followed⟩)

end Interceptor

/-! ## Histories -/

section

variable {α : Type} {P : List α → α → Prop} {history : List α} {entry : α}

/-- **Every entry of a history has a property** that is about the entry and what came before it. -/
def Throughout (P : List α → α → Prop) (history : List α) : Prop :=
  ∀ (before after : List α) (entry : α), history = before ++ entry :: after → P before entry

/-- An entry of a longer history is its last one or one of the history before. -/
theorem split_snoc {before after : List α} {other : α}
    (h : history ++ [entry] = before ++ other :: after) :
    (before = history ∧ other = entry ∧ after = [])
      ∨ ∃ rest, after = rest ++ [entry] ∧ history = before ++ other :: rest := by
  rcases List.eq_nil_or_concat after with rfl | ⟨rest, last, rfl⟩
  · obtain ⟨hbefore, hlast⟩ := List.append_inj' h rfl
    exact .inl ⟨hbefore.symm, (List.singleton_inj.mp hlast).symm, rfl⟩
  · have hassoc : history ++ [entry] = (before ++ other :: rest) ++ [last] := by simpa using h
    obtain ⟨hhistory, hlast⟩ := List.append_inj' hassoc rfl
    exact .inr ⟨rest, by rw [List.singleton_inj.mp hlast, List.concat_eq_append], hhistory⟩

theorem throughout_nil : Throughout P [] := by
  intro before after entry h
  simp at h

theorem Throughout.snoc (h : Throughout P history) (hentry : P history entry) :
    Throughout P (history ++ [entry]) := by
  intro before after other heq
  rcases split_snoc heq with ⟨rfl, rfl, _⟩ | ⟨rest, _, hhistory⟩
  · exact hentry
  · exact h before rest other hhistory

end

/-- **Something that happened to an interceptor**: an execution, with what its delegate was told, or
a program that was forgotten. -/
inductive Occurrence where
  | executed (program : Program) (index : Cell) (reports : List Report)
  | forgot (program : ProgramId)

/-- The program that is announced. -/
def Occurrence.announced : Occurrence → Option Program
  | .executed program index _ => if index = Interceptor.entryPoint then some program else none
  | .forgot _ => none

theorem Occurrence.announced_executed {program main : Program} {index : Cell}
    {reports : List Report} :
    (Occurrence.executed program index reports).announced = some main ↔
      index = Interceptor.entryPoint ∧ program = main := by
  show (if index = Interceptor.entryPoint then some program else none) = some main ↔ _
  by_cases hindex : index = Interceptor.entryPoint
  · rw [if_pos hindex, Option.some_inj]
    exact (and_iff_right hindex).symm
  · rw [if_neg hindex]
    exact ⟨fun h => absurd h (by simp), fun h => absurd h.1 hindex⟩

/-- The program whose entry point was executed last. -/
def latestMain (history : List Occurrence) : Option Program :=
  (history.filterMap (·.announced)).getLast?

/-- **A program is not ended**: none is announced, its delegate is not told that there is none any
more, and it is not forgotten. -/
def Occurrence.Keeps (program : ProgramId) : Occurrence → Prop
  | .executed _ index reports => index ≠ Interceptor.entryPoint ∧ .programChanged none ∉ reports
  | .forgot other => other ≠ program

/-- **A program was announced and has not ended since.** -/
def FollowedSince (history : List Occurrence) (main : Program) : Prop :=
  ∃ (before between : List Occurrence) (reports : List Report),
    history = before ++ .executed main Interceptor.entryPoint reports :: between
      ∧ ∀ occurrence ∈ between, occurrence.Keeps main.id

theorem not_followedSince_nil (main : Program) : ¬ FollowedSince [] main := by
  rintro ⟨before, between, reports, heq, _⟩
  simp at heq

theorem followedSince_snoc {history : List Occurrence} {occurrence : Occurrence} {main : Program} :
    FollowedSince (history ++ [occurrence]) main ↔
      occurrence.announced = some main ∨ FollowedSince history main ∧ occurrence.Keeps main.id := by
  constructor
  · rintro ⟨before, between, reports, heq, hkeeps⟩
    rcases split_snoc heq with ⟨_, rfl, _⟩ | ⟨rest, rfl, rfl⟩
    · exact .inl (Occurrence.announced_executed.mpr ⟨rfl, rfl⟩)
    · refine .inr ⟨⟨before, rest, reports, rfl, fun o ho => ?_⟩, hkeeps occurrence (by simp)⟩
      exact hkeeps o (List.mem_append_left _ ho)
  · rintro (hannounced | ⟨⟨before, between, reports, rfl, hkeeps⟩, hlast⟩)
    · cases occurrence with
      | forgot _ => exact absurd hannounced (by simp [Occurrence.announced])
      | executed program index reports =>
          obtain ⟨rfl, rfl⟩ := Occurrence.announced_executed.mp hannounced
          exact ⟨history, [], reports, rfl, by simp⟩
    · refine ⟨before, between ++ [occurrence], reports, by simp, fun o ho => ?_⟩
      rcases List.mem_append.mp ho with hbetween | hlast'
      · exact hkeeps o hbetween
      · rw [List.mem_singleton.mp hlast']
        exact hlast

/-- What keeps a program announces none. -/
theorem Occurrence.Keeps.announced {occurrence : Occurrence} {program : ProgramId}
    (h : occurrence.Keeps program) : occurrence.announced = none := by
  cases occurrence with
  | forgot _ => rfl
  | executed program index reports => exact if_neg h.1

/-- The program that has not ended is the one that was announced last. -/
theorem FollowedSince.latestMain_eq {history : List Occurrence} {main : Program}
    (h : FollowedSince history main) : latestMain history = some main := by
  obtain ⟨before, between, reports, rfl, hkeeps⟩ := h
  have hbetween : between.filterMap (·.announced) = [] :=
    List.filterMap_eq_nil_iff.mpr fun o ho => (hkeeps o ho).announced
  have hmain : (Occurrence.executed main Interceptor.entryPoint reports).announced = some main :=
    Occurrence.announced_executed.mpr ⟨rfl, rfl⟩
  unfold latestMain
  rw [List.filterMap_append, List.filterMap_cons_some hmain, hbetween]
  exact List.getLast?_concat

/-! ## Interceptors with their history -/

/-- **Something that is asked of an interceptor.** Any delegate may be given with an execution. -/
inductive InterceptorAction (D : Type) where
  | execute (program : Program) (index : Cell) (delegate : Delegate D)
  | forget (program : ProgramId)

/-- **An interceptor with its history**, in a world of its delegates. -/
structure InterceptorRun (D : Type) where
  interceptor : Interceptor
  world : D
  history : List Occurrence := []

namespace InterceptorRun

variable {D : Type} {callbacks : CallbackTable} {r : InterceptorRun D}

/-- An interceptor of which nothing was asked. -/
def start (callbacks : CallbackTable) (d : D) : InterceptorRun D :=
  { interceptor := .ready callbacks, world := d }

/-- **What an action does.** -/
def act (r : InterceptorRun D) : InterceptorAction D → InterceptorRun D
  | .execute program index delegate =>
    let (_, interceptor, world) := r.interceptor.onExecute program index delegate r.world
    let reports := r.interceptor.reports program index delegate r.world
    { interceptor, world, history := r.history ++ [.executed program index reports] }
  | .forget program =>
    { r with
      interceptor := (r.interceptor.forget program).2
      history := r.history ++ [.forgot program] }

/-- **An interceptor led by actions.** -/
def run (actions : List (InterceptorAction D)) (r : InterceptorRun D) : InterceptorRun D :=
  actions.foldl act r

theorem act_execute (r : InterceptorRun D) (program : Program) (index : Cell)
    (delegate : Delegate D) :
    r.act (.execute program index delegate) =
      ⟨(r.interceptor.onExecute program index delegate r.world).2.1,
        (r.interceptor.onExecute program index delegate r.world).2.2,
        r.history ++
          [.executed program index (r.interceptor.reports program index delegate r.world)]⟩ := rfl

theorem act_forget (r : InterceptorRun D) (program : ProgramId) :
    r.act (.forget program) =
      ⟨(r.interceptor.forget program).2, r.world, r.history ++ [.forgot program]⟩ := rfl

/-- **An occurrence reaches its delegate rightly**: if its program was announced and has not ended.
-/
def Rightly (before : List Occurrence) : Occurrence → Prop
  | .executed program _ reports => (∃ report ∈ reports, report.isDispatch = true) →
      ∃ main, FollowedSince before main ∧ main.id = program.id
  | .forgot _ => True

/-- **What an interceptor follows**, at any time. -/
structure Tracked (callbacks : CallbackTable) (r : InterceptorRun D) : Prop where
  installed : r.interceptor.installed = true
  table : r.interceptor.callbacks = callbacks
  idle : r.interceptor.program = none →
    r.interceptor.intercepted = [] ∧ r.interceptor.playerUpdate = none
  followed : ∀ id, r.interceptor.program = some id ↔
    ∃ main, FollowedSince r.history main ∧ main.id = id
  caches : ∀ main, FollowedSince r.history main →
    Caches callbacks main.publicNames r.interceptor
  rightly : Throughout Rightly r.history

theorem tracked_start (callbacks : CallbackTable) (d : D) :
    Tracked callbacks (InterceptorRun.start callbacks d) where
  installed := rfl
  table := rfl
  idle _ := ⟨rfl, rfl⟩
  followed id :=
    ⟨fun h => by simp [start, Interceptor.ready] at h,
      fun ⟨main, h, _⟩ => absurd h (not_followedSince_nil main)⟩
  caches main h := absurd h (not_followedSince_nil main)
  rightly := throughout_nil

namespace Tracked

variable {i : Interceptor} {w : D} {occurrence : Occurrence}

/-- An occurrence that ends no program, and that is reported rightly, leaves what is followed. -/
theorem unchanged (h : Tracked callbacks r) (bag : Bag)
    (hkeeps : ∀ id, r.interceptor.program = some id → occurrence.Keeps id)
    (hannounced : occurrence.announced = none) (hrightly : Rightly r.history occurrence) :
    Tracked callbacks
      ⟨{ r.interceptor with arguments := bag }, w, r.history ++ [occurrence]⟩ := by
  have hsince : ∀ main, FollowedSince (r.history ++ [occurrence]) main ↔
      FollowedSince r.history main := by
    intro main
    rw [followedSince_snoc, hannounced]
    refine ⟨fun hmain => hmain.elim (fun hnone => absurd hnone (by simp)) (·.1), fun hmain => ?_⟩
    exact .inr ⟨hmain, hkeeps _ ((h.followed _).mpr ⟨main, hmain, rfl⟩)⟩
  refine ⟨h.installed, h.table, h.idle, fun id => ?_, fun main hmain => ?_, h.rightly.snoc hrightly⟩
  · simp only [hsince]
    exact h.followed id
  · have hcaches := h.caches main ((hsince main).mp hmain)
    exact ⟨hcaches.kept, hcaches.leads, hcaches.exact, hcaches.update⟩

/-- An occurrence that ends every program leaves none. -/
theorem ended (h : Tracked callbacks r) (bag : Bag)
    (hends : ∀ id, r.interceptor.program = some id → ¬ occurrence.Keeps id)
    (hannounced : occurrence.announced = none) (hrightly : Rightly r.history occurrence) :
    Tracked callbacks
      ⟨({ r.interceptor with arguments := bag } : Interceptor).cleared, w,
        r.history ++ [occurrence]⟩ := by
  have hsince : ∀ main, ¬ FollowedSince (r.history ++ [occurrence]) main := by
    intro main
    rw [followedSince_snoc, hannounced]
    rintro (hnone | ⟨hmain, hkeeps⟩)
    · exact absurd hnone (by simp)
    · exact hends _ ((h.followed _).mpr ⟨main, hmain, rfl⟩) hkeeps
  exact ⟨h.installed, h.table, fun _ => ⟨rfl, rfl⟩,
    fun id => ⟨fun hsome => absurd hsome (by simp [Interceptor.cleared]),
      fun ⟨main, hmain, _⟩ => absurd hmain (hsince main)⟩,
    fun main hmain => absurd hmain (hsince main), h.rightly.snoc hrightly⟩

/-- An announcement leaves the program that was announced. -/
theorem loaded (h : Tracked callbacks r) {program : Program}
    (hrightly : Rightly r.history occurrence) (hannounced : occurrence.announced = some program) :
    Tracked callbacks ⟨r.interceptor.load program, w, r.history ++ [occurrence]⟩ := by
  have hsince : ∀ main, FollowedSince (r.history ++ [occurrence]) main ↔ main = program := by
    intro main
    rw [followedSince_snoc, hannounced]
    refine ⟨?_, fun heq => .inl (congrArg some heq.symm)⟩
    rintro (hsome | ⟨_, hkeeps⟩)
    · exact (Option.some.inj hsome).symm
    · exact absurd (hannounced.symm.trans hkeeps.announced) (by simp)
  refine ⟨h.installed, h.table, fun hnone => ?_, fun id => ?_, fun main hmain => ?_,
    h.rightly.snoc hrightly⟩
  · exact absurd hnone (by simp [Interceptor.load])
  · simp only [hsince, exists_eq_left]
    exact Option.some_inj
  · rw [(hsince main).mp hmain, ← h.table]
    exact r.interceptor.caches_load program

/-- An execution of the program that is followed is reported rightly. -/
theorem rightly_of_followed (h : Tracked callbacks r) {program : Program} {index : Cell}
    {reports : List Report} (hfollowed : reports ≠ [] → r.interceptor.program = some program.id) :
    Rightly r.history (.executed program index reports) := by
  rintro ⟨report, hreport, _⟩
  exact (h.followed _).mp (hfollowed (List.ne_nil_of_mem hreport))

/-- **What is followed is kept up by every action.** -/
theorem step (h : Tracked callbacks r) (action : InterceptorAction D) :
    Tracked callbacks (r.act action) := by
  cases action with
  | execute program index delegate =>
      rw [act_execute]
      have hacts := r.interceptor.onExecute_acts program index delegate r.world
      generalize r.interceptor.reports program index delegate r.world = reports at hacts ⊢
      rcases hacts.outcome h.installed with ⟨hindex, hloads, hreports⟩ |
        ⟨hinside, ⟨bag, hbag⟩, hdispatch, hfollowed⟩ | ⟨hinside, ⟨bag, hbag⟩, hend, hfollowed⟩
      · -- an announcement is not about a function that a program runs
        have hrightly : Rightly r.history (.executed program index reports) := by
          rintro ⟨report, hreport, hdispatch⟩
          rw [hreports, List.mem_singleton] at hreport
          rw [hreport] at hdispatch
          exact absurd hdispatch Bool.false_ne_true
        rw [hloads]
        exact h.loaded hrightly (Occurrence.announced_executed.mpr ⟨hindex, rfl⟩)
      · have hkeeps : ∀ id, (Occurrence.executed program index reports).Keeps id := fun _ =>
          ⟨hinside, fun hend => absurd (hdispatch _ hend) Bool.false_ne_true⟩
        rw [hbag]
        exact h.unchanged bag (fun id _ => hkeeps id) (hkeeps program.id).announced
          (h.rightly_of_followed hfollowed)
      · rw [hbag]
        exact h.ended bag (fun _ _ hkeeps => hkeeps.2 hend) (if_neg hinside)
          (h.rightly_of_followed fun _ => hfollowed)
  | forget program =>
      rw [act_forget]
      by_cases hprogram : r.interceptor.program = some program
      · rw [Interceptor.forget, if_pos hprogram]
        refine h.ended r.interceptor.arguments (fun id hid hkeeps => hkeeps ?_) rfl trivial
        exact Option.some.inj (hprogram.symm.trans hid)
      · rw [Interceptor.forget, if_neg hprogram]
        refine h.unchanged r.interceptor.arguments (fun id hid heq => hprogram ?_) rfl trivial
        exact hid.trans (congrArg some heq.symm)

end Tracked

theorem run_tracked : ∀ (actions : List (InterceptorAction D)) {r : InterceptorRun D},
    Tracked callbacks r → Tracked callbacks (r.run actions)
  | [], _, h => h
  | action :: actions, _, h => run_tracked actions (h.step action)

end InterceptorRun

/--
**An interceptor keeps the indices of the program whose entry point was executed last, or none.**
Whatever programs are executed, with whatever on their stacks, whatever delegates answer and
whatever is forgotten: a program is followed exactly if it was announced and has not ended since.
Without one nothing is kept; with one, it is the latest that was announced, and what is kept is read
off the names that it gave then.

So no delegate is told of a function that runs in another program, or after the program was unloaded
or forgotten and before the next one.
-/
theorem cache_follows_latest_main {D : Type} (callbacks : CallbackTable)
    (actions : List (InterceptorAction D)) (d : D) :
    let r := (InterceptorRun.start callbacks d).run actions
    (r.interceptor.program = none →
        r.interceptor.intercepted = [] ∧ r.interceptor.playerUpdate = none)
      ∧ (∀ id, r.interceptor.program = some id ↔
        ∃ main, FollowedSince r.history main ∧ main.id = id)
      ∧ (∀ id, r.interceptor.program = some id →
        ∃ main, latestMain r.history = some main ∧ main.id = id
          ∧ Caches callbacks main.publicNames r.interceptor)
      ∧ ∀ (before after : List Occurrence) (program : Program) (index : Cell)
          (reports : List Report),
        r.history = before ++ .executed program index reports :: after →
        (∃ report ∈ reports, report.isDispatch = true) →
        ∃ main, latestMain before = some main ∧ main.id = program.id
          ∧ FollowedSince before main := by
  intro r
  have h : r.Tracked callbacks :=
    InterceptorRun.run_tracked actions (InterceptorRun.tracked_start callbacks d)
  refine ⟨h.idle, h.followed, fun id hid => ?_, fun before after program index reports heq hdispatch => ?_⟩
  · obtain ⟨main, hmain, rfl⟩ := (h.followed id).mp hid
    exact ⟨main, hmain.latestMain_eq, rfl, h.caches main hmain⟩
  · obtain ⟨main, hmain, hid⟩ := h.rightly before after _ heq hdispatch
    exact ⟨main, hmain.latestMain_eq, hid, hmain⟩

end ScriptBridge
