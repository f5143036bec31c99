import ScriptBridge.Proofs.Marshalling
import ScriptBridge.Proofs.TextLayouts
import ScriptBridge.Proofs.Transcoding

/-!
# All or nothing

A call of a native ends in one of two ways. Either nothing is called and the caller's arguments
are as they were, or the native is called once and the call answers what it answered. Which of
the two it is depends on the arguments alone, and on the room in the heap.

**Refused arguments.** `Needs` says how many cells an argument takes, and it says nothing of an
array whose length cannot be told. `Taken` adds them up in front of an index. An argument can be
refused for either reason, at any place behind arguments that already have their cells, and
`RefusedAt` says which error that gives. Only one argument can be refused in this sense, since those
in front of it have their cells: it is the first that cannot be placed.

**The top of the heap.** It is put back however a call ends, and also for a native that moved it.
-/

namespace ScriptBridge

open Scratch

/-! ## Cells of an argument -/

/--
**The number of cells that an argument needs.** What is passed by value needs none, and a text needs
one for each character and one for its terminator. An array needs as many as the integer at
`lengthIndex` says, if there is one and the array has so many entries.
-/
inductive NativeArgument.Needs (arguments : List NativeArgument) (lengthIndex : Nat) :
    NativeArgument → Nat → Prop where
  | integer (value : Cell) : Needs arguments lengthIndex (.integer value) 0
  | float (value : Single) : Needs arguments lengthIndex (.float value) 0
  | reference (value : Cell) : Needs arguments lengthIndex (.reference value) 1
  | text (t : String) : Needs arguments lengthIndex (.text t) (t.length + 1)
  | array {values : List Cell} {length : Cell} :
      arguments[lengthIndex]? = some (.integer length) → 0 ≤ length.toInt →
      length.toInt ≤ values.length →
      Needs arguments lengthIndex (.array values) length.toInt.toNat
  | buffer (bytes : List UInt8) : Needs arguments lengthIndex (.buffer bytes) bytes.length

section

variable {arguments : List NativeArgument} {lengthIndex : Nat}

theorem lengthAt?_eq_some_iff {values : List Cell} {n : Nat} :
    Registry.lengthAt? arguments lengthIndex values = some n ↔
      ∃ length : Cell, arguments[lengthIndex]? = some (.integer length) ∧ 0 ≤ length.toInt
        ∧ length.toInt ≤ values.length ∧ n = length.toInt.toNat := by
  unfold Registry.lengthAt?
  constructor
  · intro h
    split at h
    · rename_i length hlength
      split at h
      · rename_i hok
        have hnonneg : 0 ≤ length.toInt := by
          have := hok.1
          rwa [Int32.le_iff_toInt_le, Int32.toInt_zero] at this
        have hle := hok.2
        exact ⟨length, hlength, hnonneg, by omega, (Option.some.inj h).symm⟩
      · exact absurd h (by simp)
    · exact absurd h (by simp)
  · rintro ⟨length, hlength, hnonneg, hle, rfl⟩
    have hpos : 0 ≤ length := by
      rw [Int32.le_iff_toInt_le, Int32.toInt_zero]
      exact hnonneg
    rw [hlength]
    dsimp only
    rw [if_pos ⟨hpos, by omega⟩]

theorem contents_text_length (length : Nat) (t : String) :
    (NativeArgument.contents length (.text t)).length = t.length + 1 := by
  show (CellText.unpackedCells (CodePage.encode t)).length = _
  rw [CellText.unpackedCells_length, CodePage.encode_length]

/-- **What an argument needs is what is put into the heap for it.** -/
theorem needs_iff {a : NativeArgument} {n : Nat} : a.Needs arguments lengthIndex n ↔
    ∃ length, a.measure? arguments lengthIndex = some length ∧ (a.contents length).length = n := by
  constructor
  · intro h
    cases h with
    | integer value => exact ⟨0, rfl, rfl⟩
    | float value => exact ⟨0, rfl, rfl⟩
    | reference value => exact ⟨0, rfl, rfl⟩
    | text t => exact ⟨0, rfl, contents_text_length 0 t⟩
    | @array values length hlength hnonneg hle =>
        refine ⟨_, lengthAt?_eq_some_iff.mpr ⟨length, hlength, hnonneg, hle, rfl⟩, ?_⟩
        exact List.length_take_of_le (by omega)
    | buffer bytes => exact ⟨0, rfl, List.length_replicate⟩
  · rintro ⟨length, hlength, rfl⟩
    cases a with
    | integer value => exact .integer value
    | float value => exact .float value
    | reference value => exact .reference value
    | text t =>
        rw [contents_text_length]
        exact .text t
    | array values =>
        obtain ⟨cell, hcell, hnonneg, hle, rfl⟩ := lengthAt?_eq_some_iff.mp hlength
        have hcells : (NativeArgument.contents cell.toInt.toNat (.array values)).length
            = cell.toInt.toNat := List.length_take_of_le (by omega)
        rw [hcells]
        exact .array hcell hnonneg hle
    | buffer bytes =>
        have hcells : (NativeArgument.contents length (.buffer bytes)).length = bytes.length :=
          List.length_replicate
        rw [hcells]
        exact .buffer bytes

theorem NativeArgument.Needs.unique {a : NativeArgument} {n k : Nat} (h : a.Needs arguments lengthIndex n)
    (h' : a.Needs arguments lengthIndex k) : n = k := by
  obtain ⟨length, hlength, rfl⟩ := needs_iff.mp h
  obtain ⟨length', hlength', rfl⟩ := needs_iff.mp h'
  obtain rfl : length = length' := Option.some.inj (hlength.symm.trans hlength')
  rfl

/-- Only of an array it cannot be told what it needs. -/
theorem measure?_eq_none {a : NativeArgument} (h : a.measure? arguments lengthIndex = none) :
    ∃ values, a = .array values ∧ ∀ n, ¬ a.Needs arguments lengthIndex n := by
  have hneeds : ∀ n, ¬ a.Needs arguments lengthIndex n := by
    intro n hn
    obtain ⟨length, hlength, _⟩ := needs_iff.mp hn
    rw [h] at hlength
    exact absurd hlength (by simp)
  cases a with
  | array values => exact ⟨values, rfl, hneeds⟩
  | _ => exact absurd h (by simp [NativeArgument.measure?])

end

/-! ## The first argument that cannot be placed -/

section

variable {offset : Nat → Nat} {arguments : List NativeArgument} {room : Nat}

/-- **Where the length of an array stands**: as far behind it as the table says for an array of its
occurrence. -/
def lengthIndex (offset : Nat → Nat) (arguments : List NativeArgument) (index : Nat) : Nat :=
  index + offset (arraysBefore arguments index)

/-- **The cells that are taken in front of an index**, if it can be told of all those arguments. -/
inductive Taken (offset : Nat → Nat) (arguments : List NativeArgument) : Nat → Nat → Prop where
  | none : Taken offset arguments 0 0
  | next {index taken n : Nat} {a : NativeArgument} : Taken offset arguments index taken →
      arguments[index]? = some a → a.Needs arguments (lengthIndex offset arguments index) n →
      Taken offset arguments (index + 1) (taken + n)

/--
**The argument at an index cannot be placed**, and all those in front of it can. Either it is an
array whose length cannot be told, or what it needs is more than what is left. `room` is the number
of cells that there are for all arguments.
-/
inductive RefusedAt (offset : Nat → Nat) (arguments : List NativeArgument) (room index : Nat) :
    CallError → Prop where
  | length {taken : Nat} {values : List Cell} : Taken offset arguments index taken → taken ≤ room →
      arguments[index]? = some (.array values) →
      (∀ n, ¬ (NativeArgument.array values).Needs arguments (lengthIndex offset arguments index) n) →
      RefusedAt offset arguments room index
        (.arrayLength index (lengthIndex offset arguments index))
  | memory {taken n : Nat} {a : NativeArgument} : Taken offset arguments index taken →
      taken ≤ room → arguments[index]? = some a →
      a.Needs arguments (lengthIndex offset arguments index) n → room < taken + n →
      RefusedAt offset arguments room index (.memory (.outOfMemory n (room - taken)))

theorem Taken.unique {index taken taken' : Nat} (h : Taken offset arguments index taken)
    (h' : Taken offset arguments index taken') : taken = taken' := by
  induction h generalizing taken' with
  | none =>
      cases h'
      rfl
  | @next index taken n a _ ha hn ih =>
      cases h' with
      | @next _ taken' n' a' htaken' ha' hn' =>
          obtain rfl : a = a' := Option.some.inj (ha.symm.trans ha')
          rw [ih htaken', hn.unique hn']

/-- In front of an index it is taken less than in front of a later one. -/
theorem Taken.earlier {index later taken : Nat} (h : Taken offset arguments later taken)
    (hle : index ≤ later) : ∃ taken', Taken offset arguments index taken' ∧ taken' ≤ taken := by
  induction h with
  | none =>
      obtain rfl : index = 0 := by omega
      exact ⟨0, .none, Nat.le_refl _⟩
  | @next later taken n a htaken ha hn ih =>
      by_cases hlast : index = later + 1
      · subst hlast
        exact ⟨taken + n, .next htaken ha hn, Nat.le_refl _⟩
      · obtain ⟨taken', h', hle'⟩ := ih (by omega)
        exact ⟨taken', h', by omega⟩

/-- **Behind a refused argument nothing is placed.** -/
theorem RefusedAt.not_taken {index taken : Nat} {e : CallError}
    (h : RefusedAt offset arguments room index e) (htaken : Taken offset arguments (index + 1) taken) :
    room < taken := by
  cases htaken with
  | @next _ before n a hbefore ha hn =>
      cases h with
      | length _ _ hvalues hunknown =>
          obtain rfl := Option.some.inj (ha.symm.trans hvalues)
          exact absurd hn (hunknown n)
      | @memory before' n' a' hbefore' _ ha' hn' hfull =>
          obtain rfl : a = a' := Option.some.inj (ha.symm.trans ha')
          rw [hbefore.unique hbefore', hn.unique hn']
          exact hfull

theorem RefusedAt.inside {index : Nat} {e : CallError} (h : RefusedAt offset arguments room index e) :
    index < arguments.length := by
  cases h with
  | length _ _ ha _ => exact (List.getElem?_eq_some_iff.mp ha).1
  | memory _ _ ha _ _ => exact (List.getElem?_eq_some_iff.mp ha).1

theorem RefusedAt.fits {index : Nat} {e : CallError} (h : RefusedAt offset arguments room index e) :
    ∃ taken, Taken offset arguments index taken ∧ taken ≤ room := by
  cases h with
  | length htaken hle _ _ => exact ⟨_, htaken, hle⟩
  | memory htaken hle _ _ _ => exact ⟨_, htaken, hle⟩

/-- **An argument is refused for one reason.** -/
theorem RefusedAt.error_unique {index : Nat} {e e' : CallError}
    (h : RefusedAt offset arguments room index e) (h' : RefusedAt offset arguments room index e') :
    e = e' := by
  cases h with
  | length _ _ hvalues hunknown =>
      cases h' with
      | length _ _ _ _ => rfl
      | @memory _ n a _ _ ha hn _ =>
          obtain rfl := Option.some.inj (ha.symm.trans hvalues)
          exact absurd hn (hunknown n)
  | @memory _ n a htaken _ ha hn _ =>
      cases h' with
      | length _ _ hvalues hunknown =>
          obtain rfl := Option.some.inj (ha.symm.trans hvalues)
          exact absurd hn (hunknown n)
      | @memory _ n' a' htaken' _ ha' hn' _ =>
          obtain rfl : a = a' := Option.some.inj (ha.symm.trans ha')
          rw [htaken.unique htaken', hn.unique hn']

/-- The arguments in front of a refused one are placed, so no other comes first. -/
theorem RefusedAt.le {index index' : Nat} {e e' : CallError}
    (h : RefusedAt offset arguments room index e) (h' : RefusedAt offset arguments room index' e') :
    index' ≤ index := by
  obtain ⟨taken, htaken, hle⟩ := h'.fits
  by_contra hlt
  obtain ⟨taken', htaken', hle'⟩ := htaken.earlier (show index + 1 ≤ index' by omega)
  have hroom := h.not_taken htaken'
  omega

/-- **At most one argument is refused.** -/
theorem RefusedAt.unique {index index' : Nat} {e e' : CallError}
    (h : RefusedAt offset arguments room index e) (h' : RefusedAt offset arguments room index' e') :
    index = index' ∧ e = e' := by
  obtain rfl : index = index' := Nat.le_antisymm (h'.le h) (h.le h')
  exact ⟨rfl, h.error_unique h'⟩

/-! ## Placing -/

theorem arraysBefore_next {index : Nat} {a : NativeArgument} (h : arguments[index]? = some a) :
    arraysBefore arguments (index + 1) =
      if Registry.isArray a then arraysBefore arguments index + 1 else arraysBefore arguments index := by
  unfold arraysBefore
  rw [List.take_add_one, h, List.countP_append]
  cases ha : Registry.isArray a <;> simp [ha]

/-- **What placing an argument comes to**, behind arguments that were placed: it is refused, or its cells
are taken as well. -/
theorem Scratch.Sound.placeOne_next {s : Scratch} (h : Sound s) {base index taken : Nat}
    {a : NativeArgument} (hroom : base + room = capacity) (hused : s.used = base + taken)
    (htaken : Taken offset arguments index taken) (ha : arguments[index]? = some a) :
    (∃ e, Registry.placeOne arguments index (lengthIndex offset arguments index) a s = (.error e, s)
        ∧ RefusedAt offset arguments room index e) ∨
      ∃ placed s' n, Registry.placeOne arguments index (lengthIndex offset arguments index) a s
          = (.ok placed, s')
        ∧ Sound s' ∧ s'.used = base + (taken + n)
        ∧ Taken offset arguments (index + 1) (taken + n) := by
  have hle := h.used_le
  have hfits : taken ≤ room := by omega
  rw [h.placeOne]
  cases hm : a.measure? arguments (lengthIndex offset arguments index) with
  | none =>
      obtain ⟨values, rfl, hunknown⟩ := measure?_eq_none hm
      exact Or.inl ⟨_, rfl, .length htaken hfits ha hunknown⟩
  | some length =>
      have hneeds : a.Needs arguments (lengthIndex offset arguments index)
          (a.contents length).length := needs_iff.mpr ⟨length, hm, rfl⟩
      dsimp only
      by_cases hfit : s.used + (a.contents length).length ≤ capacity
      · rw [if_pos hfit]
        refine Or.inr ⟨_, _, _, rfl, h.extended hfit, ?_, .next htaken ha hneeds⟩
        rw [extended_used hfit, hused, Nat.add_assoc]
      · rw [if_neg hfit]
        have hleft : capacity - s.used = room - taken := by omega
        rw [hleft]
        exact Or.inl ⟨_, rfl, .memory htaken hfits ha hneeds (by omega)⟩

/-- **Placing arguments ends at the first that cannot be placed**, or with the cells of all of them taken. -/
theorem place_ends {base : Nat} (hroom : base + room = capacity) :
    ∀ (rest : List NativeArgument) {index taken : Nat} {s : Scratch}, Sound s →
      s.used = base + taken → Taken offset arguments index taken → arguments.drop index = rest →
      (∃ e s' i, Registry.place offset arguments index (arraysBefore arguments index) rest s
          = (.error e, s') ∧ RefusedAt offset arguments room i e) ∨
        ∃ placed s' total, Registry.place offset arguments index (arraysBefore arguments index) rest s
            = (.ok placed, s')
          ∧ Taken offset arguments arguments.length total ∧ total ≤ room
  | [], index, taken, s, h, hused, htaken, hrest => by
      have hle := h.used_le
      have hlast : arguments.length ≤ index := List.drop_eq_nil_iff.mp hrest
      obtain ⟨total, htotal, hless⟩ := htaken.earlier hlast
      exact Or.inr ⟨[], s, total, rfl, htotal, by omega⟩
  | a :: rest, index, taken, s, h, hused, htaken, hrest => by
      have ha : arguments[index]? = some a := by
        rw [← List.head?_drop, hrest]
        rfl
      have hnext : arguments.drop (index + 1) = rest := by
        rw [← List.tail_drop, hrest]
        rfl
      have hlength : index + offset (arraysBefore arguments index) =
          lengthIndex offset arguments index := rfl
      rw [Registry.place, hlength]
      rcases h.placeOne_next hroom hused htaken ha with
        ⟨e, hone, hrefused⟩ | ⟨placed, s₁, n, hone, hs₁, hused₁, htaken₁⟩
      · rw [hone]
        exact Or.inl ⟨e, s, index, rfl, hrefused⟩
      · rw [hone]
        dsimp only
        rw [← arraysBefore_next ha]
        rcases place_ends hroom rest hs₁ hused₁ htaken₁ hnext with
          ⟨e, s', i, hplace, hrefused⟩ | ⟨more, s', total, hplace, htotal, hle⟩
        · rw [hplace]
          exact Or.inl ⟨e, s', i, rfl, hrefused⟩
        · rw [hplace]
          exact Or.inr ⟨placed :: more, s', total, rfl, htotal, hle⟩

/-- All arguments together, from the first on. -/
theorem place_all {s : Scratch} (h : Sound s) (offset : Nat → Nat)
    (arguments : List NativeArgument) :
    (∃ e s' i, Registry.place offset arguments 0 0 arguments s = (.error e, s')
        ∧ RefusedAt offset arguments s.availableCells i e) ∨
      ∃ placed s' total, Registry.place offset arguments 0 0 arguments s = (.ok placed, s')
        ∧ Taken offset arguments arguments.length total ∧ total ≤ s.availableCells := by
  have hle := h.used_le
  have hroom : s.used + s.availableCells = capacity := by
    rw [h.availableCells]
    omega
  exact place_ends hroom arguments h rfl .none rfl

/-- **If one argument is refused, placing them ends there.** -/
theorem RefusedAt.place {s : Scratch} (h : Sound s) {index : Nat} {e : CallError}
    (hrefused : RefusedAt offset arguments s.availableCells index e) :
    ∃ s', Registry.place offset arguments 0 0 arguments s = (.error e, s') := by
  rcases place_all h offset arguments with
    ⟨e', s', i, hplace, hrefused'⟩ | ⟨placed, s', total, hplace, htotal, hle⟩
  · obtain ⟨_, rfl⟩ := hrefused.unique hrefused'
    exact ⟨s', hplace⟩
  · -- a refused argument is one of the arguments, and all of them were placed
    obtain ⟨taken, htaken, hless⟩ := htotal.earlier hrefused.inside
    have hfull := hrefused.not_taken htaken
    omega

end

namespace Registry

variable {F W : Type}

/-- **A call that is refused**: the name is not known, or one of the arguments cannot be placed. -/
inductive Refuses (registry : Registry F) (name : String) (arguments : List NativeArgument) :
    CallError → Prop where
  | unknown : registry.find? name = none → Refuses registry name arguments (.unknownFunction name)
  | argument {handle : F} {index : Nat} {e : CallError} : registry.find? name = some handle →
      RefusedAt (registry.arrayLengths.offset name) arguments registry.scratch.availableCells
        index e →
      Refuses registry name arguments e

/-- **The runs of natives** in a call. -/
def runs (registry : Registry F) (meaning : F → Native W) (name : String)
    (arguments : List NativeArgument) (w : W) : List NativeRun :=
  (registry.call (fun handle => (meaning handle).noted) name arguments (w, [])).world.2

/-- **The top of the heap is put back**, whatever the native did to it. -/
theorem call_heapTop (registry : Registry F) (meaning : F → Native W) (name : String)
    (arguments : List NativeArgument) (w : W) :
    (registry.call meaning name arguments w).registry.scratch.heapTop = registry.scratch.heapTop := by
  unfold call
  cases registry.find? name with
  | none => rfl
  | some handle => rfl

/-- **A refused call calls nothing** and leaves the arguments as they were. The native is not asked. -/
theorem Refuses.call {registry : Registry F} (hs : Sound registry.scratch) {name : String}
    {arguments : List NativeArgument} {e : CallError} (h : registry.Refuses name arguments e)
    (meaning : F → Native W) (w : W) :
    let outcome := registry.call meaning name arguments w
    outcome.result = .error e ∧ outcome.arguments = arguments ∧ outcome.world = w := by
  cases h with
  | unknown hname =>
      intro outcome
      have houtcome : outcome = ⟨.error (.unknownFunction name), arguments, registry, w⟩ := by
        show registry.call meaning name arguments w = _
        unfold Registry.call
        rw [hname]
      rw [houtcome]
      exact ⟨rfl, rfl, rfl⟩
  | argument hname hrefused =>
      intro outcome
      obtain ⟨s, hplace⟩ := hrefused.place hs
      have houtcome : outcome = _ := call_refused meaning w hname hplace
      rw [houtcome]
      exact ⟨rfl, rfl, rfl⟩

theorem Refuses.runs {registry : Registry F} (hs : Sound registry.scratch) {name : String}
    {arguments : List NativeArgument} {e : CallError} (h : registry.Refuses name arguments e)
    (meaning : F → Native W) (w : W) : registry.runs meaning name arguments w = [] := by
  obtain ⟨_, _, hworld⟩ := h.call hs (fun handle => (meaning handle).noted) (w, [])
  exact congrArg (·.2) hworld

/-- **A call that is not refused calls its native once** and answers what it did. -/
theorem call_answers {registry : Registry F} (hs : Sound registry.scratch) {meaning : F → Native W}
    {name : String} {arguments : List NativeArgument} (w : W)
    (hkeeps : ∀ handle, registry.find? name = some handle → (meaning handle).KeepsCursors)
    (h : ∀ e, ¬ registry.Refuses name arguments e) :
    ∃ run, registry.runs meaning name arguments w = [run]
      ∧ (registry.call meaning name arguments w).result = .ok run.result := by
  cases hname : registry.find? name with
  | none => exact absurd (.unknown hname) (h _)
  | some handle =>
      rcases place_all hs (registry.arrayLengths.offset name) arguments with
        ⟨e, s, i, _, hrefused⟩ | ⟨placed, s, _, hplace, _, _⟩
      · exact absurd (.argument hname hrefused) (h e)
      · -- the noted call is the same call, and it shows the run
        have hnoted := call_reached w [] hs hname (hkeeps handle hname) hplace
        obtain ⟨hsame, _⟩ := registry.call_noted meaning name arguments w []
        exact ⟨(meaning handle).run s.machine (block placed) w, congrArg (·.world.2) hnoted,
          hsame.symm.trans (congrArg (·.result) hnoted)⟩

end Registry

/--
**A call is all or nothing.** Take a registry whose heap is in order, any name, any arguments and any
natives.

If the native of that name keeps the cursors, a call answers an error exactly if `Refuses` says so,
and it is that error. The name is not known, or one argument is the first that cannot be placed,
because its length cannot be told or because it needs more cells than are left. Then nothing is
called, and the caller's arguments and the world are as they were. Otherwise the native is called
once, and the call answers what the native did.

Whatever the native does, the top of the heap is afterwards where it was.
-/
theorem call_is_all_or_nothing {F W : Type} {registry : Registry F} (hs : Sound registry.scratch)
    (meaning : F → Native W) (name : String) (arguments : List NativeArgument) (w : W) :
    let outcome := registry.call meaning name arguments w
    let runs := registry.runs meaning name arguments w
    ((∀ handle, registry.find? name = some handle → (meaning handle).KeepsCursors) →
        (∀ e, outcome.result = .error e ↔ registry.Refuses name arguments e)
          ∧ ((∃ e, outcome.result = .error e) ∧ runs = [] ∧ outcome.arguments = arguments
              ∧ outcome.world = w
            ∨ ∃ run, runs = [run] ∧ outcome.result = .ok run.result))
      ∧ outcome.registry.scratch.heapTop = registry.scratch.heapTop := by
  intro outcome runs
  refine ⟨fun hkeeps => ?_, registry.call_heapTop meaning name arguments w⟩
  by_cases hrefuses : ∃ e, registry.Refuses name arguments e
  · obtain ⟨e, he⟩ := hrefuses
    obtain ⟨hresult, hkept, hworld⟩ := he.call hs meaning w
    refine ⟨fun e' => ⟨fun he' => ?_, fun he' => (he'.call hs meaning w).1⟩,
      Or.inl ⟨⟨e, hresult⟩, he.runs hs meaning w, hkept, hworld⟩⟩
    obtain rfl : e = e' := Except.error.inj (hresult.symm.trans he')
    exact he
  · have hnone : ∀ e, ¬ registry.Refuses name arguments e := fun e he => hrefuses ⟨e, he⟩
    obtain ⟨run, hruns, hresult⟩ := Registry.call_answers hs w hkeeps hnone
    refine ⟨fun e => ⟨fun he => ?_, fun he => absurd he (hnone e)⟩, Or.inr ⟨run, hruns, hresult⟩⟩
    exact absurd (hresult.symm.trans he) (by simp)

/-- An array of two entries with a length of three, behind an argument that was placed. -/
theorem call_is_all_or_nothing_tooLong :
    let registry : Registry Unit := { natives := [("Poke", ())] }
    let arguments : List NativeArgument := [.reference 5, .array [1, 2], .integer 3]
    let outcome := registry.call (fun _ => Native.poke 7) "Poke" arguments ()
    Sound registry.scratch ∧ (Native.poke 7).KeepsCursors
      ∧ outcome.result = .error (.arrayLength 1 2)
      ∧ registry.runs (fun _ => Native.poke 7) "Poke" arguments () = []
      ∧ outcome.arguments = arguments
      ∧ outcome.registry.scratch.heapTop = registry.scratch.heapTop := by
  intro registry arguments outcome
  have hkeeps := Native.poke_keepsCursors 7
  have hs : Sound registry.scratch := sound_new
  obtain ⟨hcall, htop⟩ := call_is_all_or_nothing hs (fun _ => Native.poke 7) "Poke" arguments ()
  obtain ⟨herror, hends⟩ := hcall fun _ _ => hkeeps
  have hresult : outcome.result = .error (.arrayLength 1 2) := by
    -- the reference in front of the array takes a cell
    have htaken : Taken (registry.arrayLengths.offset "Poke") arguments 1 1 :=
      .next .none rfl (.reference 5)
    refine (herror _).mpr (.argument rfl (.length htaken ?_ rfl ?_))
    · rw [sound_new.availableCells]
      decide
    · intro n hn
      cases hn with
      | array hlength _ hle =>
          obtain rfl := NativeArgument.integer.inj (Option.some.inj hlength)
          exact absurd hle (by decide)
  rcases hends with ⟨_, hruns, hkept, _⟩ | ⟨run, _, hok⟩
  · exact ⟨hs, hkeeps, hresult, hruns, hkept, htop⟩
  · exact absurd (hok.symm.trans hresult) (by simp)

end ScriptBridge
