import ScriptBridge.Interception.Interceptor

/-!
# Arguments read off the stack

A callback is declared with arguments, each at a place of the stack. They are read in order into a
bag that is used for every call, and reading stops at the first that cannot be read.

What the bag holds in the end is said here without the order of reading. `Program.Holds` says when
all declared arguments can be read at all, and `Bag.ReadOff` which values a bag then has to hold.
A name may be declared more than once. The bag has room for one value of it, so it is the last place
of the name that counts. Nothing in `Bag.ReadOff` is about what the bag held before.
-/

namespace ScriptBridge

/-! ## Names and values of a bag -/

namespace Bag

/-- The names that hold a value. -/
def names (bag : Bag) : List String := bag.entries.map (·.1)

theorem store_names (name : String) (value : ArgumentValue) :
    ∀ entries : List (String × ArgumentValue), (store name value entries).map (·.1) =
      if name ∈ entries.map (·.1) then entries.map (·.1) else entries.map (·.1) ++ [name]
  | [] => rfl
  | (key, held) :: rest => by
      have ih := store_names name value rest
      unfold store
      by_cases hkey : key = name
      · simp [hkey]
      · rw [if_neg hkey, List.map_cons, ih, List.map_cons]
        by_cases hrest : name ∈ rest.map (·.1)
        · rw [if_pos hrest, if_pos (List.mem_cons_of_mem _ hrest)]
        · rw [if_neg hrest, if_neg (by simp [Ne.symm hkey, hrest]), List.cons_append]

theorem lookup_store (name other : String) (value : ArgumentValue) :
    ∀ entries : List (String × ArgumentValue), (store name value entries).lookup other =
      if other = name then some value else entries.lookup other
  | [] => by
      by_cases hother : other = name
      · simp [store, hother]
      · simp [store, List.lookup_cons, hother, beq_eq_false_iff_ne.mpr hother]
  | (key, held) :: rest => by
      have ih := lookup_store name other value rest
      unfold store
      by_cases hkey : key = name
      · rw [if_pos hkey]
        by_cases hother : other = name
        · simp [hother]
        · have hne : (other == name) = false := beq_eq_false_iff_ne.mpr hother
          simp [List.lookup_cons, hkey, hother, hne]
      · rw [if_neg hkey, List.lookup_cons, List.lookup_cons, ih]
        by_cases hother : other = name
        · have hne : (other == key) = false := beq_eq_false_iff_ne.mpr (hother ▸ Ne.symm hkey)
          simp [hother, hother ▸ hne]
        · rw [if_neg hother, if_neg hother]

theorem mem_names_insert (bag : Bag) (name other : String) (value : ArgumentValue) :
    other ∈ (bag.insert name value).names ↔ other = name ∨ other ∈ bag.names := by
  unfold names insert
  rw [store_names]
  by_cases hname : name ∈ bag.entries.map (·.1)
  · rw [if_pos hname]
    exact ⟨Or.inr, fun h => h.elim (fun heq => heq ▸ hname) id⟩
  · rw [if_neg hname, List.mem_append, List.mem_singleton]
    exact Or.comm

/-- A name is never stored twice. -/
theorem nodup_names_insert {bag : Bag} (h : bag.names.Nodup) (name : String)
    (value : ArgumentValue) : (bag.insert name value).names.Nodup := by
  unfold names insert at *
  rw [store_names]
  by_cases hname : name ∈ bag.entries.map (·.1)
  · rw [if_pos hname]
    exact h
  · rw [if_neg hname]
    rw [List.nodup_append]
    refine ⟨h, List.pairwise_singleton _ name, fun a ha b hb => ?_⟩
    rw [List.mem_singleton.mp hb]
    exact fun heq => hname (heq ▸ ha)

theorem get?_insert (bag : Bag) (name other : String) (value : ArgumentValue) :
    (bag.insert name value).get? other = if other = name then some value else bag.get? other :=
  lookup_store name other value bag.entries

end Bag

/-! ## What is on the stack -/

namespace Program

/-- **The value of an argument** whose cell was read: the cell itself, the number whose bits it
holds, or the text that lies at it. -/
inductive CellReads (program : Program) (cell : Cell) : ArgumentKind → ArgumentValue → Prop where
  | integer : CellReads program cell .integer (.integer cell)
  | float : CellReads program cell .float (.float ⟨cell.toUInt32⟩)
  | text {text : String} : program.readText? cell = some text →
      CellReads program cell .text (.text text)

/-- **The value of an argument** at a place of the stack. -/
def Reads (program : Program) (place : Nat) (kind : ArgumentKind) (value : ArgumentValue) : Prop :=
  ∃ cell, program.argument? place = some cell ∧ program.CellReads cell kind value

/-- **All declared arguments are there**: enough were pushed, each place of the stack can be read,
and each text lies at an address that can be read. -/
structure Holds (program : Program) (declared : List (String × ArgumentKind)) : Prop where
  pushed : declared.length ≤ program.argumentCount
  readable : ∀ (place : Nat) (name : String) (kind : ArgumentKind),
    declared[place]? = some (name, kind) →
    ∃ cell, program.argument? place = some cell ∧
      (kind = .text → (program.readText? cell).isSome = true)

end Program

/-- **What a bag holds for declared arguments**: their names, each once, and under each name the
value at the last of its places. -/
structure Bag.ReadOff (program : Program) (declared : List (String × ArgumentKind)) (bag : Bag) :
    Prop where
  once : bag.names.Nodup
  names : ∀ name, name ∈ bag.names ↔ name ∈ declared.map (·.1)
  value : ∀ (place : Nat) (name : String) (kind : ArgumentKind),
    declared[place]? = some (name, kind) →
    (∀ (later : Nat) (kind' : ArgumentKind), place < later →
      declared[later]? ≠ some (name, kind')) →
    ∃ value, bag.get? name = some value ∧ program.Reads place kind value

namespace Interceptor

theorem argumentValue?_eq_some_iff {program : Program} {cell : Cell} {kind : ArgumentKind}
    {value : ArgumentValue} :
    argumentValue? program cell kind = some value ↔ program.CellReads cell kind value := by
  constructor
  · intro h
    cases kind with
    | integer => obtain rfl := Option.some.inj h; exact .integer
    | float => obtain rfl := Option.some.inj h; exact .float
    | text =>
        obtain ⟨text, htext, rfl⟩ := Option.map_eq_some_iff.mp h
        exact .text htext
  · rintro (_ | _ | htext)
    · rfl
    · rfl
    · exact Option.map_eq_some_iff.mpr ⟨_, htext, rfl⟩

/-- What reading finds at a place. -/
theorem read_eq_some_iff {program : Program} {place : Nat} {kind : ArgumentKind}
    {value : ArgumentValue} :
    ((program.argument? place).bind fun cell => argumentValue? program cell kind) = some value ↔
      program.Reads place kind value := by
  rw [Option.bind_eq_some_iff]
  exact exists_congr fun cell => and_congr_right fun _ => argumentValue?_eq_some_iff

/-- A place can be read if its cell can and, for a text, if the cell is an address of one. -/
theorem exists_reads_iff {program : Program} {place : Nat} {kind : ArgumentKind} :
    (∃ value, program.Reads place kind value) ↔
      ∃ cell, program.argument? place = some cell ∧
        (kind = .text → (program.readText? cell).isSome = true) := by
  constructor
  · rintro ⟨value, cell, hcell, hvalue⟩
    refine ⟨cell, hcell, ?_⟩
    cases hvalue with
    | integer => exact fun h => absurd h (by decide)
    | float => exact fun h => absurd h (by decide)
    | text htext => exact fun _ => Option.isSome_iff_exists.mpr ⟨_, htext⟩
  · rintro ⟨cell, hcell, htext⟩
    cases kind with
    | integer => exact ⟨_, cell, hcell, .integer⟩
    | float => exact ⟨_, cell, hcell, .float⟩
    | text =>
        obtain ⟨text, ht⟩ := Option.isSome_iff_exists.mp (htext rfl)
        exact ⟨_, cell, hcell, .text ht⟩

/-! ## Filling a bag -/

theorem fillBag_cons_some {program : Program} {index : Nat} {name : String} {kind : ArgumentKind}
    {value : ArgumentValue} (h : program.Reads index kind value)
    (rest : List (String × ArgumentKind)) (bag : Bag) :
    fillBag program index ((name, kind) :: rest) bag =
      fillBag program (index + 1) rest (bag.insert name value) := by
  rw [fillBag, read_eq_some_iff.mpr h]

theorem fillBag_cons_none {program : Program} {index : Nat} {name : String} {kind : ArgumentKind}
    (h : ¬ ∃ value, program.Reads index kind value) (rest : List (String × ArgumentKind))
    (bag : Bag) : fillBag program index ((name, kind) :: rest) bag = (false, bag) := by
  have hnone :
      ((program.argument? index).bind fun cell => argumentValue? program cell kind) = none :=
    Option.eq_none_iff_forall_ne_some.mpr fun value hvalue => h ⟨value, read_eq_some_iff.mp hvalue⟩
  rw [fillBag, hnone]

/-- **Reading succeeds exactly if every place can be read.** -/
theorem fillBag_fst (program : Program) :
    ∀ (declared : List (String × ArgumentKind)) (index : Nat) (bag : Bag),
      (fillBag program index declared bag).1 = true ↔
        ∀ (place : Nat) (name : String) (kind : ArgumentKind),
          declared[place]? = some (name, kind) → ∃ value, program.Reads (index + place) kind value
  | [], _, _ => by simp [fillBag]
  | (name, kind) :: rest, index, bag => by
      by_cases hread : ∃ value, program.Reads index kind value
      · obtain ⟨value, hvalue⟩ := hread
        rw [fillBag_cons_some hvalue, fillBag_fst program rest]
        constructor
        · intro h place name' kind' hplace
          cases place with
          | zero =>
              obtain ⟨rfl, rfl⟩ := Prod.mk.inj (Option.some.inj hplace)
              exact ⟨value, hvalue⟩
          | succ place =>
              rw [← Nat.add_assoc, Nat.add_right_comm]
              exact h place name' kind' hplace
        · intro h place name' kind' hplace
          rw [Nat.add_right_comm, Nat.add_assoc]
          exact h (place + 1) name' kind' hplace
      · rw [fillBag_cons_none hread]
        exact ⟨fun h => absurd h Bool.false_ne_true, fun h => absurd (h 0 name kind rfl) hread⟩

/-- **What reading puts into a bag**, on top of what was there. A name that is not declared keeps
its value, and a declared one gets the value at the last of its places. -/
theorem fillBag_snd (program : Program) :
    ∀ (declared : List (String × ArgumentKind)) (index : Nat) (bag : Bag),
      (fillBag program index declared bag).1 = true → bag.names.Nodup →
      let filled := (fillBag program index declared bag).2
      filled.names.Nodup
        ∧ (∀ name, name ∈ filled.names ↔ name ∈ bag.names ∨ name ∈ declared.map (·.1))
        ∧ (∀ name, name ∉ declared.map (·.1) → filled.get? name = bag.get? name)
        ∧ ∀ (place : Nat) (name : String) (kind : ArgumentKind),
          declared[place]? = some (name, kind) →
          (∀ (later : Nat) (kind' : ArgumentKind), place < later →
            declared[later]? ≠ some (name, kind')) →
          ∃ value, filled.get? name = some value ∧ program.Reads (index + place) kind value
  | [], _, _, _, hnodup => ⟨hnodup, by simp [fillBag], fun _ _ => rfl, by simp⟩
  | (name, kind) :: rest, index, bag, hfilled, hnodup => by
      have hread : ∃ value, program.Reads index kind value :=
        (fillBag_fst program _ index bag).mp hfilled 0 name kind rfl
      obtain ⟨value, hvalue⟩ := hread
      rw [fillBag_cons_some hvalue] at hfilled ⊢
      obtain ⟨honce, hnames, hother, hlast⟩ := fillBag_snd program rest (index + 1)
        (bag.insert name value) hfilled (Bag.nodup_names_insert hnodup name value)
      refine ⟨honce, fun name' => ?_, fun name' hname' => ?_,
        fun place name' kind' hplace hlater => ?_⟩
      · rw [hnames, Bag.mem_names_insert, List.map_cons, List.mem_cons, or_assoc, or_left_comm]
      · rw [List.map_cons, List.mem_cons, not_or] at hname'
        rw [hother name' hname'.2, Bag.get?_insert, if_neg hname'.1]
      · cases place with
        | zero =>
            obtain ⟨rfl, rfl⟩ := Prod.mk.inj (Option.some.inj hplace)
            -- the name does not come again, so its value stays
            have hrest : name ∉ rest.map (·.1) := by
              intro hmem
              obtain ⟨entry, hentry, rfl⟩ := List.mem_map.mp hmem
              obtain ⟨later, hl⟩ := List.getElem?_of_mem hentry
              exact hlater (later + 1) entry.2 (Nat.succ_pos later) hl
            refine ⟨value, ?_, hvalue⟩
            rw [hother name hrest, Bag.get?_insert, if_pos rfl]
        | succ place =>
            obtain ⟨value', hget, hreads⟩ := hlast place name' kind' hplace fun later kind'' hlt =>
              hlater (later + 1) kind'' (Nat.succ_lt_succ hlt)
            refine ⟨value', hget, ?_⟩
            rw [← Nat.add_assoc, Nat.add_right_comm]
            exact hreads

/-! ## Reading the arguments of a callback -/

/-- **The arguments of a callback are read exactly if they are all there**, whatever the bag holds.
-/
theorem readArguments_fst {program : Program} {callback : Callback} {bag : Bag} :
    (readArguments program callback bag).1 = true ↔ program.Holds callback.arguments := by
  unfold readArguments
  by_cases hcount : program.argumentCount < callback.arguments.length
  · rw [if_pos hcount]
    exact ⟨fun h => absurd h Bool.false_ne_true, fun h => absurd h.pushed (Nat.not_le_of_lt hcount)⟩
  · rw [if_neg hcount, fillBag_fst]
    have hpushed : callback.arguments.length ≤ program.argumentCount := Nat.le_of_not_lt hcount
    constructor
    · intro h
      refine ⟨hpushed, fun place name kind hplace => exists_reads_iff.mp ?_⟩
      have hreads := h place name kind hplace
      rwa [Nat.zero_add] at hreads
    · intro h place name kind hplace
      rw [Nat.zero_add]
      exact exists_reads_iff.mpr (h.readable place name kind hplace)

/-- **A bag that was read holds the arguments of its callback and nothing else.** -/
theorem readArguments_snd {program : Program} {callback : Callback} {bag filled : Bag}
    (h : readArguments program callback bag = (true, filled)) :
    filled.ReadOff program callback.arguments := by
  have hholds : program.Holds callback.arguments := readArguments_fst.mp (congrArg Prod.fst h)
  unfold readArguments at h
  rw [if_neg (Nat.not_lt_of_le hholds.pushed)] at h
  -- the bag is emptied first
  obtain ⟨honce, hnames, _, hlast⟩ := fillBag_snd program callback.arguments 0 Bag.empty
    (congrArg Prod.fst h) List.nodup_nil
  rw [h] at honce hnames hlast
  refine ⟨honce, fun name => ?_, fun place name kind hplace hlater => ?_⟩
  · rw [hnames]
    exact or_iff_right (by simp [Bag.names, Bag.empty])
  · obtain ⟨value, hget, hreads⟩ := hlast place name kind hplace hlater
    rw [Nat.zero_add] at hreads
    exact ⟨value, hget, hreads⟩

end Interceptor

end ScriptBridge
