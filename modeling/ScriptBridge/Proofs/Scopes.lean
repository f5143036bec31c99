import Mathlib.Data.List.Forall2
import ScriptBridge.Proofs.ScratchHeap
import ScriptBridge.Proofs.TextLayouts
import ScriptBridge.Proofs.Transcoding

/-!
# Scopes and the blocks in them

Scratch memory is used through scopes. Cells are taken in the innermost open scope, scopes are
closed in the reverse of the order in which they were opened, and closing one puts the top of the
heap back. A program of such actions is a list of them, and a `ScopedHeap` is the memory with its
open scopes and the blocks that were handed out in each.

**The invariant.** The blocks of all open scopes lie on top of each other without gaps, from the
start of the memory up to the top of the heap, and a scope starts where the blocks of the next outer
one end. `Stacked` says this of one scope and `Nested` of all of them. Both mention no cell at or
above the top, so neither a later push nor a closed scope can break them.

**Closed scopes leave nothing behind.** What a program is answered depends on the top of the heap and
on where the open scopes started, and on no cell (`SamePlaces`). So a program that is run
again after a scope was closed is answered the same.
-/

namespace ScriptBridge

open Scratch

/-! ## Programs -/

/-- **Something that is taken from the heap.** -/
inductive Push where
  | cell (value : Cell)
  | text (t : String)
  | zeros (count : Nat)
  | cells (values : List Cell)

namespace Push

/-- **The number of cells** that a push needs. A text needs one for each character and one for its
terminator. -/
def needs : Push → Nat
  | .cell _ => 1
  | .text t => t.length + 1
  | .zeros count => count
  | .cells values => values.length

/-- **What the cells hold** when they are handed out. -/
def contents : Push → List Cell
  | .cell value => [value]
  | .text t => CellText.unpackedCells (CodePage.encode t)
  | .zeros count => List.replicate count 0
  | .cells values => values

/-- Take the cells. -/
def on (s : Scratch) : Push → Except ScratchError Cell × Scratch
  | .cell value => s.pushCell value
  | .text t => s.pushText t
  | .zeros count => s.pushZeros count
  | .cells values => s.pushCells values

theorem contents_length (p : Push) : p.contents.length = p.needs := by
  cases p with
  | cell value => rfl
  | text t =>
      show (CellText.unpackedCells (CodePage.encode t)).length = t.length + 1
      rw [CellText.unpackedCells_length, CodePage.encode_length]
  | zeros count => exact List.length_replicate
  | cells values => rfl

/-- **All pushes are one.** If there is room the contents go on top of the heap, and otherwise nothing
happens. -/
theorem on_eq {s : Scratch} (h : Sound s) (p : Push) :
    p.on s =
      if p.needs ≤ s.availableCells then
        (.ok (Machine.addressOf s.used), s.extended p.contents)
      else (.error (.outOfMemory p.needs s.availableCells), s) := by
  have hle := h.used_le
  have hpush : p.on s = s.push p.contents := by
    cases p with
    | zeros count => exact h.pushZeros count
    | _ => rfl
  rw [hpush, h.push, p.contents_length, h.availableCells]
  by_cases hfit : s.used + p.needs ≤ capacity
  · rw [if_pos hfit, if_pos (by omega)]
  · rw [if_neg hfit, if_neg (by omega)]

end Push

/-- **An action on scratch memory.** -/
inductive ScopeAction where
  | enter
  | leave
  | push (p : Push)

/-- **A block that was handed out**, with what it held then. -/
structure Block where
  address : Cell
  contents : List Cell

/-- **An open scope**: the memory when it was opened, and the blocks since then, the latest first. -/
structure OpenScope where
  opened : Scratch
  blocks : List Block := []

/-- Note a push in a scope. One that is refused hands out no block. -/
def OpenScope.record (scope : OpenScope) (p : Push) : Except ScratchError Cell → OpenScope
  | .ok address => { scope with blocks := ⟨address, p.contents⟩ :: scope.blocks }
  | .error _ => scope

/-- **Scratch memory with its open scopes**, the innermost first. -/
structure ScopedHeap where
  scratch : Scratch := Scratch.new
  scopes : List OpenScope := []

namespace ScopedHeap

/-- **The blocks of all open scopes**, the latest first. -/
def blocks (heap : ScopedHeap) : List Block := heap.scopes.flatMap (·.blocks)

/-- What an action does, and what it answers if it is a push. Without an open scope nothing can be
pushed and none can be closed. -/
def act? (heap : ScopedHeap) :
    ScopeAction → Option (List (Except ScratchError Cell) × ScopedHeap)
  | .enter => some ([], ⟨heap.scratch, ⟨heap.scratch, []⟩ :: heap.scopes⟩)
  | .leave =>
    match heap.scopes with
    | [] => none
    | scope :: outer => some ([], ⟨heap.scratch.closeScope scope.opened, outer⟩)
  | .push p =>
    match heap.scopes with
    | [] => none
    | scope :: outer =>
      let (answer, scratch) := p.on heap.scratch
      some ([answer], ⟨scratch, scope.record p answer :: outer⟩)

/-- **Run a program.** The answers are those of its pushes, in order. -/
def run? : List ScopeAction → ScopedHeap → Option (List (Except ScratchError Cell) × ScopedHeap)
  | [], heap => some ([], heap)
  | action :: actions, heap =>
    match heap.act? action with
    | none => none
    | some (answers, heap) =>
      (run? actions heap).map fun (more, heap) => (answers ++ more, heap)

end ScopedHeap

/-- **A program that closes what it opens**, and nothing else. -/
inductive WellNested : List ScopeAction → Prop where
  | nil : WellNested []
  | push (p : Push) {rest : List ScopeAction} : WellNested rest → WellNested (.push p :: rest)
  | scope {body rest : List ScopeAction} : WellNested body → WellNested rest →
      WellNested (.enter :: (body ++ .leave :: rest))

/-! ## Blocks on top of each other -/

/-- **The blocks of a scope**, the latest first, without gaps from an index up to another. -/
inductive Stacked (m : Machine) (base : Nat) : List Block → Nat → Prop where
  | nil : Stacked m base [] base
  | cons {blocks : List Block} {start : Nat} {block : Block} : Stacked m base blocks start →
      block.address = Machine.addressOf start →
      m.cellsFrom start block.contents.length = block.contents →
      Stacked m base (block :: blocks) (start + block.contents.length)

/-- **The blocks of all open scopes**, without gaps from the start of the memory. -/
inductive Nested (m : Machine) : List OpenScope → Nat → Prop where
  | nil : Nested m [] 0
  | cons {scope : OpenScope} {outer : List OpenScope} {top : Nat} : Sound scope.opened →
      Nested m outer scope.opened.used → Stacked m scope.opened.used scope.blocks top →
      Nested m (scope :: outer) top

theorem Stacked.le {m : Machine} {base top : Nat} {blocks : List Block}
    (h : Stacked m base blocks top) : base ≤ top := by
  induction h with
  | nil => exact Nat.le_refl _
  | cons _ _ _ ih => omega

theorem Stacked.congr {m m' : Machine} {base top : Nat} {blocks : List Block}
    (h : Stacked m base blocks top) (hcells : ∀ i, i < top → m'.cellAt i = m.cellAt i) :
    Stacked m' base blocks top := by
  induction h with
  | nil => exact .nil
  | @cons blocks start block _ haddress hholds ih =>
      refine .cons (ih fun i hi => hcells i (by omega)) haddress ?_
      rw [Machine.cellsFrom_congr fun i _ hi => hcells i hi]
      exact hholds

theorem Nested.congr {m m' : Machine} {scopes : List OpenScope} {top : Nat}
    (h : Nested m scopes top) (hcells : ∀ i, i < top → m'.cellAt i = m.cellAt i) :
    Nested m' scopes top := by
  induction h with
  | nil => exact .nil
  | @cons scope outer top hsound _ hstacked ih =>
      have hle := hstacked.le
      exact .cons hsound (ih fun i hi => hcells i (by omega)) (hstacked.congr hcells)

/-- **Each block of a scope** lies between its ends and holds what it held. -/
theorem Stacked.mem {m : Machine} {base top : Nat} {blocks : List Block}
    (h : Stacked m base blocks top) : ∀ block ∈ blocks, ∃ start, base ≤ start
      ∧ start + block.contents.length ≤ top ∧ block.address = Machine.addressOf start
      ∧ m.cellsFrom start block.contents.length = block.contents := by
  induction h with
  | nil => intro block hblock; exact absurd hblock List.not_mem_nil
  | @cons blocks start first hrest haddress hholds ih =>
      have hle := hrest.le
      intro block hblock
      rcases List.mem_cons.mp hblock with rfl | hblock
      · exact ⟨start, hle, Nat.le_refl _, haddress, hholds⟩
      · obtain ⟨i, h1, h2, h3⟩ := ih block hblock
        exact ⟨i, h1, by omega, h3⟩

theorem Nested.mem {m : Machine} {scopes : List OpenScope} {top : Nat} (h : Nested m scopes top) :
    ∀ block ∈ scopes.flatMap (·.blocks), ∃ start, start + block.contents.length ≤ top
      ∧ block.address = Machine.addressOf start
      ∧ m.cellsFrom start block.contents.length = block.contents := by
  induction h with
  | nil => intro block hblock; exact absurd hblock List.not_mem_nil
  | @cons scope outer top _ _ hstacked ih =>
      have hle := hstacked.le
      intro block hblock
      rw [List.flatMap_cons, List.mem_append] at hblock
      rcases hblock with hblock | hblock
      · obtain ⟨start, _, h2, h3⟩ := hstacked.mem block hblock
        exact ⟨start, h2, h3⟩
      · obtain ⟨start, h1, h2⟩ := ih block hblock
        exact ⟨start, by omega, h2⟩

/-- **A block ends where a later one starts**, or in front of it. -/
def Block.Below (later earlier : Block) : Prop :=
  earlier.address.toInt + 4 * (earlier.contents.length : Int) ≤ later.address.toInt

theorem Block.below_of_index {later earlier : Block} {start start' : Nat}
    (hlater : later.address = Machine.addressOf start)
    (hearlier : earlier.address = Machine.addressOf start')
    (hle : start' + earlier.contents.length ≤ start) (hstart : start < 2 ^ 29) :
    later.Below earlier := by
  unfold Block.Below
  rw [hlater, hearlier, Machine.addressOf_toInt hstart, Machine.addressOf_toInt (by omega)]
  omega

theorem Stacked.pairwise {m : Machine} {base top : Nat} {blocks : List Block}
    (h : Stacked m base blocks top) (htop : top < 2 ^ 29) : blocks.Pairwise Block.Below := by
  induction h with
  | nil => exact .nil
  | @cons blocks start later hrest haddress _ ih =>
      refine .cons (fun earlier hearlier => ?_) (ih (by omega))
      obtain ⟨start', _, hle, haddress', _⟩ := hrest.mem earlier hearlier
      exact Block.below_of_index haddress haddress' hle (by omega)

/-- **No two blocks of open scopes overlap**, in whatever scopes they are. -/
theorem Nested.pairwise {m : Machine} {scopes : List OpenScope} {top : Nat}
    (h : Nested m scopes top) (htop : top < 2 ^ 29) :
    (scopes.flatMap (·.blocks)).Pairwise Block.Below := by
  induction h with
  | nil => exact .nil
  | @cons scope outer top _ houter hstacked ih =>
      have hle := hstacked.le
      rw [List.flatMap_cons, List.pairwise_append]
      refine ⟨hstacked.pairwise htop, ih (by omega), fun later hlater earlier hearlier => ?_⟩
      -- a block of an outer scope ends below the start of this scope
      obtain ⟨start, hbase, hend, haddress, _⟩ := hstacked.mem later hlater
      obtain ⟨start', hend', haddress', _⟩ := houter.mem earlier hearlier
      exact Block.below_of_index haddress haddress' (by omega) (by omega)

/-! ## Runs -/

namespace ScopedHeap

/-- **Scratch memory in order**, with the blocks of its open scopes in their places. -/
structure Kept (heap : ScopedHeap) : Prop where
  sound : Sound heap.scratch
  nested : Nested heap.scratch.machine heap.scopes heap.scratch.used

theorem kept_new : Kept {} := by
  have hempty : Scratch.new.used = 0 := used_of_heapTop (n := 0) (by decide) (Nat.zero_le _)
  refine ⟨sound_new, ?_⟩
  show Nested Scratch.new.machine [] Scratch.new.used
  rw [hempty]
  exact .nil

/-- A push that is answered with an address has put its block on top of those of its scope. -/
theorem Kept.push {heap : ScopedHeap} (h : heap.Kept) {scope : OpenScope} {outer : List OpenScope}
    (hscopes : heap.scopes = scope :: outer) (p : Push) :
    Kept ⟨(p.on heap.scratch).2, scope.record p (p.on heap.scratch).1 :: outer⟩ := by
  have hnested := h.nested
  rw [hscopes] at hnested
  have hle := h.sound.used_le
  rw [p.on_eq h.sound]
  by_cases hfit : p.needs ≤ heap.scratch.availableCells
  · rw [if_pos hfit]
    rw [h.sound.availableCells, ← p.contents_length] at hfit
    have hroom : heap.scratch.used + p.contents.length ≤ capacity := by omega
    -- what was there before lies below the old top
    have hbelow : Nested (heap.scratch.extended p.contents).machine (scope :: outer)
        heap.scratch.used := hnested.congr fun i hi => extended_cellAt hi
    refine ⟨h.sound.extended hroom, ?_⟩
    rw [extended_used hroom]
    cases hbelow with
    | cons hopened houter hstacked =>
        exact .cons hopened houter (.cons hstacked rfl (h.sound.extended_cellsFrom hroom))
  · rw [if_neg hfit]
    exact ⟨h.sound, hnested⟩

/-- **One action keeps the order.** -/
theorem Kept.act {heap heap' : ScopedHeap} {action : ScopeAction}
    {answers : List (Except ScratchError Cell)} (h : heap.Kept)
    (hact : heap.act? action = some (answers, heap')) : heap'.Kept := by
  cases action with
  | enter =>
      obtain ⟨_, rfl⟩ := Prod.mk.inj (Option.some.inj hact)
      exact ⟨h.sound, .cons h.sound h.nested .nil⟩
  | leave =>
      unfold act? at hact
      cases hscopes : heap.scopes with
      | nil => simp [hscopes] at hact
      | cons scope outer =>
          simp only [hscopes, Option.some.injEq, Prod.mk.injEq] at hact
          obtain ⟨_, rfl⟩ := hact
          have hnested := h.nested
          rw [hscopes] at hnested
          cases hnested with
          | cons hopened houter _ =>
              refine ⟨h.sound.closeScope hopened, ?_⟩
              rw [closeScope_used hopened]
              exact houter.congr fun _ _ => rfl
  | push p =>
      unfold act? at hact
      cases hscopes : heap.scopes with
      | nil => simp [hscopes] at hact
      | cons scope outer =>
          simp only [hscopes, Option.some.injEq, Prod.mk.injEq] at hact
          obtain ⟨_, rfl⟩ := hact
          exact h.push hscopes p

/-- **A whole program keeps the order.** -/
theorem Kept.run {heap heap' : ScopedHeap} {actions : List ScopeAction}
    {answers : List (Except ScratchError Cell)} (h : heap.Kept)
    (hrun : run? actions heap = some (answers, heap')) : heap'.Kept := by
  induction actions generalizing heap answers with
  | nil =>
      obtain ⟨_, rfl⟩ := Prod.mk.inj (Option.some.inj hrun)
      exact h
  | cons action actions ih =>
      rw [run?] at hrun
      cases hact : heap.act? action with
      | none => simp [hact] at hrun
      | some step =>
          obtain ⟨first, next⟩ := step
          simp only [hact] at hrun
          obtain ⟨⟨more, last⟩, hmore, heq⟩ := Option.map_eq_some_iff.mp hrun
          obtain ⟨_, rfl⟩ := Prod.mk.inj heq
          exact ih (h.act hact) hmore

theorem run?_append {heap next : ScopedHeap} {front : List ScopeAction}
    {answers : List (Except ScratchError Cell)} (hfront : run? front heap = some (answers, next))
    (actions : List ScopeAction) :
    run? (front ++ actions) heap =
      (run? actions next).map fun (more, last) => (answers ++ more, last) := by
  induction front generalizing heap answers with
  | nil =>
      obtain ⟨rfl, rfl⟩ := Prod.mk.inj (Option.some.inj hfront)
      simp
  | cons action front ih =>
      rw [run?] at hfront
      rw [List.cons_append, run?]
      cases hact : heap.act? action with
      | none => simp [hact] at hfront
      | some step =>
          obtain ⟨first, second⟩ := step
          simp only [hact] at hfront ⊢
          obtain ⟨⟨more, last⟩, hmore, heq⟩ := Option.map_eq_some_iff.mp hfront
          obtain ⟨rfl, rfl⟩ := Prod.mk.inj heq
          rw [ih hmore, Option.map_map]
          simp [Function.comp_def]

/-! ## Well-nested programs -/

/-- **What a well-nested program does to the open scopes**: nothing but putting blocks into the innermost. -/
inductive Grown : List OpenScope → List OpenScope → Prop where
  | more (blocks : List Block) {scope : OpenScope} {outer : List OpenScope} :
      Grown (scope :: outer) ({ scope with blocks := blocks ++ scope.blocks } :: outer)

theorem Grown.refl (scope : OpenScope) (outer : List OpenScope) :
    Grown (scope :: outer) (scope :: outer) := .more []

theorem Grown.trans {first second third : List OpenScope} (h : Grown first second)
    (h' : Grown second third) : Grown first third := by
  cases h with
  | more blocks =>
      cases h' with
      | more later =>
          rw [← List.append_assoc]
          exact .more (later ++ blocks)

theorem Grown.mem {scopes scopes' : List OpenScope} (h : Grown scopes scopes') {block : Block}
    (hblock : block ∈ scopes.flatMap (·.blocks)) : block ∈ scopes'.flatMap (·.blocks) := by
  cases h with
  | more blocks =>
      rw [List.flatMap_cons, List.mem_append] at hblock ⊢
      rcases hblock with hinner | houter
      · exact Or.inl (List.mem_append_right _ hinner)
      · exact Or.inr houter

theorem grown_record (scope : OpenScope) (outer : List OpenScope) (p : Push)
    (answer : Except ScratchError Cell) :
    Grown (scope :: outer) (scope.record p answer :: outer) := by
  cases answer with
  | error e => exact .refl scope outer
  | ok address => exact .more [⟨address, p.contents⟩]

/-- A scope that is opened, filled and closed leaves the top and the other scopes. -/
theorem run?_scope {heap inner : ScopedHeap} {body : List ScopeAction}
    {answers : List (Except ScratchError Cell)}
    (hbody : run? body ⟨heap.scratch, ⟨heap.scratch, []⟩ :: heap.scopes⟩ = some (answers, inner))
    (hgrown : Grown (⟨heap.scratch, []⟩ :: heap.scopes) inner.scopes) (rest : List ScopeAction) :
    run? (.enter :: (body ++ .leave :: rest)) heap =
      (run? rest ⟨inner.scratch.closeScope heap.scratch, heap.scopes⟩).map
        fun (more, last) => (answers ++ more, last) := by
  obtain ⟨scratch, scopes⟩ := inner
  cases hgrown with
  | more blocks =>
      rw [run?]
      simp only [act?]
      rw [run?_append hbody, run?]
      simp only [act?, Option.map_map]
      rfl

end ScopedHeap

open ScopedHeap

/-- **A well-nested program runs in any open scope.** -/
theorem WellNested.runs {body : List ScopeAction} (h : WellNested body) {heap : ScopedHeap}
    {scope : OpenScope} {outer : List OpenScope} (hscopes : heap.scopes = scope :: outer) :
    ∃ answers heap', run? body heap = some (answers, heap') ∧ Grown heap.scopes heap'.scopes := by
  induction h generalizing heap scope outer with
  | nil =>
      refine ⟨[], heap, rfl, ?_⟩
      rw [hscopes]
      exact .refl scope outer
  | @push p rest _ ih =>
      have hact : heap.act? (.push p) = some ([(p.on heap.scratch).1],
          ⟨(p.on heap.scratch).2, scope.record p (p.on heap.scratch).1 :: outer⟩) := by
        unfold act?
        rw [hscopes]
      have hopen : ScopedHeap.scopes ⟨(p.on heap.scratch).2,
          scope.record p (p.on heap.scratch).1 :: outer⟩ =
          scope.record p (p.on heap.scratch).1 :: outer := rfl
      obtain ⟨answers, heap', hrest, hgrown⟩ := ih hopen
      refine ⟨(p.on heap.scratch).1 :: answers, heap', ?_, ?_⟩
      · rw [run?, hact]
        simp only [hrest]
        rfl
      · rw [hscopes]
        exact (grown_record scope outer p _).trans hgrown
  | @scope body rest _ _ ihbody ihrest =>
      have hopen : ScopedHeap.scopes ⟨heap.scratch, ⟨heap.scratch, []⟩ :: heap.scopes⟩ =
          ⟨heap.scratch, []⟩ :: heap.scopes := rfl
      obtain ⟨first, inner, hbody, hinner⟩ := ihbody hopen
      have hclosed : ScopedHeap.scopes ⟨inner.scratch.closeScope heap.scratch, heap.scopes⟩ =
          scope :: outer := hscopes
      obtain ⟨later, heap', hrest, hgrown⟩ := ihrest hclosed
      refine ⟨first ++ later, heap', ?_, hgrown⟩
      rw [run?_scope hbody hinner, hrest]
      rfl

/-- **A scope can be opened, filled and closed at any time**, and then the top and the open scopes are
what they were. -/
theorem WellNested.closed {body : List ScopeAction} (h : WellNested body) (heap : ScopedHeap) :
    ∃ answers heap', run? (.enter :: (body ++ [.leave])) heap = some (answers, heap')
      ∧ heap'.scratch.heapTop = heap.scratch.heapTop ∧ heap'.scopes = heap.scopes := by
  have hopen : ScopedHeap.scopes ⟨heap.scratch, ⟨heap.scratch, []⟩ :: heap.scopes⟩ =
      ⟨heap.scratch, []⟩ :: heap.scopes := rfl
  obtain ⟨answers, inner, hbody, hgrown⟩ := h.runs hopen
  refine ⟨answers, ⟨inner.scratch.closeScope heap.scratch, heap.scopes⟩, ?_, rfl, rfl⟩
  rw [run?_scope hbody hgrown]
  simp [run?]

namespace ScopedHeap

/-! ## What answers depend on -/

/-- **Scopes that were opened at the same place.** -/
structure SameStart (scope scope' : OpenScope) : Prop where
  left : Sound scope.opened
  right : Sound scope'.opened
  used : scope'.opened.used = scope.opened.used

/-- **Memories in which the same places are taken.** Their cells need not be the same. -/
structure SamePlaces (heap heap' : ScopedHeap) : Prop where
  left : Sound heap.scratch
  right : Sound heap'.scratch
  used : heap'.scratch.used = heap.scratch.used
  scopes : List.Forall₂ SameStart heap.scopes heap'.scopes

theorem SameStart.record {scope scope' : OpenScope} (h : SameStart scope scope') (p : Push)
    (answer : Except ScratchError Cell) :
    SameStart (scope.record p answer) (scope'.record p answer) := by
  cases answer with
  | ok address => exact ⟨h.left, h.right, h.used⟩
  | error e => exact h

/-- Below the same top a push is refused in both memories or in none, and if not the tops move alike. -/
theorem push_alike {s s' : Scratch} (h : Sound s) (h' : Sound s') (hused : s'.used = s.used)
    (p : Push) : (p.on s').1 = (p.on s).1 ∧ Sound (p.on s).2 ∧ Sound (p.on s').2
      ∧ (p.on s').2.used = (p.on s).2.used := by
  have hle := h.used_le
  have hfree : s.availableCells = capacity - s.used := h.availableCells
  have hfree' : s'.availableCells = s.availableCells := by
    rw [h'.availableCells, hused, hfree]
  rw [p.on_eq h, p.on_eq h', hfree', hused]
  by_cases hfit : p.needs ≤ s.availableCells
  · rw [if_pos hfit, if_pos hfit]
    rw [hfree, ← p.contents_length] at hfit
    have hroom : s.used + p.contents.length ≤ capacity := by omega
    have hroom' : s'.used + p.contents.length ≤ capacity := by omega
    refine ⟨rfl, h.extended hroom, h'.extended hroom', ?_⟩
    rw [extended_used hroom, extended_used hroom', hused]
  · rw [if_neg hfit, if_neg hfit]
    exact ⟨rfl, h, h', hused⟩

/-- **One action is answered the same** where the same places are taken, and these stay the same. -/
theorem SamePlaces.act {heap heap' : ScopedHeap} (h : heap.SamePlaces heap')
    (action : ScopeAction) :
    (heap.act? action = none ∧ heap'.act? action = none) ∨
      ∃ answers next next', heap.act? action = some (answers, next)
        ∧ heap'.act? action = some (answers, next') ∧ next.SamePlaces next' := by
  obtain ⟨scratch, scopes⟩ := heap
  obtain ⟨scratch', scopes'⟩ := heap'
  obtain ⟨hleft, hright, hused, hscopes⟩ := h
  cases action with
  | enter =>
      have hopened : List.Forall₂ SameStart (⟨scratch, []⟩ :: scopes) (⟨scratch', []⟩ :: scopes') :=
        .cons ⟨hleft, hright, hused⟩ hscopes
      exact Or.inr ⟨[], _, _, rfl, rfl, hleft, hright, hused, hopened⟩
  | leave =>
      cases hscopes with
      | nil => exact Or.inl ⟨rfl, rfl⟩
      | cons hfirst houter =>
          refine Or.inr ⟨[], _, _, rfl, rfl, hleft.closeScope hfirst.left,
            hright.closeScope hfirst.right, ?_, houter⟩
          rw [closeScope_used hfirst.left, closeScope_used hfirst.right, hfirst.used]
  | push p =>
      cases hscopes with
      | nil => exact Or.inl ⟨rfl, rfl⟩
      | @cons scope scope' outer outer' hfirst houter =>
          obtain ⟨hanswer, hnext, hnext', hmoved⟩ := push_alike hleft hright hused p
          have hact : act? ⟨scratch', scope' :: outer'⟩ (.push p) = some ([(p.on scratch).1],
              ⟨(p.on scratch').2, scope'.record p (p.on scratch).1 :: outer'⟩) := by
            rw [← hanswer]
            rfl
          exact Or.inr ⟨_, _, _, rfl, hact, hnext, hnext', hmoved,
            .cons (hfirst.record p _) houter⟩

/-- **A whole program is answered the same** where the same places are taken. -/
theorem SamePlaces.run {heap heap' : ScopedHeap} (h : heap.SamePlaces heap')
    (actions : List ScopeAction) :
    (run? actions heap').map (·.1) = (run? actions heap).map (·.1) := by
  induction actions generalizing heap heap' with
  | nil => rfl
  | cons action actions ih =>
      rw [run?, run?]
      rcases h.act action with ⟨hnone, hnone'⟩ | ⟨answers, next, next', hact, hact', hnext⟩
      · rw [hnone, hnone']
      · have hrest := congrArg (Option.map (answers ++ ·)) (ih hnext)
        rw [hact, hact']
        simp only [Option.map_map] at hrest ⊢
        exact hrest

theorem Nested.sameStart {m : Machine} {scopes : List OpenScope} {top : Nat}
    (h : Nested m scopes top) : List.Forall₂ SameStart scopes scopes := by
  induction h with
  | nil => exact .nil
  | cons hopened _ _ ih => exact .cons ⟨hopened, hopened, rfl⟩ ih

/-- Memory with the same top and the same open scopes has the same places taken. -/
theorem Kept.samePlaces {heap heap' : ScopedHeap} (h : heap.Kept) (h' : heap'.Kept)
    (htop : heap'.scratch.heapTop = heap.scratch.heapTop) (hscopes : heap'.scopes = heap.scopes) :
    heap.SamePlaces heap' := by
  refine ⟨h.sound, h'.sound, ?_, ?_⟩
  · unfold Scratch.used
    rw [htop]
  · rw [hscopes]
    exact Nested.sameStart h.nested

end ScopedHeap

/-! ## The discipline -/

/-- **A block that is as it was handed out**: in place below the top, with its contents. -/
structure Block.Intact (s : Scratch) (block : Block) : Prop where
  aligned : 0 ≤ block.address ∧ block.address % 4 = 0
  below : block.address.toInt + 4 * (block.contents.length : Int) ≤ s.heapTop.toInt
  holds : s.readCells block.address block.contents.length = .ok block.contents

/-- **Every block of an open scope is intact.** -/
theorem ScopedHeap.Kept.intact {heap : ScopedHeap} (h : heap.Kept) :
    ∀ block ∈ heap.blocks, block.Intact heap.scratch := by
  have hlt := capacity_lt
  have hle := h.sound.used_le
  intro block hblock
  obtain ⟨start, hend, haddress, hholds⟩ := h.nested.mem block hblock
  refine ⟨?_, ?_, ?_⟩
  · rw [haddress]
    exact ⟨Machine.addressOf_nonneg (by omega), Machine.addressOf_aligned (by omega)⟩
  · rw [haddress, show heap.scratch.heapTop = _ from h.sound.heapTop,
      Machine.addressOf_toInt (by omega), Machine.addressOf_toInt (by omega)]
    omega
  · unfold Scratch.readCells
    rw [haddress, h.sound.range hend]
    exact congrArg Except.ok hholds

/-- **The top is a whole cell** between the start of the memory and the stack. -/
theorem Scratch.Sound.heapTop_bounds {s : Scratch} (h : Sound s) :
    s.heapTop % 4 = 0 ∧ 0 ≤ s.heapTop ∧ s.heapTop ≤ s.machine.stackTop := by
  have hlt := capacity_lt
  have hle := h.used_le
  rw [show s.heapTop = _ from h.heapTop, h.stackTop]
  refine ⟨Machine.addressOf_aligned (by omega), Machine.addressOf_nonneg (by omega), ?_⟩
  rw [Int32.le_iff_toInt_le, Machine.addressOf_toInt (by omega), Machine.addressOf_toInt (by omega)]
  omega

/--
**The discipline of scopes.** Take scratch memory after any program of opened and closed scopes and of
pushes of any kind, from an empty memory on.

* The top of the heap is a multiple of four between zero and the stack.
* A push is answered with the address of the top exactly if the cells that it needs can be taken, and
  otherwise it says how many can and changes nothing.
* The blocks of all open scopes lie below the top and below each other in the order in which they were
  handed out, and each holds what it held.
* They stay and keep their contents in any well-nested program that is run now.
* A scope that is opened, filled and closed again leaves the top and the open scopes as they were, and
  whatever is run then is answered as if it had never been opened.
* Without an open scope the memory is empty.
-/
theorem scopes_keep_blocks {actions : List ScopeAction}
    {answers : List (Except ScratchError Cell)} {heap : ScopedHeap}
    (hrun : run? actions {} = some (answers, heap)) :
    (heap.scratch.heapTop % 4 = 0 ∧ 0 ≤ heap.scratch.heapTop
        ∧ heap.scratch.heapTop ≤ heap.scratch.machine.stackTop)
      ∧ (∀ p : Push, if p.needs ≤ heap.scratch.availableCells
          then (p.on heap.scratch).1 = .ok heap.scratch.heapTop
          else p.on heap.scratch =
            (.error (.outOfMemory p.needs heap.scratch.availableCells), heap.scratch))
      ∧ (∀ block ∈ heap.blocks, block.Intact heap.scratch)
      ∧ heap.blocks.Pairwise Block.Below
      ∧ (∀ body, WellNested body → heap.scopes ≠ [] →
          ∃ more heap', run? body heap = some (more, heap')
            ∧ ∀ block ∈ heap.blocks, block ∈ heap'.blocks ∧ block.Intact heap'.scratch)
      ∧ (∀ body, WellNested body →
          ∃ more heap', run? (.enter :: (body ++ [.leave])) heap = some (more, heap')
            ∧ heap'.scratch.heapTop = heap.scratch.heapTop ∧ heap'.scopes = heap.scopes
            ∧ ∀ later, (run? later heap').map (·.1) = (run? later heap).map (·.1))
      ∧ (heap.scopes = [] → heap.scratch.heapTop = 0 ∧ heap.scratch.availableCells = capacity) := by
  have hkept : heap.Kept := kept_new.run hrun
  have hlt := capacity_lt
  have hle := hkept.sound.used_le
  have htop : heap.scratch.heapTop = Machine.addressOf heap.scratch.used := hkept.sound.heapTop
  refine ⟨hkept.sound.heapTop_bounds, fun p => ?_, hkept.intact, hkept.nested.pairwise (by omega),
    fun body hbody hopen => ?_, fun body hbody => ?_, fun hclosed => ?_⟩
  · rw [p.on_eq hkept.sound]
    by_cases hfit : p.needs ≤ heap.scratch.availableCells
    · rw [if_pos hfit, if_pos hfit, htop]
    · rw [if_neg hfit, if_neg hfit]
  · obtain ⟨scope, outer, hscopes⟩ := List.exists_cons_of_ne_nil hopen
    obtain ⟨more, heap', hmore, hgrown⟩ := hbody.runs hscopes
    refine ⟨more, heap', hmore, fun block hblock => ?_⟩
    have hblock' : block ∈ heap'.blocks := hgrown.mem hblock
    exact ⟨hblock', (hkept.run hmore).intact block hblock'⟩
  · obtain ⟨more, heap', hmore, htop', hscopes⟩ := hbody.closed heap
    refine ⟨more, heap', hmore, htop', hscopes, fun later => ?_⟩
    exact (hkept.samePlaces (hkept.run hmore) htop' hscopes).run later
  · have hnested := hkept.nested
    rw [hclosed] at hnested
    -- with no scope open there is nothing below the top
    generalize hused : heap.scratch.used = used at hnested
    cases hnested with
    | nil =>
        rw [htop, hkept.sound.availableCells, hused]
        exact ⟨rfl, rfl⟩

/-- A text in an outer scope, and an inner scope with an empty block and a cell. -/
theorem scopes_keep_blocks_inner :
    let actions : List ScopeAction :=
      [.enter, .push (.text "hi"), .enter, .push (.zeros 0), .push (.cells [7])]
    ∃ answers heap, run? actions {} = some (answers, heap)
      ∧ heap.blocks.map (·.contents) = [[7], [], [104, 105, 0]]
      ∧ (∀ block ∈ heap.blocks, block.Intact heap.scratch) ∧ heap.blocks.Pairwise Block.Below := by
  intro actions
  have hsome : (run? actions {}).isSome = true := by decide
  have hcontents : (run? actions {}).map (fun result => result.2.blocks.map (·.contents)) =
      some [[7], [], [104, 105, 0]] := by decide
  obtain ⟨⟨answers, heap⟩, hrun⟩ := Option.isSome_iff_exists.mp hsome
  obtain ⟨_, _, hintact, hbelow, _⟩ := scopes_keep_blocks hrun
  rw [hrun] at hcontents
  exact ⟨answers, heap, hrun, Option.some.inj hcontents, hintact, hbelow⟩

end ScriptBridge
