import Mathlib.Data.List.Forall2
import ScriptBridge.Proofs.Marshalling

/-!
# Memory that cannot be told apart

Scratch memory is never wiped. What an earlier call left lies above the top of the heap until the
cells are taken again, and it differs from one history to another. This file says that nobody can
see it.

**Two relations.** Machines look alike if no read tells them apart; that is how a native sees them.
Scratch memories are alike if they differ in nothing but cells above the top; that is how the
caller leaves them. The second gives the first, because nothing above the top can be read. A
native that keeps to what it may use gives back the second.

**Placing.** Arguments that differ in the bytes of their buffers alone go into alike memory as
the same cells, at the same addresses, and what was there before is overwritten.
-/

namespace ScriptBridge

namespace Machine

/-- **Machines that look alike.** They are the same but for their cells, and every read gives the same. -/
structure LooksLike (m m' : Machine) : Prop where
  rest : m' = { m with cells := m'.cells }
  size : m'.cells.size = m.cells.size
  reads : ∀ address, m'.read? address = m.read? address

/-- Which cells can be used does not depend on their contents. -/
theorem index?_of_rest {m m' : Machine} (h : m' = { m with cells := m'.cells }) (address : Cell) :
    m'.index? address = m.index? address := by
  rw [h]
  rfl

theorem LooksLike.cellAt {m m' : Machine} (h : m.LooksLike m') {address : Cell} {i : Nat}
    (hi : m.index? address = some i) : m'.cellAt i = m.cellAt i := by
  have hread := h.reads address
  unfold read? at hread
  rw [index?_of_rest h.rest, hi] at hread
  exact Option.some.inj hread

theorem LooksLike.setCell {m m' : Machine} (h : m.LooksLike m') (i : Nat) (value : Cell) :
    (m.setCell i value).LooksLike (m'.setCell i value) := by
  have hsize := h.size
  refine ⟨?_, ?_, fun address => ?_⟩
  · unfold Machine.setCell
    rw [h.rest]
  · exact Array.size_setIfInBounds.trans (hsize.trans Array.size_setIfInBounds.symm)
  · unfold read?
    rw [show (m'.setCell i value).index? address = m.index? address from index?_of_rest h.rest _,
      show (m.setCell i value).index? address = m.index? address from rfl]
    cases hj : m.index? address with
    | none => rfl
    | some j =>
        refine congrArg some ?_
        unfold Machine.cellAt Machine.setCell
        rw [Array.getD_eq_getD_getElem?, Array.getD_eq_getD_getElem?, Array.getElem?_setIfInBounds,
          Array.getElem?_setIfInBounds, hsize]
        split
        · rfl
        · rw [← Array.getD_eq_getD_getElem?, ← Array.getD_eq_getD_getElem?]
          exact h.cellAt hj

end Machine

namespace Native

/--
**A native that keeps to what it may use**, and has no memory of its own. It changes cells and
nothing else of the machine, and what it does depends on what it can read.
-/
structure Confined (native : Native Unit) : Prop where
  writes : ∀ (m : Machine) (block : List Cell), ∃ cells : Array Cell,
    cells.size = m.cells.size ∧ (native m block ()).2.1 = { m with cells }
  result : ∀ {m m' : Machine} (block : List Cell), m.LooksLike m' →
    (native m' block ()).1 = (native m block ()).1
  exit : ∀ {m m' : Machine} (block : List Cell), m.LooksLike m' →
    (native m block ()).2.1.LooksLike (native m' block ()).2.1

/-- A native that puts a value where its first parameter points uses nothing else. -/
theorem poke_confined (value : Cell) : (poke value).Confined := by
  refine ⟨fun m block => ?_, fun {m m'} block h => ?_, fun {m m'} block h => ?_⟩
  · unfold poke Machine.write?
    cases m.index? (block.getD 1 0) with
    | none => exact ⟨m.cells, rfl, rfl⟩
    | some i => exact ⟨_, Array.size_setIfInBounds, rfl⟩
  · unfold poke Machine.write?
    rw [Machine.index?_of_rest h.rest]
    cases m.index? (block.getD 1 0) <;> rfl
  · unfold poke Machine.write?
    rw [Machine.index?_of_rest h.rest]
    cases m.index? (block.getD 1 0) with
    | none => exact h
    | some i => exact h.setCell i value

theorem Confined.keepsCursors {native : Native Unit} (h : native.Confined) :
    native.KeepsCursors := by
  intro m block w
  obtain ⟨cells, hsize, hexit⟩ := h.writes m block
  rw [show native m block w = native m block () from rfl, hexit]
  exact ⟨rfl, rfl, rfl, rfl, hsize⟩

end Native

namespace Scratch

/-- **Scratch memories that are alike.** Only cells above the top of the heap differ. -/
structure Alike (s t : Scratch) : Prop where
  rest : t.machine = { s.machine with cells := t.machine.cells }
  left : Sound s
  right : Sound t
  cells : ∀ i, i < s.used → t.machine.cellAt i = s.machine.cellAt i

theorem Alike.refl {s : Scratch} (h : Sound s) : s.Alike s := ⟨rfl, h, h, fun _ _ => rfl⟩

theorem Alike.used {s t : Scratch} (h : s.Alike t) : t.used = s.used := by
  unfold Scratch.used heapTop
  rw [h.rest]

theorem Alike.trans {s t u : Scratch} (h : s.Alike t) (h' : t.Alike u) : s.Alike u := by
  refine ⟨?_, h.left, h'.right, fun i hi => ?_⟩
  · have hrest := h'.rest
    rw [h.rest] at hrest
    exact hrest
  · rw [h'.cells i (by rw [h.used]; exact hi), h.cells i hi]

theorem Alike.cellsFrom {s t : Scratch} (h : s.Alike t) {start count : Nat}
    (hle : start + count ≤ s.used) :
    t.machine.cellsFrom start count = s.machine.cellsFrom start count :=
  Machine.cellsFrom_congr fun i _ hi => h.cells i (by omega)

/-- **Alike memories stay alike** when the same cells go on top of them. -/
theorem Alike.extended {s t : Scratch} (h : s.Alike t) {values : List Cell}
    (hfit : s.used + values.length ≤ capacity) : (s.extended values).Alike (t.extended values) := by
  have hfit' : t.used + values.length ≤ capacity := by rw [h.used]; exact hfit
  refine ⟨?_, h.left.extended hfit, h.right.extended hfit', fun i hi => ?_⟩
  · unfold Scratch.extended Machine.setCells
    rw [h.used, h.rest]
  · rw [extended_used hfit] at hi
    by_cases hbelow : i < s.used
    · rw [extended_cellAt (by rw [h.used]; exact hbelow), extended_cellAt hbelow, h.cells i hbelow]
    · -- the cell is one of those that were put there
      have hs := h.left.extended_cellsFrom hfit
      have ht := h.right.extended_cellsFrom hfit'
      rw [h.used] at ht
      exact Machine.cellAt_of_cellsFrom_eq (ht.trans hs.symm) (by omega) hi

/-- **What is alike looks alike.** -/
theorem Alike.looksLike {s t : Scratch} (h : s.Alike t) : s.machine.LooksLike t.machine := by
  refine ⟨h.rest, h.right.size.trans h.left.size.symm, fun address => ?_⟩
  unfold Machine.read?
  rw [Machine.index?_of_rest h.rest]
  cases hi : s.machine.index? address with
  | none => rfl
  | some i => exact congrArg some (h.cells i (h.left.index?_le hi).1)

theorem Alike.cells? {s t : Scratch} (h : s.Alike t) (address : Cell) :
    t.machine.cells? address = s.machine.cells? address := by
  have haccess : t.machine.accessibleCells address = s.machine.accessibleCells address := by
    rw [h.rest]
    rfl
  unfold Machine.cells?
  rw [Machine.index?_of_rest h.rest, haccess]
  cases hi : s.machine.index? address with
  | none => rfl
  | some i => exact congrArg some (h.cellsFrom (h.left.index?_le hi).2)

/-- **A native cannot tell what is alike apart**, and what it leaves is alike. -/
theorem Alike.exit {s t : Scratch} (h : s.Alike t) {native : Native Unit} (hn : native.Confined)
    (block : List Cell) :
    Alike ⟨(native s.machine block ()).2.1⟩ ⟨(native t.machine block ()).2.1⟩ := by
  have hkeeps := hn.keepsCursors
  have hexit := hn.exit block h.looksLike
  have hs := h.left.sameCursors (hkeeps s.machine block ())
  -- every cell below the top has an address, and there the two read the same
  refine ⟨hexit.rest, hs, h.right.sameCursors (hkeeps t.machine block ()), fun i hi => ?_⟩
  exact hexit.cellAt (hs.index?_addressOf hi)

end Scratch

/-! ## Arguments -/

/-- **Arguments that a native cannot tell apart.** The bytes of a buffer are not handed over. -/
inductive Interchangeable : NativeArgument → NativeArgument → Prop where
  | refl (a : NativeArgument) : Interchangeable a a
  | buffer {bytes bytes' : List UInt8} : bytes'.length = bytes.length →
      Interchangeable (.buffer bytes) (.buffer bytes')

namespace Interchangeable

open NativeArgument

variable {a b : NativeArgument}

theorem value? (h : Interchangeable a b) : b.value? = a.value? := by
  cases h <;> rfl

theorem isArray (h : Interchangeable a b) : Registry.isArray b = Registry.isArray a := by
  cases h <;> rfl

theorem contents (h : Interchangeable a b) (length : Nat) : b.contents length = a.contents length := by
  cases h with
  | refl => rfl
  | buffer hlen => exact congrArg (List.replicate · 0) hlen

/-- A length is an integer, and integers are the same. -/
theorem lengthAt? {as bs : List NativeArgument} (h : List.Forall₂ Interchangeable as bs)
    (index : Nat) (values : List Cell) :
    Registry.lengthAt? bs index values = Registry.lengthAt? as index values := by
  unfold Registry.lengthAt?
  induction h generalizing index with
  | nil => rfl
  | @cons a b as bs hab _ ih =>
      cases index with
      | succ index => exact ih index
      | zero => cases hab <;> rfl

theorem measure? {as bs : List NativeArgument} (has : List.Forall₂ Interchangeable as bs)
    (h : Interchangeable a b) (index : Nat) :
    b.measure? bs index = a.measure? as index := by
  cases h with
  | buffer _ => rfl
  | refl =>
      cases a with
      | array values => exact lengthAt? has index values
      | _ => rfl

end Interchangeable

open Scratch

/-- **One argument goes into alike memories alike.** -/
theorem placeOne_alike {as bs : List NativeArgument} (has : List.Forall₂ Interchangeable as bs)
    {a b : NativeArgument} (hab : Interchangeable a b) {s t : Scratch} (h : s.Alike t)
    (index lengthIndex : Nat) :
    (Registry.placeOne as index lengthIndex a s).2.Alike (Registry.placeOne bs index lengthIndex b t).2
      ∧ (Registry.placeOne bs index lengthIndex b t).1.map (·.parameter)
        = (Registry.placeOne as index lengthIndex a s).1.map (·.parameter) := by
  rw [h.left.placeOne, h.right.placeOne, hab.measure? has lengthIndex, h.used]
  cases a.measure? as lengthIndex with
  | none => exact ⟨h, rfl⟩
  | some length =>
      dsimp only
      rw [hab.contents length, hab.value?]
      by_cases hfit : s.used + (a.contents length).length ≤ capacity
      · rw [if_pos hfit, if_pos hfit]
        exact ⟨h.extended hfit, rfl⟩
      · rw [if_neg hfit, if_neg hfit]
        exact ⟨h, rfl⟩

/-- **Arguments go into alike memories alike.** Either they are refused for the same reason, or
their parameters are the same. -/
theorem place_alike (offset : Nat → Nat) {as bs : List NativeArgument}
    (has : List.Forall₂ Interchangeable as bs) :
    ∀ {rest rest' : List NativeArgument} (index occurrence : Nat) {s t : Scratch},
      List.Forall₂ Interchangeable rest rest' → s.Alike t →
      (Registry.place offset as index occurrence rest s).2.Alike
          (Registry.place offset bs index occurrence rest' t).2
        ∧ (Registry.place offset bs index occurrence rest' t).1.map (·.map (·.parameter))
          = (Registry.place offset as index occurrence rest s).1.map (·.map (·.parameter)) := by
  intro rest rest' index occurrence s t hrest
  induction hrest generalizing index occurrence s t with
  | nil => exact fun h => ⟨h, rfl⟩
  | @cons a b rest rest' hab _ ih =>
      intro h
      obtain ⟨halike, hparam⟩ := placeOne_alike has hab h index (index + offset occurrence)
      unfold Registry.place
      rw [hab.isArray]
      -- both sides refuse the argument or neither does, and the same holds for the rest
      rcases hs : Registry.placeOne as index (index + offset occurrence) a s with ⟨one, s₁⟩
      rcases ht : Registry.placeOne bs index (index + offset occurrence) b t with ⟨one', t₁⟩
      rw [hs, ht] at halike hparam
      cases one with
      | error e =>
          cases one' with
          | error e' =>
              obtain rfl : e' = e := Except.error.inj hparam
              exact ⟨halike, rfl⟩
          | ok p' => exact absurd hparam (by simp [Except.map])
      | ok p =>
          cases one' with
          | error e' => exact absurd hparam (by simp [Except.map])
          | ok p' =>
              -- the same cells went on top of both, so the rest goes on top of alike memories
              have hp : p'.parameter = p.parameter := Except.ok.inj hparam
              obtain ⟨halike, hparams⟩ := ih (index + 1)
                (if Registry.isArray a then occurrence + 1 else occurrence) halike
              dsimp only
              revert halike hparams
              rcases Registry.place offset as (index + 1) _ rest s₁ with ⟨e | ps, s₂⟩ <;>
                rcases Registry.place offset bs (index + 1) _ rest' t₁ with ⟨e' | qs, t₂⟩ <;>
                intro halike hparams
              · obtain rfl : e' = e := Except.error.inj hparams
                exact ⟨halike, rfl⟩
              · exact absurd hparams (by simp [Except.map])
              · exact absurd hparams (by simp [Except.map])
              · have hps : qs.map (·.parameter) = ps.map (·.parameter) := Except.ok.inj hparams
                refine ⟨halike, congrArg Except.ok ?_⟩
                show p'.parameter :: qs.map (·.parameter) = p.parameter :: ps.map (·.parameter)
                rw [hp, hps]

/-! ## What a call gives back -/

/-- Everything but the cells and the top of the heap is as it was. -/
def Scratch.SameMachine (s t : Scratch) : Prop :=
  t.machine = { s.machine with cells := t.machine.cells, heapTop := t.machine.heapTop }

theorem Scratch.SameMachine.trans {s t u : Scratch} (h : s.SameMachine t) (h' : t.SameMachine u) :
    s.SameMachine u := by
  unfold SameMachine at h h' ⊢
  rw [h] at h'
  exact h'

theorem Native.Confined.sameMachine {native : Native Unit} (h : native.Confined) (s : Scratch)
    (block : List Cell) : s.SameMachine ⟨(native s.machine block ()).2.1⟩ := by
  obtain ⟨cells, _, hexit⟩ := h.writes s.machine block
  unfold Scratch.SameMachine
  rw [hexit]

theorem place_sameMachine (offset : Nat → Nat) (arguments : List NativeArgument) :
    ∀ (rest : List NativeArgument) (index occurrence : Nat) {s : Scratch}, Sound s →
      Sound (Registry.place offset arguments index occurrence rest s).2
        ∧ s.SameMachine (Registry.place offset arguments index occurrence rest s).2
  | [], _, _, _, h => ⟨h, rfl⟩
  | a :: rest, index, occurrence, s, h => by
      unfold Registry.place
      rw [h.placeOne]
      cases a.measure? arguments (index + offset occurrence) with
      | none => exact ⟨h, rfl⟩
      | some length =>
          dsimp only
          by_cases hfit : s.used + (a.contents length).length ≤ capacity
          · rw [if_pos hfit]
            dsimp only
            obtain ⟨hsound, hsame⟩ := place_sameMachine offset arguments rest (index + 1)
              (if Registry.isArray a then occurrence + 1 else occurrence) (h.extended hfit)
            revert hsound hsame
            rcases Registry.place offset arguments (index + 1) _ rest
              (s.extended (a.contents length)) with ⟨e | ps, s'⟩ <;> intro hsound hsame
            · exact ⟨hsound, SameMachine.trans rfl hsame⟩
            · exact ⟨hsound, SameMachine.trans rfl hsame⟩
          · rw [if_neg hfit]
            exact ⟨h, rfl⟩

/-- **An empty heap is empty again** when the scope is closed, and nothing else changed. -/
theorem Scratch.Sound.alike_closeScope {s t : Scratch} (h : Sound s) (hempty : s.used = 0)
    (ht : Sound t) (hrest : s.SameMachine t) : s.Alike (t.closeScope s) := by
  refine ⟨?_, h, ht.closeScope h, fun i hi => by omega⟩
  unfold SameMachine at hrest
  show { t.machine with heapTop := s.machine.heapTop } = { s.machine with cells := t.machine.cells }
  rw [hrest]

end ScriptBridge
