import ScriptBridge.Native.Call
import ScriptBridge.Proofs.ScratchHeap

/-!
# Where the arguments of a native lie

The arguments of a native are placed one after the other, and they are read back one after the
other, in two walks that have nothing in common but the block of parameters and the lengths of
the arrays. What couples them is the layout: the blocks of the arguments follow each other
without gaps, from the old top of the heap up to the new one.

**One argument.** `Sound.placeOne` is all that can happen when an argument is placed. Either its
length cannot be told, or there is no room for its cells, or its cells are put on top of the
heap. An argument that is passed by value has no cells, so it is no case of its own.

**All arguments.** `Laid` is the layout as a relation, one constructor for each way a list of
placed arguments can look. It mentions the memory only below the top, and later pushes write above
it.

**Reading back.** `readBack_eq` needs of a native only that it left the cursors alone: then every
block is still below the top and every read succeeds.
-/

namespace ScriptBridge

namespace NativeArgument

/-- The parameter that an argument is passed by, unless it is passed by address. -/
def value? : NativeArgument → Option Cell
  | .integer value => some value
  | .float value => some (Cell.ofSingle value)
  | _ => none

/-- **What a native finds at the address of an argument.** `length` is the number of entries that are
handed over of an array. -/
def contents (length : Nat) : NativeArgument → List Cell
  | .reference value => [value]
  | .text t => CellText.unpackedCells (CodePage.encode t)
  | .array values => values.take length
  | .buffer bytes => List.replicate bytes.length 0
  | _ => []

/-- A buffer of bytes that took a text: as much of the text as leaves room for a zero, the zero, and
what was there behind it. -/
def received (text : List UInt8) (bytes : List UInt8) : List UInt8 :=
  if bytes = [] then []
  else
    text.take (bytes.length - 1) ++ 0 :: bytes.drop (min text.length (bytes.length - 1) + 1)

/-- **An argument as a native left it**, if its block starts with the cell at `start`. -/
def after (m : Machine) (start length : Nat) : NativeArgument → NativeArgument
  | .reference _ => .reference (m.cellAt start)
  | .array values => .array (m.cellsFrom start length ++ values.drop length)
  | .buffer bytes =>
    .buffer (received (CellText.decode (m.cellsFrom start bytes.length)) bytes)
  | argument => argument

/-- The number of entries of an argument that are handed over. It can only be told of an array, whose
length stands at `lengthIndex`. -/
def measure? (arguments : List NativeArgument) (lengthIndex : Nat) : NativeArgument → Option Nat
  | .array values => Registry.lengthAt? arguments lengthIndex values
  | _ => some 0

end NativeArgument

namespace PlacedArgument

/-- The cells of a placed argument, as they are when the native is called. -/
def cells (p : PlacedArgument) : List Cell := p.argument.contents p.length

/-- The index of the first cell of a placed argument that is passed by address. -/
def start (p : PlacedArgument) : Nat := p.parameter.toInt.toNat / Machine.cellSize

def after (m : Machine) (p : PlacedArgument) : NativeArgument :=
  p.argument.after m p.start p.length

theorem start_of_address {p : PlacedArgument} {n : Nat} (h : p.parameter = Machine.addressOf n)
    (hn : n < 2 ^ 29) : p.start = n := by
  unfold start
  rw [h, Machine.addressOf_index hn]

end PlacedArgument

open Scratch NativeArgument

/-! ## One argument -/

theorem Scratch.Sound.extended_nil {s : Scratch} (h : Sound s) : s.extended [] = s := by
  have htop := h.heapTop
  cases s with
  | mk machine =>
      cases machine with
      | mk cells hasData heapTop stackTop stackEnd pushed image =>
          unfold Scratch.extended
          rw [List.length_nil, Nat.add_zero, ← htop]
          rfl

theorem placedAt_push {s : Scratch} (h : Sound s) (a : NativeArgument) (length : Nat)
    (values : List Cell) :
    Registry.placedAt a length (s.push values) =
      if s.used + values.length ≤ capacity then
        (.ok ⟨a, Machine.addressOf s.used, length⟩, s.extended values)
      else (.error (.memory (.outOfMemory values.length (capacity - s.used))), s) := by
  rw [h.push]
  split <;> rfl

/--
**What placing an argument does.** An array needs a length that can be told, and the cells of the
argument need room. If it has both its cells go on top of the heap, and the parameter is either
the value itself or the address of the first of those cells.
-/
theorem Scratch.Sound.placeOne {s : Scratch} (h : Sound s) (arguments : List NativeArgument)
    (index lengthIndex : Nat) (a : NativeArgument) :
    Registry.placeOne arguments index lengthIndex a s =
      match a.measure? arguments lengthIndex with
      | none => (.error (.arrayLength index lengthIndex), s)
      | some length =>
        if s.used + (a.contents length).length ≤ capacity then
          (.ok ⟨a, a.value?.getD (Machine.addressOf s.used), length⟩,
            s.extended (a.contents length))
        else
          (.error (.memory (.outOfMemory (a.contents length).length (capacity - s.used))), s) := by
  cases a with
  | integer value =>
      simp only [measure?]
      rw [if_pos (show s.used + (contents 0 (integer value)).length ≤ capacity from h.used_le)]
      rw [show contents 0 (integer value) = [] from rfl, h.extended_nil]
      rfl
  | float value =>
      simp only [measure?]
      rw [if_pos (show s.used + (contents 0 (float value)).length ≤ capacity from h.used_le)]
      rw [show contents 0 (float value) = [] from rfl, h.extended_nil]
      rfl
  | reference value => exact placedAt_push h _ _ _
  | text t => exact placedAt_push h _ _ _
  | array values =>
      simp only [Registry.placeOne, measure?]
      cases Registry.lengthAt? arguments lengthIndex values with
      | none => rfl
      | some length => exact placedAt_push h _ _ _
  | buffer bytes =>
      simp only [Registry.placeOne, measure?, h.pushZeros]
      exact placedAt_push h _ _ _

/-! ## All arguments -/

/--
**Placed arguments in a row.** `Laid m start ps top` says that the cells of `ps` follow each other
from the index `start` up to the index `top`, that `m` holds them there, and that each parameter
is what it should be.
-/
inductive Laid (m : Machine) : Nat → List PlacedArgument → Nat → Prop where
  | nil {start : Nat} : Laid m start [] start
  | cons {start top : Nat} {p : PlacedArgument} {ps : List PlacedArgument} :
      p.parameter = p.argument.value?.getD (Machine.addressOf start) →
      m.cellsFrom start p.cells.length = p.cells →
      Laid m (start + p.cells.length) ps top → Laid m start (p :: ps) top

theorem Laid.le {m : Machine} {start top : Nat} {ps : List PlacedArgument}
    (h : Laid m start ps top) : start ≤ top := by
  induction h with
  | nil => exact Nat.le_refl _
  | cons _ _ _ ih => omega

/-- Each argument has its block, with its cells in it. -/
theorem Laid.mem {m : Machine} {start top : Nat} {ps : List PlacedArgument}
    (h : Laid m start ps top) : ∀ p ∈ ps, ∃ n, start ≤ n ∧ n + p.cells.length ≤ top
      ∧ p.parameter = p.argument.value?.getD (Machine.addressOf n)
      ∧ m.cellsFrom n p.cells.length = p.cells := by
  induction h with
  | nil => intro p hp; exact absurd hp (by simp)
  | @cons start top q qs hq hc hrest ih =>
      intro p hp
      rcases List.mem_cons.mp hp with rfl | hp'
      · exact ⟨start, Nat.le_refl _, hrest.le, hq, hc⟩
      · obtain ⟨n, h1, h2⟩ := ih p hp'
        exact ⟨n, by omega, h2⟩

/-- The blocks of two arguments lie in the order of the arguments. -/
theorem Laid.pairwise {m : Machine} {start top : Nat} {ps : List PlacedArgument}
    (h : Laid m start ps top) (htop : top < 2 ^ 29) :
    ps.Pairwise fun p q => p.argument.value? = none → q.argument.value? = none →
      p.start + p.cells.length ≤ q.start := by
  induction h with
  | nil => exact .nil
  | @cons start top p qs hp hc hrest ih =>
      have hle := hrest.le
      -- a later block lies in the rest of the row, which starts behind the first one
      refine .cons (fun q hq hpv hqv => ?_) (ih htop)
      obtain ⟨n, h1, h2, h3, _⟩ := hrest.mem q hq
      rw [hpv] at hp
      rw [hqv] at h3
      rw [PlacedArgument.start_of_address hp (by omega),
        PlacedArgument.start_of_address h3 (by omega)]
      exact h1

/-- A row of arguments holds nothing but their cells. -/
theorem Laid.cellsFrom {m : Machine} {start top : Nat} {ps : List PlacedArgument}
    (h : Laid m start ps top) :
    m.cellsFrom start (top - start) = ps.flatMap (·.cells) := by
  induction h with
  | nil => simp [Machine.cellsFrom]
  | @cons start top p qs _ hc hrest ih =>
      have hle := hrest.le
      rw [show top - start = p.cells.length + (top - (start + p.cells.length)) by omega,
        Machine.cellsFrom_add, hc, ih, List.flatMap_cons]

/-- The arrays in front of a place. -/
def arraysBefore (arguments : List NativeArgument) (place : Nat) : Nat :=
  (arguments.take place).countP Registry.isArray

/-- The first argument of a row that was placed, and the rest of it. -/
theorem place_cons_ok {offset : Nat → Nat} {arguments rest : List NativeArgument}
    {index occurrence : Nat} {a : NativeArgument} {s s' : Scratch} {placed : List PlacedArgument}
    (h : Sound s)
    (hp : Registry.place offset arguments index occurrence (a :: rest) s = (.ok placed, s')) :
    ∃ (length : Nat) (more : List PlacedArgument),
      a.measure? arguments (index + offset occurrence) = some length
      ∧ s.used + (a.contents length).length ≤ capacity
      ∧ placed = ⟨a, a.value?.getD (Machine.addressOf s.used), length⟩ :: more
      ∧ Registry.place offset arguments (index + 1)
          (if Registry.isArray a then occurrence + 1 else occurrence) rest
          (s.extended (a.contents length)) = (.ok more, s') := by
  rw [Registry.place, h.placeOne] at hp
  cases hm : a.measure? arguments (index + offset occurrence) with
  | none => simp [hm] at hp
  | some length =>
      simp only [hm] at hp
      by_cases hfit : s.used + (a.contents length).length ≤ capacity
      · rw [if_pos hfit] at hp
        dsimp only at hp
        split at hp
        · simp at hp
        · rename_i more s₁ hr
          obtain ⟨h1, h2⟩ := Prod.mk.inj hp
          exact ⟨length, more, rfl, hfit, (Except.ok.inj h1).symm, h2 ▸ hr⟩
      · rw [if_neg hfit] at hp
        simp at hp

theorem arraysBefore_succ (a : NativeArgument) (rest : List NativeArgument) (place : Nat) :
    arraysBefore (a :: rest) (place + 1) =
      (if Registry.isArray a then 1 else 0) + arraysBefore rest place := by
  unfold arraysBefore
  rw [List.take_succ_cons, List.countP_cons, Nat.add_comm]

/--
**What placing the arguments does**, if none of them is refused. They are laid in a row on top of
the heap, the cells below stay as they were, and every array has the length that stands where the
table says.
-/
theorem place_ok {offset : Nat → Nat} {arguments : List NativeArgument} :
    ∀ {rest : List NativeArgument} {index occurrence : Nat} {s s' : Scratch}
      {placed : List PlacedArgument}, Sound s →
      Registry.place offset arguments index occurrence rest s = (.ok placed, s') →
      Sound s' ∧ placed.map (·.argument) = rest ∧ Laid s'.machine s.used placed s'.used
        ∧ (∀ i, i < s.used → s'.machine.cellAt i = s.machine.cellAt i)
        ∧ ∀ (i : Nat) (p : PlacedArgument), placed[i]? = some p → p.argument.measure? arguments
            (index + i + offset (occurrence + arraysBefore rest i)) = some p.length
  | [], index, occurrence, s, s', placed, h, hp => by
      rw [Registry.place] at hp
      obtain ⟨h1, h2⟩ := Prod.mk.inj hp
      obtain rfl : [] = placed := Except.ok.inj h1
      subst h2
      exact ⟨h, rfl, .nil, fun _ _ => rfl, fun i p hi => by simp at hi⟩
  | a :: rest, index, occurrence, s, s', placed, h, hp => by
      obtain ⟨length, more, hm, hfit, rfl, hr⟩ := place_cons_ok h hp
      obtain ⟨hs, hargs, hlaid, hbelow, hlen⟩ := place_ok (h.extended hfit) hr
      rw [extended_used hfit] at hlaid hbelow
      refine ⟨hs, by rw [List.map_cons, hargs], .cons rfl ?_ hlaid, ?_, ?_⟩
      · -- the cells of the first argument lie below everything that was placed later
        show s'.machine.cellsFrom s.used (a.contents length).length = a.contents length
        rw [Machine.cellsFrom_congr fun i _ hi => hbelow i hi]
        exact h.extended_cellsFrom hfit
      · intro i hi
        rw [hbelow i (by omega), extended_cellAt hi]
      · intro i p hi
        cases i with
        | zero =>
            obtain rfl := Option.some.inj hi
            simpa [arraysBefore] using hm
        | succ i =>
            -- the arrays are counted on from the first argument
            have hocc : (if Registry.isArray a then occurrence + 1 else occurrence)
                + arraysBefore rest i = occurrence + arraysBefore (a :: rest) (i + 1) := by
              rw [arraysBefore_succ]
              split <;> omega
            rw [← hlen i p hi, hocc, show index + (i + 1) = index + 1 + i by omega]

/-! ## Reading back -/

theorem terminated_eq (text bytes : List UInt8) :
    (terminated text bytes).2 = received text bytes := by
  unfold terminated received
  dsimp only
  by_cases hb : bytes = []
  · subst hb
    simp
  · have hpos : 0 < bytes.length := List.length_pos_iff.mpr hb
    have hk : (text.take (bytes.length - 1)).length = min text.length (bytes.length - 1) := by
      rw [List.length_take, Nat.min_comm]
    rw [if_neg hb, hk]
    -- cutting it to the size of the buffer takes nothing away
    refine congrArg _ (List.take_of_length_le ?_)
    rw [List.length_cons, List.length_drop]
    omega

/-- An argument whose block is still in use is read back. -/
theorem readBackOne_eq {s : Scratch} (h : Sound s) {p : PlacedArgument}
    (hp : p.argument.value? = none → ∃ n, p.parameter = Machine.addressOf n
      ∧ n + p.cells.length ≤ s.used)
    (hlen : ∀ values, p.argument = .array values → p.length ≤ values.length) :
    Registry.readBackOne s p = .ok (p.after s.machine) := by
  have hle := h.used_le
  have hlt := capacity_lt
  obtain ⟨argument, parameter, length⟩ := p
  cases argument with
  | integer value => rfl
  | float value => rfl
  | text t => rfl
  | reference value =>
      obtain ⟨n, hn, hfit⟩ := hp rfl
      have hstart := PlacedArgument.start_of_address hn (by omega)
      have hr : s.range parameter 1 = .ok n := by rw [show parameter = _ from hn]; exact h.range hfit
      unfold PlacedArgument.after Registry.readBackOne Scratch.readCell
      rw [hstart]
      simp only [hr]
      rfl
  | array values =>
      obtain ⟨n, hn, hfit⟩ := hp rfl
      have hstart := PlacedArgument.start_of_address hn (by omega)
      have hlen := hlen values rfl
      -- as many cells are read as were put there
      have hcells : n + length ≤ s.used := by
        have : (values.take length).length = length := List.length_take_of_le hlen
        rw [← this]
        exact hfit
      have hr : s.range parameter length = .ok n := by
        rw [show parameter = _ from hn]; exact h.range hcells
      unfold PlacedArgument.after Registry.readBackOne Scratch.readCells
      rw [hstart]
      simp only [hr, Except.map]
      unfold NativeArgument.after CellText.overlay
      rw [Machine.cellsFrom_length]
  | buffer bytes =>
      obtain ⟨n, hn, hfit⟩ := hp rfl
      have hstart := PlacedArgument.start_of_address hn (by omega)
      have hcells : n + bytes.length ≤ s.used := by
        have : (List.replicate bytes.length (0 : Cell)).length = bytes.length := List.length_replicate
        rw [← this]
        exact hfit
      have hr : s.range parameter bytes.length = .ok n := by
        rw [show parameter = _ from hn]; exact h.range hcells
      unfold PlacedArgument.after Registry.readBackOne Scratch.readText
      rw [hstart]
      simp only [hr, Except.map, terminated_eq]
      rfl

/-- An array is handed over up to a length that it has. -/
theorem measure?_le {arguments : List NativeArgument} {lengthIndex length : Nat}
    {values : List Cell}
    (h : measure? arguments lengthIndex (.array values) = some length) :
    length ≤ values.length := by
  simp only [measure?, Registry.lengthAt?] at h
  split at h
  · split at h
    · rename_i hok
      rw [← Option.some.inj h]
      exact hok.2
    · exact absurd h (by simp)
  · exact absurd h (by simp)

/-- **Every argument is read back**, in whatever order it lies in memory that kept its top. -/
theorem readBack_eq {s : Scratch} (h : Sound s) : ∀ {placed : List PlacedArgument},
    (∀ p ∈ placed, p.argument.value? = none → ∃ n, p.parameter = Machine.addressOf n
      ∧ n + p.cells.length ≤ s.used) →
    (∀ p ∈ placed, ∀ values, p.argument = .array values → p.length ≤ values.length) →
    Registry.readBack s placed = (.ok (), placed.map (·.after s.machine))
  | [], _, _ => rfl
  | p :: placed, hp, hlen => by
      rw [Registry.readBack, readBackOne_eq h (hp p List.mem_cons_self) (hlen p List.mem_cons_self)]
      dsimp only
      rw [readBack_eq h (fun q hq => hp q (List.mem_cons_of_mem _ hq))
        (fun q hq => hlen q (List.mem_cons_of_mem _ hq))]
      rfl

end ScriptBridge
