import Mathlib.Algebra.GroupWithZero.Nat
import ScriptBridge.Hook.Redirection

/-!
# What a patch changes

A hook writes into the export table or over the first bytes of a function. What it found there it
writes back later. So everything rests on a few facts: what was found and is written back changes
nothing, the last of several writes to one place counts, and writes to places that are apart do not
see each other.

Addresses wrap around at the end of the address space, so that a place is a range around the circle.
`Apart` is said of the addresses in two ranges and not of their ends for that reason.
-/

namespace ScriptBridge

/-! ## The export table -/

theorem Export.slot_injective {e other : Export} (h : e.slot = other.slot) : e = other := by
  cases e <;> cases other <;> first | rfl | exact absurd h (by decide)

namespace ExportTable

variable {table : ExportTable} {e other : Export} {a b : Address}

theorem address_store_ne (h : e ≠ other) : (table.store e a).address other = table.address other := by
  unfold address store
  rw [List.getD_eq_getElem?_getD, List.getD_eq_getElem?_getD,
    List.getElem?_set_ne fun hslot => h (Export.slot_injective hslot)]

/-- The last address that is stored counts. -/
theorem store_store : (table.store e a).store e b = table.store e b := by
  unfold store
  rw [List.set_set]

theorem store_comm (h : e ≠ other) :
    (table.store e a).store other b = (table.store other b).store e a := by
  unfold store
  rw [List.set_comm _ _ fun hslot => h (Export.slot_injective hslot)]

/-- An entry that is missing cannot be stored. -/
theorem store_address : table.store e (table.address e) = table := by
  unfold store address
  rw [List.getD_eq_getElem?_getD]
  by_cases hslot : e.slot < table.entries.length
  · rw [List.getElem?_eq_getElem hslot, Option.getD_some, List.set_getElem_self]
  · rw [List.set_eq_of_length_le (Nat.le_of_not_lt hslot)]

/-- An entry that is not null is there. -/
theorem slot_lt (h : table.address e ≠ 0) : e.slot < table.entries.length := by
  refine Nat.lt_of_not_le fun hslot => h ?_
  unfold address
  rw [List.getD_eq_getElem?_getD, List.getElem?_eq_none hslot]
  rfl

/-- What is stored in an entry that is there is found there. -/
theorem address_store (h : table.address e ≠ 0) : (table.store e a).address e = a := by
  unfold address store
  rw [List.getD_eq_getElem?_getD, List.getElem?_set_self (slot_lt h), Option.getD_some]

/-- **The entries after a store**: one is new, and the others are as they were. -/
theorem getElem?_store (h : table.address e ≠ 0) (slot : Nat) :
    (table.store e a).entries[slot]? = if slot = e.slot then some a else table.entries[slot]? := by
  unfold store
  by_cases hslot : slot = e.slot
  · rw [if_pos hslot, hslot, List.getElem?_set_self (slot_lt h)]
  · rw [if_neg hslot, List.getElem?_set_ne (Ne.symm hslot)]

end ExportTable

/-! ## Code memory -/

namespace CodeMemory

variable {code : CodeMemory} {start a b address : Address} {bytes other : List UInt8} {count : Nat}

/-- **Two places are apart**: no address lies in both. -/
def Apart (a b : Address) (count : Nat) : Prop :=
  ∀ address : Address, (address - a).toNat < count → ¬ (address - b).toNat < count

theorem Apart.symm (h : Apart a b count) : Apart b a count :=
  fun address hb ha => h address ha hb

/-- Places are apart if neither starts within the other. -/
theorem apart_of_distance (h : count ≤ (b - a).toNat) (h' : count ≤ (a - b).toNat) :
    Apart a b count := by
  intro address ha hb
  rw [UInt64.toNat_sub] at h h' ha hb
  have := a.toNat_lt
  have := b.toNat_lt
  have := address.toNat_lt
  omega

/-- Memory is its bytes and its pages. -/
theorem eq_of_byteAt {left right : CodeMemory} (h : ∀ address, left.byteAt address = right.byteAt address)
    (hmapped : left.mapped = right.mapped) : left = right := by
  cases left
  cases right
  obtain rfl := hmapped
  exact congrArg (CodeMemory.mk · _) (funext h)

theorem byteAt_write : (code.write start bytes).byteAt address =
    (bytes[(address - start).toNat]?).getD (code.byteAt address) := rfl

/-- What lies outside of the bytes that are written is as it was. -/
theorem byteAt_write_outside (h : ¬ (address - start).toNat < bytes.length) :
    (code.write start bytes).byteAt address = code.byteAt address := by
  rw [byteAt_write, List.getElem?_eq_none (Nat.le_of_not_lt h)]
  rfl

/-- What lies inside of them is not seen any more. -/
theorem byteAt_write_inside {code' : CodeMemory} (h : (address - start).toNat < bytes.length) :
    (code.write start bytes).byteAt address = (code'.write start bytes).byteAt address := by
  rw [byteAt_write, byteAt_write, List.getElem?_eq_getElem h]
  rfl

theorem length_read : (code.read start count).length = count := by
  unfold read
  rw [List.length_map, List.length_range]

theorem getElem?_read {place : Nat} (h : place < count) :
    (code.read start count)[place]? = some (code.byteAt (start + UInt64.ofNat place)) := by
  unfold read
  rw [List.getElem?_map, List.getElem?_range h]
  rfl

/-- Memory is read byte by byte. -/
theorem read_congr {code' : CodeMemory}
    (h : ∀ place < count, code.byteAt (start + UInt64.ofNat place) =
      code'.byteAt (start + UInt64.ofNat place)) :
    code.read start count = code'.read start count := by
  unfold read
  exact List.map_congr_left fun place hplace => h place (List.mem_range.mp hplace)

theorem add_sub_start (start : Address) {place : Nat} (h : place < 2 ^ 64) :
    (start + UInt64.ofNat place - start).toNat = place := by
  rw [UInt64.add_comm, UInt64.add_sub_cancel]
  exact UInt64.toNat_ofNat_of_lt' h

/-- **The last write to a place counts.** -/
theorem write_write (h : bytes.length = other.length) :
    (code.write start bytes).write start other = code.write start other := by
  refine eq_of_byteAt (fun address => ?_) rfl
  by_cases hinside : (address - start).toNat < other.length
  · exact byteAt_write_inside hinside
  · rw [byteAt_write_outside hinside, byteAt_write_outside (h ▸ hinside), byteAt_write_outside hinside]

/-- **What was read and is written back changes nothing.** -/
theorem write_read : code.write start (code.read start count) = code := by
  refine eq_of_byteAt (fun address => ?_) rfl
  by_cases hinside : (address - start).toNat < count
  · rw [byteAt_write, getElem?_read hinside, UInt64.ofNat_toNat, Option.getD_some, UInt64.add_comm,
      UInt64.sub_add_cancel]
  · exact byteAt_write_outside (by rwa [length_read])

/-- What was written is read. -/
theorem read_write (h : bytes.length = count) (hcount : count ≤ 2 ^ 64) :
    (code.write start bytes).read start count = bytes := by
  subst h
  refine List.ext_getElem? fun place => ?_
  by_cases hplace : place < bytes.length
  · rw [getElem?_read hplace, byteAt_write, add_sub_start start (by omega),
      List.getElem?_eq_getElem hplace]
    rfl
  · rw [List.getElem?_eq_none (by rw [length_read]; omega), List.getElem?_eq_none (by omega)]

/-- **Writes to places that are apart do not see each other.** -/
theorem write_comm (h : Apart a b count) (hbytes : bytes.length ≤ count) (hother : other.length ≤ count) :
    (code.write a bytes).write b other = (code.write b other).write a bytes := by
  refine eq_of_byteAt (fun address => ?_) rfl
  by_cases hb : (address - b).toNat < other.length
  · have ha : ¬ (address - a).toNat < bytes.length := fun ha => h address (by omega) (by omega)
    rw [byteAt_write_outside ha]
    exact byteAt_write_inside hb
  · rw [byteAt_write_outside hb]
    by_cases ha : (address - a).toNat < bytes.length
    · exact byteAt_write_inside ha
    · rw [byteAt_write_outside ha, byteAt_write_outside ha, byteAt_write_outside hb]

/-- Nor does a read. -/
theorem read_write_apart (h : Apart a b count) (hbytes : bytes.length ≤ count) (hcount : count ≤ 2 ^ 64) :
    (code.write a bytes).read b count = code.read b count := by
  refine read_congr fun place hplace => byteAt_write_outside fun ha => ?_
  refine h (b + UInt64.ofNat place) (by omega) ?_
  rwa [add_sub_start b (by omega)]

end CodeMemory

/-! ## Jumps -/

namespace Jump

theorem length_absolute {target : Address} : (absolute target).length = length := rfl

/-- The number that some bytes make, the lowest first. -/
def number (bytes : List UInt8) : Nat := bytes.foldr (fun b n => b.toNat + 256 * n) 0

theorem number_lt : ∀ bytes : List UInt8, number bytes < 256 ^ bytes.length
  | [] => by decide
  | b :: bytes => by
      have hb := b.toNat_lt
      have ih := number_lt bytes
      show b.toNat + 256 * number bytes < 256 ^ (bytes.length + 1)
      rw [Nat.pow_succ]
      omega

theorem toNat_wordOfBytes :
    ∀ bytes : List UInt8, bytes.length ≤ 8 → (wordOfBytes bytes).toNat = number bytes
  | [], _ => rfl
  | b :: bytes, h => by
      have hlength : bytes.length ≤ 7 := Nat.le_of_succ_le_succ h
      have hb := b.toNat_lt
      have hlt := number_lt bytes
      have hpow : 256 ^ bytes.length ≤ 256 ^ 7 := Nat.pow_le_pow_right (by decide) hlength
      have ih := toNat_wordOfBytes bytes (by omega)
      -- the bytes behind the first one leave room for it
      have hshift : (wordOfBytes bytes <<< 8).toNat = 2 ^ 8 * number bytes := by
        rw [UInt64.toNat_shiftLeft, Nat.shiftLeft_eq, ih]
        show number bytes * 2 ^ 8 % 2 ^ 64 = _
        omega
      show (b.toUInt64 ||| wordOfBytes bytes <<< 8).toNat = b.toNat + 256 * number bytes
      rw [UInt64.toNat_or, UInt8.toNat_toUInt64, hshift, Nat.or_comm,
        ← Nat.two_pow_add_eq_or_of_lt hb]
      omega

theorem number_concat (bytes : List UInt8) (b : UInt8) :
    number (bytes ++ [b]) = number bytes + 256 ^ bytes.length * b.toNat := by
  induction bytes with
  | nil =>
      show b.toNat + 256 * 0 = 0 + 256 ^ 0 * b.toNat
      omega
  | cons c bytes ih =>
      show c.toNat + 256 * number (bytes ++ [b]) =
        c.toNat + 256 * number bytes + 256 ^ (bytes.length + 1) * b.toNat
      rw [ih, Nat.mul_add, Nat.pow_succ', Nat.mul_assoc, Nat.add_assoc]

theorem wordBytes_succ (word : UInt64) (count : Nat) : wordBytes word (count + 1) =
    wordBytes word count ++ [(word >>> (8 * UInt64.ofNat count)).toUInt8] := by
  rw [wordBytes, List.range_succ, List.map_append]
  rfl

/-- The lowest bytes of a word make what they are in it. -/
theorem number_wordBytes (word : UInt64) :
    ∀ count ≤ 8, number (wordBytes word count) = word.toNat % 256 ^ count
  | 0, _ => (Nat.mod_one _).symm
  | count + 1, h => by
      have ih := number_wordBytes word count (by omega)
      have hlength : (wordBytes word count).length = count := by simp [wordBytes]
      have hsmall : 8 * count < 64 := by omega
      have hshift : (8 * UInt64.ofNat count).toNat = 8 * count := by
        rw [UInt64.toNat_mul, UInt64.toNat_ofNat_of_lt' (Nat.lt_of_lt_of_le h (by decide))]
        exact Nat.mod_eq_of_lt (Nat.lt_trans hsmall (by decide))
      have hbyte : (word >>> (8 * UInt64.ofNat count)).toUInt8.toNat =
          word.toNat / 256 ^ count % 256 := by
        rw [UInt64.toNat_toUInt8, UInt64.toNat_shiftRight, hshift, Nat.mod_eq_of_lt hsmall,
          Nat.shiftRight_eq_div_pow, Nat.pow_mul]
      rw [wordBytes_succ, number_concat, ih, hlength, hbyte, Nat.mod_pow_succ]

/-- **A word is read off its bytes.** -/
theorem wordOfBytes_wordBytes (word : UInt64) : wordOfBytes (wordBytes word 8) = word := by
  have hlength : (wordBytes word 8).length ≤ 8 := by simp [wordBytes]
  rw [← UInt64.toNat_inj, toNat_wordOfBytes _ hlength, number_wordBytes word 8 (Nat.le_refl _)]
  exact Nat.mod_eq_of_lt word.toNat_lt

/-- **A long jump leads to its destination.** -/
theorem target?_absolute (target : Address) : target? (absolute target) = some target := by
  unfold target?
  rw [if_pos ⟨rfl, Nat.le_refl _⟩]
  exact congrArg some (wordOfBytes_wordBytes target)

end Jump

end ScriptBridge
