import Mathlib.Algebra.Group.Int.Defs
import Mathlib.Algebra.GroupWithZero.Nat
import ScriptBridge.Memory.CellText

/-!
# One text in two layouts

A native may leave a text packed or unpacked, and nothing but the first cell says which. A text
without zeros is read back from either layout, whatever lies behind its terminator: the reader
stops at the first zero byte, and the writer put none in front of it. What the writer put into a
row that was too short, or what it cut at a zero, is read back as far as it goes.

**Where the layouts meet.** The first cell of a packed text has the first byte in its highest
place, and that byte is not zero. The first cell of an unpacked one is a single byte. An empty
text is a zero cell in both.
-/

namespace ScriptBridge.CellText

/-! ## Bytes of a cell -/

/-- A byte in a higher place of a word. -/
theorem shifted_toNat (x : UInt8) (k : UInt32) (hk : k.toNat ≤ 24) :
    (x.toUInt32 <<< k).toNat = x.toNat * 2 ^ k.toNat := by
  have hx := x.toNat_lt
  have hpow : 2 ^ k.toNat ≤ 2 ^ 24 := Nat.pow_le_pow_right (by decide) hk
  have hword : x.toNat * 2 ^ k.toNat ≤ 255 * 2 ^ 24 := Nat.mul_le_mul (by omega) hpow
  rw [UInt32.toNat_shiftLeft, UInt8.toNat_toUInt32,
    Nat.mod_eq_of_lt (show k.toNat < 32 by omega), Nat.shiftLeft_eq, Nat.mod_eq_of_lt (by omega)]

/-- A cell of four bytes as a number. -/
theorem ofBytes_toNat (a b c d : UInt8) : (ofBytes a b c d).toUInt32.toNat =
    a.toNat * 2 ^ 24 + b.toNat * 2 ^ 16 + c.toNat * 2 ^ 8 + d.toNat := by
  have ha := a.toNat_lt
  have hb := b.toNat_lt
  have hc := c.toNat_lt
  have hd := d.toNat_lt
  have h1 : a.toNat * 2 ^ 24 ||| b.toNat * 2 ^ 16 = (a.toNat * 2 ^ 8 + b.toNat) * 2 ^ 16 := by
    rw [Nat.mul_comm a.toNat, ← Nat.two_pow_add_eq_or_of_lt (by omega)]
    omega
  have h2 : (a.toNat * 2 ^ 8 + b.toNat) * 2 ^ 16 ||| c.toNat * 2 ^ 8 =
      ((a.toNat * 2 ^ 8 + b.toNat) * 2 ^ 8 + c.toNat) * 2 ^ 8 := by
    rw [Nat.mul_comm _ (2 ^ 16), ← Nat.two_pow_add_eq_or_of_lt (by omega)]
    omega
  have h3 : ((a.toNat * 2 ^ 8 + b.toNat) * 2 ^ 8 + c.toNat) * 2 ^ 8 ||| d.toNat =
      ((a.toNat * 2 ^ 8 + b.toNat) * 2 ^ 8 + c.toNat) * 2 ^ 8 + d.toNat := by
    rw [Nat.mul_comm _ (2 ^ 8), ← Nat.two_pow_add_eq_or_of_lt (by omega)]
  unfold ofBytes
  rw [UInt32.toUInt32_toInt32, UInt32.toNat_or, UInt32.toNat_or, UInt32.toNat_or,
    shifted_toNat a 24 (by decide), shifted_toNat b 16 (by decide), shifted_toNat c 8 (by decide),
    UInt8.toNat_toUInt32]
  show a.toNat * 2 ^ 24 ||| b.toNat * 2 ^ 16 ||| c.toNat * 2 ^ 8 ||| d.toNat = _
  rw [h1, h2, h3]
  omega

/-- A byte of a word, counted in places from the lowest. -/
theorem byte_of_word (word : UInt32) (k : UInt32) (hk : k.toNat < 32) :
    (word >>> k).toUInt8.toNat = word.toNat / 2 ^ k.toNat % 2 ^ 8 := by
  rw [UInt32.toNat_toUInt8, UInt32.toNat_shiftRight, Nat.mod_eq_of_lt hk,
    Nat.shiftRight_eq_div_pow]

/-- **Four bytes go into a cell and come out again.** -/
theorem packedBytes_ofBytes (a b c d : UInt8) : packedBytes (ofBytes a b c d) = [a, b, c, d] := by
  have ha := a.toNat_lt
  have hb := b.toNat_lt
  have hc := c.toNat_lt
  have hd := d.toNat_lt
  have hword := ofBytes_toNat a b c d
  have h1 : ((ofBytes a b c d).toUInt32 >>> 24).toUInt8 = a := by
    rw [← UInt8.toNat_inj, byte_of_word _ 24 (by decide), hword]
    show _ / 2 ^ 24 % 2 ^ 8 = _
    omega
  have h2 : ((ofBytes a b c d).toUInt32 >>> 16).toUInt8 = b := by
    rw [← UInt8.toNat_inj, byte_of_word _ 16 (by decide), hword]
    show _ / 2 ^ 16 % 2 ^ 8 = _
    omega
  have h3 : ((ofBytes a b c d).toUInt32 >>> 8).toUInt8 = c := by
    rw [← UInt8.toNat_inj, byte_of_word _ 8 (by decide), hword]
    show _ / 2 ^ 8 % 2 ^ 8 = _
    omega
  have h4 : (ofBytes a b c d).toUInt32.toUInt8 = d := by
    rw [← UInt8.toNat_inj, UInt32.toNat_toUInt8, hword]
    omega
  show [_, _, _, _] = _
  rw [h1, h2, h3, h4]

theorem isPacked_ofBytes {a : UInt8} (h : a ≠ 0) (b c d : UInt8) :
    isPacked (ofBytes a b c d) = true := by
  have ha : a.toNat ≠ 0 := fun h0 => h (UInt8.toNat_inj.mp h0)
  unfold isPacked
  rw [decide_eq_true_iff, UInt32.lt_iff_toNat_lt, ofBytes_toNat]
  show 0x00FFFFFF < _
  omega

theorem isPacked_ofByte (b : UInt8) : isPacked (ofByte b) = false := by
  have hb := b.toNat_lt
  unfold isPacked ofByte
  rw [decide_eq_false_iff_not, UInt32.lt_iff_toNat_lt, UInt32.toUInt32_toInt32,
    UInt8.toNat_toUInt32]
  show ¬ 0x00FFFFFF < _
  omega

theorem toByte_ofByte (b : UInt8) : toByte (ofByte b) = b := by
  unfold toByte ofByte
  rw [UInt32.toUInt32_toInt32, UInt8.toUInt8_toUInt32]

theorem ofByte_ne_zero {b : UInt8} (h : b ≠ 0) : ofByte b ≠ 0 := by
  intro h0
  refine h ?_
  rw [← toByte_ofByte b, h0]
  rfl

/-! ## Reading -/

/-- The bytes of unpacked cells up to the terminator. -/
def unpacked : List Cell → List UInt8
  | [] => []
  | c :: cs => if c = 0 then [] else toByte c :: unpacked cs

theorem toList_unpackedOnto : ∀ (cells : List Cell) (output : Array UInt8),
    (unpackedOnto output cells).toList = output.toList ++ unpacked cells
  | [], output => (List.append_nil output.toList).symm
  | c :: cells, output => by
      rw [unpackedOnto, unpacked]
      by_cases hc : c = 0
      · rw [if_pos hc, if_pos hc, List.append_nil]
      · rw [if_neg hc, if_neg hc, toList_unpackedOnto cells, Array.toList_push, List.append_assoc]
        rfl

theorem takeWhile_cons_nonzero {b : UInt8} (h : b ≠ 0) (bytes : List UInt8) :
    (b :: bytes).takeWhile (· != 0) = b :: bytes.takeWhile (· != 0) :=
  List.takeWhile_cons_of_pos (bne_iff_ne.mpr h)

theorem toList_bytesOnto : ∀ (bytes : List UInt8) (output : Array UInt8),
    (bytesOnto output bytes).toList = output.toList ++ bytes.takeWhile (· != 0)
  | [], output => (List.append_nil output.toList).symm
  | b :: bytes, output => by
      rw [bytesOnto]
      by_cases hb : b = 0
      · rw [if_pos hb, hb, List.takeWhile_cons_of_neg (by decide), List.append_nil]
      · rw [if_neg hb, toList_bytesOnto bytes, takeWhile_cons_nonzero hb, Array.toList_push,
          List.append_assoc]
        rfl

/-- A row whose first cell is packed is read as packed cells. -/
theorem toList_decodeOnto_packed {cells : List Cell} (h : cells.head?.any isPacked = true)
    (output : Array UInt8) : (decodeOnto output cells).toList =
      output.toList ++ (cells.flatMap packedBytes).takeWhile (· != 0) := by
  cases cells with
  | nil => cases h
  | cons first cells =>
      rw [← toList_bytesOnto]
      exact congrArg Array.toList (if_pos h)

/-- Every other row is read as unpacked cells. -/
theorem toList_decodeOnto_unpacked {cells : List Cell} (h : cells.head?.any isPacked = false)
    (output : Array UInt8) :
    (decodeOnto output cells).toList = output.toList ++ unpacked cells := by
  cases cells with
  | nil => exact (List.append_nil output.toList).symm
  | cons first cells =>
      rw [← toList_unpackedOnto]
      exact congrArg Array.toList (if_neg (ne_true_of_eq_false h))

/-- **A text is appended to what was read before**, which does not matter for what is read. -/
theorem toList_decodeOnto (output : Array UInt8) (cells : List Cell) :
    (decodeOnto output cells).toList = output.toList ++ decode cells := by
  unfold decode
  cases h : cells.head?.any isPacked with
  | true => rw [toList_decodeOnto_packed h, toList_decodeOnto_packed h, List.nil_append]
  | false => rw [toList_decodeOnto_unpacked h, toList_decodeOnto_unpacked h, List.nil_append]

/-! ## Texts -/

/-- The bytes of an unpacked text are read up to its first zero, and up to its terminator if there
is none among them. -/
theorem unpacked_unpackedCells : ∀ (bytes : List UInt8) (rest : List Cell),
    unpacked (unpackedCells bytes ++ rest) = bytes.takeWhile (· != 0)
  | [], _ => rfl
  | b :: bytes, rest => by
      show (if ofByte b = 0 then [] else
        toByte (ofByte b) :: unpacked (unpackedCells bytes ++ rest)) = _
      by_cases hb : b = 0
      · rw [hb, List.takeWhile_cons_of_neg (by decide)]
        rfl
      · rw [if_neg (ofByte_ne_zero hb), toByte_ofByte, unpacked_unpackedCells bytes rest,
          takeWhile_cons_nonzero hb]

/-- **The cells of a packed text** hold its bytes and then zeros, at least one of them. -/
theorem flatMap_packedCells : ∀ bytes : List UInt8, (packedCells bytes).flatMap packedBytes =
    bytes ++ List.replicate (4 - bytes.length % 4) 0
  | [] => rfl
  | [a] => packedBytes_ofBytes a 0 0 0
  | [a, b] => packedBytes_ofBytes a b 0 0
  | [a, b, c] => packedBytes_ofBytes a b c 0
  | a :: b :: c :: d :: bytes => by
      have hlength : (a :: b :: c :: d :: bytes).length % 4 = bytes.length % 4 := by
        simp only [List.length_cons]
        omega
      rw [packedCells, List.flatMap_cons, packedBytes_ofBytes, flatMap_packedCells bytes, hlength]
      rfl

/-- What lies behind a zero is not looked at. -/
theorem takeWhile_zero (bytes behind : List UInt8) :
    (bytes ++ 0 :: behind).takeWhile (· != 0) = bytes.takeWhile (· != 0) := by
  rw [List.takeWhile_append, List.takeWhile_cons_of_neg (by decide), List.append_nil]
  split
  · rename_i hall
    exact ((List.takeWhile_prefix _).eq_of_length hall).symm
  · rfl

theorem takeWhile_nonzero {bytes : List UInt8} (h : 0 ∉ bytes) :
    bytes.takeWhile (· != 0) = bytes := by
  rw [← List.append_nil bytes, List.takeWhile_append_of_pos, List.takeWhile_nil]
  intro b hb
  exact bne_iff_ne.mpr fun h0 => h (h0 ▸ hb)

/-- The first cell of a packed text says that it is packed. -/
theorem packedCells_cons {b : UInt8} (hb : b ≠ 0) (bytes : List UInt8) :
    ∃ first cells, packedCells (b :: bytes) = first :: cells ∧ isPacked first = true := by
  match bytes with
  | [] => exact ⟨_, _, rfl, isPacked_ofBytes hb _ _ _⟩
  | [_] => exact ⟨_, _, rfl, isPacked_ofBytes hb _ _ _⟩
  | [_, _] => exact ⟨_, _, rfl, isPacked_ofBytes hb _ _ _⟩
  | _ :: _ :: _ :: _ => exact ⟨_, _, rfl, isPacked_ofBytes hb _ _ _⟩

theorem unpackedCells_length (bytes : List UInt8) :
    (unpackedCells bytes).length = bytes.length + 1 := by
  unfold unpackedCells
  rw [List.length_append, List.length_map]
  rfl

theorem packedCells_length_le : ∀ bytes : List UInt8,
    (packedCells bytes).length ≤ bytes.length + 1
  | [] => Nat.le_refl _
  | [_] => Nat.le_add_left _ _
  | [_, _] => Nat.le_add_left _ _
  | [_, _, _] => Nat.le_add_left _ _
  | _ :: _ :: _ :: _ :: bytes => by
      have ih := packedCells_length_le bytes
      rw [packedCells, List.length_cons]
      simp only [List.length_cons]
      omega

/-- An unpacked text is read back up to its first zero. -/
theorem decode_unpackedCells_cut (bytes : List UInt8) (rest : List Cell) :
    decode (unpackedCells bytes ++ rest) = bytes.takeWhile (· != 0) := by
  rw [← unpacked_unpackedCells bytes rest]
  refine toList_decodeOnto_unpacked ?_ #[]
  cases bytes with
  | nil => rfl
  | cons b bytes => exact isPacked_ofByte b

/-- **An unpacked text is read back.** -/
theorem decode_unpackedCells {bytes : List UInt8} (h : 0 ∉ bytes) (rest : List Cell) :
    decode (unpackedCells bytes ++ rest) = bytes :=
  (decode_unpackedCells_cut bytes rest).trans (takeWhile_nonzero h)

/-- **A packed text is read back.** -/
theorem decode_packedCells {bytes : List UInt8} (h : 0 ∉ bytes) (rest : List Cell) :
    decode (packedCells bytes ++ rest) = bytes := by
  cases bytes with
  | nil => rfl
  | cons b bytes =>
      obtain ⟨hb, _⟩ := List.ne_and_not_mem_of_not_mem_cons h
      obtain ⟨first, cells, hcells, hpacked⟩ := packedCells_cons (Ne.symm hb) bytes
      have hfirst : (packedCells (b :: bytes) ++ rest).head?.any isPacked = true := by
        rw [hcells]
        exact hpacked
      obtain ⟨zeros, hzeros⟩ := Nat.exists_eq_add_of_lt
        (Nat.sub_pos_of_lt (Nat.mod_lt (b :: bytes).length (show 4 > 0 by decide)))
      rw [decode, toList_decodeOnto_packed hfirst, List.nil_append, List.flatMap_append,
        flatMap_packedCells, hzeros, Nat.zero_add, List.replicate_succ, List.append_assoc]
      exact (takeWhile_zero _ _).trans (takeWhile_nonzero h)

/-! ## Rows without a terminator -/

/-- Cells of four bytes without a zero are read to the end of the row. -/
theorem toList_decodeOnto_packed_all {cells : List Cell}
    (hpacked : cells.head?.any isPacked = true) (hzero : 0 ∉ cells.flatMap packedBytes)
    (output : Array UInt8) :
    (decodeOnto output cells).toList = output.toList ++ cells.flatMap packedBytes := by
  rw [toList_decodeOnto_packed hpacked, takeWhile_nonzero hzero]

theorem unpacked_nonzero : ∀ {cells : List Cell}, 0 ∉ cells → unpacked cells = cells.map toByte
  | [], _ => rfl
  | c :: cells, h => by
      obtain ⟨hc, hcells⟩ := List.ne_and_not_mem_of_not_mem_cons h
      rw [unpacked, if_neg (Ne.symm hc), unpacked_nonzero hcells, List.map_cons]

/-- Cells of one byte are read to the end of the row. -/
theorem toList_decodeOnto_unpacked_all {cells : List Cell}
    (hpacked : cells.head?.any isPacked = false) (hzero : 0 ∉ cells) (output : Array UInt8) :
    (decodeOnto output cells).toList = output.toList ++ cells.map toByte := by
  rw [toList_decodeOnto_unpacked hpacked, unpacked_nonzero hzero]

/-! ## Rows that a text is written into -/

/-- **What writing a text into a row does**, by the cells of the row before. -/
structure WrittenInto (bytes : List UInt8) (row : List Cell) : Prop where
  /-- As many bytes are written as fit in front of the terminator, and a row without cells takes
  not even that. -/
  count : (encode bytes row).1 =
    if row = [] then 0 else min bytes.length (row.length - 1) + 1
  /-- The row stays as long as it was. -/
  length : (encode bytes row).2.length = row.length
  /-- The cells behind the terminator stay as they were. -/
  behind : (encode bytes row).2.drop (encode bytes row).1 = row.drop (encode bytes row).1
  /-- The text is read back, cut to what was written and at its first zero. -/
  readBack : ∀ output, (decodeOnto output (encode bytes row).2).toList =
    output.toList ++ (bytes.take ((encode bytes row).1 - 1)).takeWhile (· != 0)
  /-- It does not matter for that what lies behind the terminator. -/
  others : row ≠ [] → ∀ behind output,
    (decodeOnto output ((encode bytes row).2.take (encode bytes row).1 ++ behind)).toList =
      output.toList ++ (bytes.take ((encode bytes row).1 - 1)).takeWhile (· != 0)

theorem writtenInto_cons (bytes : List UInt8) (first : Cell) (cells : List Cell) :
    WrittenInto bytes (first :: cells) := by
  have hcells : encode bytes (first :: cells) =
      ((bytes.take cells.length).length + 1, overlay (unpackedCells (bytes.take cells.length))
        (first :: cells)) := by
    unfold encode
    rw [← unpackedCells_length]
    rfl
  have hcount : (bytes.take cells.length).length = min bytes.length cells.length := by
    rw [List.length_take, Nat.min_comm]
  have hlength := unpackedCells_length (bytes.take cells.length)
  have hcut : bytes.take (bytes.take cells.length).length = bytes.take cells.length :=
    (List.prefix_iff_eq_take.mp (List.take_prefix _ _)).symm
  have hread : ∀ behind output,
      (decodeOnto output (unpackedCells (bytes.take cells.length) ++ behind)).toList =
        output.toList ++ (bytes.take (bytes.take cells.length).length).takeWhile (· != 0) := by
    intro behind output
    rw [toList_decodeOnto, decode_unpackedCells_cut, hcut]
  refine ⟨?_, ?_, ?_, ?_, ?_⟩
  · rw [hcells, if_neg (List.cons_ne_nil first cells), hcount]
    rfl
  · rw [hcells, overlay, List.length_append, List.length_drop, hlength, hcount, List.length_cons]
    omega
  · rw [hcells, overlay, ← hlength, List.drop_left]
  · rw [hcells]
    exact hread _
  · intro _ behind
    rw [hcells, overlay, ← hlength, List.take_left, hlength]
    exact hread behind

/-- **A row takes what fits and gives it back.** -/
theorem writtenInto (bytes : List UInt8) (row : List Cell) : WrittenInto bytes row := by
  cases row with
  | cons first cells => exact writtenInto_cons bytes first cells
  | nil => exact ⟨rfl, rfl, rfl, fun output => (List.append_nil output.toList).symm,
      fun h => absurd rfl h⟩

/-- **Rows give back the texts they hold.** A text that is written into a row is read back as far
as it fits, up to its first zero, whatever lies behind its terminator. A text without zeros is read
back from packed cells as well, which hold its bytes and then zeros up to a whole cell. A row
without a terminator is read to its end in either layout. -/
theorem rows_give_back_texts :
    (∀ (bytes : List UInt8) (row : List Cell), WrittenInto bytes row) ∧
    (∀ bytes : List UInt8, (packedCells bytes).flatMap packedBytes =
      bytes ++ List.replicate (4 - bytes.length % 4) 0) ∧
    (∀ bytes : List UInt8, 0 ∉ bytes → ∀ (trailing : List Cell) (output : Array UInt8),
      (decodeOnto output (packedCells bytes ++ trailing)).toList = output.toList ++ bytes ∧
      (decodeOnto output (unpackedCells bytes ++ trailing)).toList = output.toList ++ bytes) ∧
    (∀ (cells : List Cell) (output : Array UInt8), cells.head?.any isPacked = true →
      0 ∉ cells.flatMap packedBytes →
      (decodeOnto output cells).toList = output.toList ++ cells.flatMap packedBytes) ∧
    ∀ (cells : List Cell) (output : Array UInt8), cells.head?.any isPacked = false →
      0 ∉ cells → (decodeOnto output cells).toList = output.toList ++ cells.map toByte := by
  refine ⟨writtenInto, flatMap_packedCells, fun bytes hzero trailing output => ⟨?_, ?_⟩,
    fun cells output hpacked hzero => toList_decodeOnto_packed_all hpacked hzero output,
    fun cells output hpacked hzero => toList_decodeOnto_unpacked_all hpacked hzero output⟩
  · rw [toList_decodeOnto, decode_packedCells hzero]
  · rw [toList_decodeOnto, decode_unpackedCells hzero]

/-- A text of five bytes in a row of four stale cells, in packed cells with something behind them,
and the rows of both layouts that end without a terminator. -/
theorem rows_give_back_hello :
    (decodeOnto #[33] (encode [72, 101, 108, 108, 111] [127, 127, 127, 127]).2).toList =
      [33, 72, 101, 108] ∧
    (decodeOnto #[33] (packedCells [72, 101, 108, 108, 111] ++ [127])).toList =
      [33, 72, 101, 108, 108, 111] ∧
    (decodeOnto #[33] [ofBytes 72 101 108 108]).toList = [33, 72, 101, 108, 108] ∧
    (decodeOnto #[33] [72, 101]).toList = [33, 72, 101] := by
  obtain ⟨hwritten, _, hpacked, hpackedEnd, hunpackedEnd⟩ := rows_give_back_texts
  refine ⟨(hwritten [72, 101, 108, 108, 111] [127, 127, 127, 127]).readBack #[33],
    (hpacked [72, 101, 108, 108, 111] (by decide) [127] #[33]).1, ?_,
    hunpackedEnd [72, 101] #[33] rfl (by decide)⟩
  exact hpackedEnd [ofBytes 72 101 108 108] #[33] rfl (by decide)

end ScriptBridge.CellText
