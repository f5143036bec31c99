import Mathlib.Data.List.Forall2
import Mathlib.Data.List.Nodup
import Mathlib.Data.String.Basic
import ScriptBridge.Text.Encoder

/-!
# Nothing is lost in the code page

A text is encoded piece by piece, by an encoder that is not part of this library, into a buffer
that is never made larger. What is asked of the encoder is what is documented of it: it writes the
byte of each character, and it stops at the end, behind a character without a byte, or where there
is no room. `Encoder.Stopped` lists these three ways to stop.

**Why the buffer suffices.** Every character takes a byte at least in UTF-8, and exactly one in the
buffer, substitutes included. So the room that is left is never less than the bytes of the text
that are left, whatever the encoder was stopped by before (`encodeFrom_eq`).

**There and back.** The table of the code page is a bijection between the bytes and the characters
that have one (`encodeChar?_eq_some_iff`). Every byte has a character, so bytes always survive,
and a text does up to the characters that have no byte.
-/

namespace ScriptBridge

namespace CodePage

/-! ## The table -/

theorem upperControls_nodup : upperControls.Nodup := by decide

theorem upperControls_length : upperControls.length = 32 := rfl

/-- The characters between the two plain ranges lie in neither of them. -/
theorem toNat_of_mem_upperControls {n : Nat} (h : n ∈ upperControls) :
    (Char.ofNat n).toNat = n ∧ ¬ (n < 0x80 ∨ (0xA0 ≤ n ∧ n < 0x100)) := by
  revert n h
  decide

theorem toNat_ofNat_of_lt {n : Nat} (h : n < 0x100) : (Char.ofNat n).toNat = n := by
  have hvalid : n.isValidChar := Or.inl (by omega)
  unfold Char.ofNat
  rw [dif_pos hvalid]
  rfl

/-- **The character of a byte has that byte.** -/
theorem encodeChar?_decodeByte (b : UInt8) : encodeChar? (decodeByte b) = some b := by
  have hb := b.toNat_lt
  unfold decodeByte
  by_cases hupper : 0x80 ≤ b ∧ b < 0xA0
  · rw [if_pos hupper]
    obtain ⟨hlow, hhigh⟩ := hupper
    rw [UInt8.le_iff_toNat_le] at hlow
    rw [UInt8.lt_iff_toNat_lt] at hhigh
    have hlow : 0x80 ≤ b.toNat := hlow
    have hhigh : b.toNat < 0xA0 := hhigh
    have hi : b.toNat - 0x80 < upperControls.length := by rw [upperControls_length]; omega
    have hget : upperControls.getD (b.toNat - 0x80) 0 = upperControls[b.toNat - 0x80] := by
      rw [List.getD_eq_getElem?_getD, List.getElem?_eq_getElem hi]
      rfl
    obtain ⟨hchar, hplain⟩ := toNat_of_mem_upperControls (List.getElem_mem hi)
    have hindex : upperControls.idxOf? upperControls[b.toNat - 0x80] = some (b.toNat - 0x80) := by
      rw [List.idxOf?_eq_some_iff]
      refine ⟨hi, rfl, fun j hj heq => ?_⟩
      have := (List.Nodup.getElem_inj_iff upperControls_nodup).mp heq
      omega
    unfold encodeChar?
    rw [hget, hchar, if_neg hplain, hindex]
    rw [Option.map_some, show 0x80 + (b.toNat - 0x80) = b.toNat by omega, UInt8.ofNat_toNat]
  · rw [if_neg hupper]
    have hplain : b.toNat < 0x80 ∨ (0xA0 ≤ b.toNat ∧ b.toNat < 0x100) := by
      rw [UInt8.le_iff_toNat_le, UInt8.lt_iff_toNat_lt] at hupper
      have hupper : ¬ (0x80 ≤ b.toNat ∧ b.toNat < 0xA0) := hupper
      omega
    unfold encodeChar?
    rw [toNat_ofNat_of_lt (by omega), if_pos hplain, UInt8.ofNat_toNat]

/-- **A byte that a character has stands for it.** -/
theorem decodeByte_of_encodeChar? {c : Char} {b : UInt8} (h : encodeChar? c = some b) :
    decodeByte b = c := by
  unfold encodeChar? at h
  unfold decodeByte
  by_cases hplain : c.toNat < 0x80 ∨ (0xA0 ≤ c.toNat ∧ c.toNat < 0x100)
  · rw [if_pos hplain] at h
    have hb : b.toNat = c.toNat := by
      rw [← Option.some.inj h, UInt8.toNat_ofNat']
      omega
    rw [if_neg, hb, Char.ofNat_toNat]
    rw [UInt8.le_iff_toNat_le, UInt8.lt_iff_toNat_lt, hb]
    show ¬ (0x80 ≤ c.toNat ∧ c.toNat < 0xA0)
    omega
  · rw [if_neg hplain] at h
    obtain ⟨i, hi, hb⟩ := Option.map_eq_some_iff.mp h
    obtain ⟨hlt, hget, _⟩ := List.idxOf?_eq_some_iff.mp hi
    have hi32 : i < 32 := hlt
    have hbn : b.toNat = 0x80 + i := by
      rw [← hb, UInt8.toNat_ofNat']
      omega
    rw [if_pos, hbn, show 0x80 + i - 0x80 = i by omega, List.getD_eq_getElem?_getD,
      List.getElem?_eq_getElem hlt, hget]
    · exact Char.ofNat_toNat c
    · rw [UInt8.le_iff_toNat_le, UInt8.lt_iff_toNat_lt, hbn]
      show 0x80 ≤ 0x80 + i ∧ 0x80 + i < 0xA0
      omega

/-- **The table is a bijection** between the bytes and the characters that have one. -/
theorem encodeChar?_eq_some_iff {c : Char} {b : UInt8} :
    encodeChar? c = some b ↔ decodeByte b = c := by
  constructor
  · exact decodeByte_of_encodeChar?
  · rintro rfl
    exact encodeChar?_decodeByte b

/-- **A character that the code page has.** -/
def Mappable (c : Char) : Prop := ∃ b, decodeByte b = c

theorem encodeChar?_eq_none_iff {c : Char} : encodeChar? c = none ↔ ¬ Mappable c := by
  rw [Option.eq_none_iff_forall_ne_some]
  constructor
  · rintro hnone ⟨b, hb⟩
    exact hnone b (encodeChar?_eq_some_iff.mpr hb)
  · intro hunmappable b hb
    exact hunmappable ⟨b, encodeChar?_eq_some_iff.mp hb⟩

/-- The byte that is written for a character. -/
def byteOf (c : Char) : UInt8 := (encodeChar? c).getD substitute

theorem encode_eq (text : String) : encode text = text.toList.map byteOf := rfl

/-- **One byte is written for each character.** -/
theorem encode_length (text : String) : (encode text).length = text.length := by
  rw [encode_eq, List.length_map, String.length_toList]

theorem byteOf_decodeByte (b : UInt8) : byteOf (decodeByte b) = b := by
  unfold byteOf
  rw [encodeChar?_decodeByte]
  rfl

theorem map_byteOf_decodeByte (bytes : List UInt8) : (bytes.map decodeByte).map byteOf = bytes := by
  rw [List.map_map]
  calc bytes.map (byteOf ∘ decodeByte)
      = bytes.map id := List.map_congr_left fun b _ => byteOf_decodeByte b
    _ = bytes := List.map_id bytes

theorem byteOf_unmappable {c : Char} (h : ¬ Mappable c) : byteOf c = substitute := by
  unfold byteOf
  rw [encodeChar?_eq_none_iff.mpr h]
  rfl

end CodePage

open CodePage

/-! ## The buffer -/

/-- Every character takes a byte at least. -/
theorem length_le_utf8Len : ∀ characters : List Char,
    characters.length ≤ String.utf8Len characters
  | [] => Nat.zero_le _
  | c :: characters => by
      have hrest := length_le_utf8Len characters
      have hfirst := c.utf8Size_pos
      rw [String.utf8Len_cons, List.length_cons]
      omega

/--
**The ways in which an encoder may stop.** What it wrote are the bytes of the characters that it read,
one for each. It is at the end of the text, or behind a character without a byte, or in front of
any character with no room left. How many bytes it read is counted in UTF-8.
-/
inductive Encoder.Stopped (text : List Char) (room : Nat) : EncoderRun → Prop where
  | inputEmpty {bytes : List UInt8} : text = bytes.map decodeByte → bytes.length ≤ room →
      Stopped text room ⟨.inputEmpty, String.utf8Len text, bytes⟩
  | unmappable {bytes : List UInt8} {c : Char} {rest : List Char} :
      text = bytes.map decodeByte ++ c :: rest → ¬ Mappable c → bytes.length ≤ room →
      Stopped text room
        ⟨.unmappable c, String.utf8Len (bytes.map decodeByte ++ [c]), bytes⟩
  | outputFull {bytes : List UInt8} {c : Char} {rest : List Char} :
      text = bytes.map decodeByte ++ c :: rest → bytes.length = room →
      Stopped text room ⟨.outputFull, String.utf8Len (bytes.map decodeByte), bytes⟩

/-- **An encoder that does what is documented.** -/
def Encoder.Conforms (encoder : Encoder) : Prop :=
  ∀ (text : List Char) (room : Nat), Encoder.Stopped text room (encoder text room)

namespace CodePage

/-- A text is cut behind the bytes of its first characters. -/
theorem dropBytes?_append : ∀ (front rest : List Char),
    dropBytes? (front ++ rest) (String.utf8Len front) = some rest
  | [], [] => rfl
  | [], _ :: _ => rfl
  | c :: front, rest => by
      have hpos := c.utf8Size_pos
      obtain ⟨n, hn⟩ : ∃ n, String.utf8Len (c :: front) = n + 1 := by
        refine ⟨String.utf8Len (c :: front) - 1, ?_⟩
        rw [String.utf8Len_cons]
        omega
      have hrest : n + 1 - c.utf8Size = String.utf8Len front := by
        rw [← hn, String.utf8Len_cons]
        omega
      have hfits : c.utf8Size ≤ n + 1 := by
        rw [← hn, String.utf8Len_cons]
        omega
      rw [hn, List.cons_append, dropBytes?, if_pos hfits, hrest]
      exact dropBytes?_append front rest

theorem dropBytes?_all (text : List Char) : dropBytes? text (String.utf8Len text) = some [] := by
  have hall := dropBytes?_append text []
  rwa [List.append_nil] at hall

/-- The characters of some bytes take as many bytes in UTF-8, or more. -/
theorem length_le_utf8Len_decoded (bytes : List UInt8) :
    bytes.length ≤ String.utf8Len (bytes.map decodeByte) := by
  have hle := length_le_utf8Len (bytes.map decodeByte)
  rwa [List.length_map] at hle

/--
**A text is encoded to its end**, if the room in the buffer is no less than its bytes in UTF-8. The
encoder stops behind one character without a byte after the other, and the room never gets less
than what is left of the text.
-/
theorem encodeFrom_eq {encoder : Encoder} (h : encoder.Conforms) {size : Nat} :
    ∀ (text : List Char) (written : List UInt8), written.length + String.utf8Len text ≤ size →
      encodeFrom encoder size text written = .complete (written ++ text.map byteOf)
  | text, written, hroom => by
      have hstop := h text (size - written.length)
      rw [encodeFrom]
      generalize encoder text (size - written.length) = run at hstop
      cases hstop with
      | @inputEmpty bytes htext hfits =>
          have hbytes : text.map byteOf = bytes := by rw [htext, map_byteOf_decodeByte]
          simp only [dropBytes?_all, hbytes]
      | @unmappable bytes c rest htext hc hfits =>
          have hpos := c.utf8Size_pos
          have hfront := length_le_utf8Len_decoded bytes
          have htext' : text = (bytes.map decodeByte ++ [c]) ++ rest := by
            rw [htext, List.append_assoc]
            rfl
          have hsize : String.utf8Len text =
              String.utf8Len (bytes.map decodeByte) + (String.utf8Len rest + c.utf8Size) := by
            rw [htext, String.utf8Len_append, String.utf8Len_cons]
          have hread : dropBytes? text (String.utf8Len (bytes.map decodeByte ++ [c])) = some rest := by
            rw [htext']
            exact dropBytes?_append _ rest
          have hfilled : (written ++ bytes).length = written.length + bytes.length :=
            List.length_append
          simp only [hread]
          rw [if_pos (by omega)]
          -- the substitute takes one byte of those that the character had
          have hnext : (written ++ bytes ++ [substitute]).length + String.utf8Len rest ≤ size := by
            rw [List.length_append, List.length_singleton]
            omega
          have hshorter : rest.length < text.length := by
            rw [htext, List.length_append, List.length_cons]
            omega
          rw [encodeFrom_eq h rest (written ++ bytes ++ [substitute]) hnext]
          rw [htext, List.map_append, map_byteOf_decodeByte, List.map_cons, byteOf_unmappable hc]
          simp only [List.append_assoc, List.singleton_append]
      | @outputFull bytes c rest htext hfull =>
          -- there is a character left, so there is room for it
          have hpos := c.utf8Size_pos
          have hfront := length_le_utf8Len_decoded bytes
          rw [htext, String.utf8Len_append, String.utf8Len_cons] at hroom
          omega
termination_by text => text.length

theorem encodeInBuffer_eq {encoder : Encoder} (h : encoder.Conforms) (text : String) :
    encodeInBuffer encoder text = .complete (encode text) := by
  have hsize : text.utf8ByteSize = String.utf8Len text.toList := by
    rw [← String.utf8ByteSize_ofList, String.ofList_toList]
  unfold encodeInBuffer
  rw [encodeFrom_eq h text.toList [] (by rw [hsize]; exact Nat.le_of_eq (Nat.zero_add _))]
  rfl

/-- **The encoder for the code page does what is documented.** -/
theorem encoder_conforms : encoder.Conforms
  | [], room => @Encoder.Stopped.inputEmpty [] room [] rfl (Nat.zero_le _)
  | c :: text, 0 => @Encoder.Stopped.outputFull (c :: text) 0 [] c text rfl rfl
  | c :: text, room + 1 => by
      rw [encoder]
      cases hc : encodeChar? c with
      | none =>
          have hunmappable := encodeChar?_eq_none_iff.mp hc
          have hone : String.utf8Len [c] = c.utf8Size := by
            rw [String.utf8Len_cons]
            exact Nat.zero_add _
          have hstop : Encoder.Stopped (c :: text) (room + 1)
              ⟨.unmappable c, String.utf8Len [c], []⟩ :=
            @Encoder.Stopped.unmappable (c :: text) (room + 1) [] c text rfl hunmappable (Nat.zero_le _)
          rwa [hone] at hstop
      | some b =>
          have hb : decodeByte b = c := encodeChar?_eq_some_iff.mp hc
          have hrest := encoder_conforms text room
          dsimp only
          generalize encoder text room = run at hrest
          cases hrest with
          | @inputEmpty bytes htext hfits =>
              have hstop : Encoder.Stopped (c :: text) (room + 1)
                  ⟨.inputEmpty, String.utf8Len (c :: text), b :: bytes⟩ :=
                .inputEmpty (by rw [List.map_cons, hb, htext]) (Nat.succ_le_succ hfits)
              rwa [String.utf8Len_cons] at hstop
          | @unmappable bytes d rest htext hd hfits =>
              have hstop : Encoder.Stopped (c :: text) (room + 1)
                  ⟨.unmappable d, String.utf8Len ((b :: bytes).map decodeByte ++ [d]), b :: bytes⟩ :=
                .unmappable (by rw [List.map_cons, hb, htext]; rfl) hd (Nat.succ_le_succ hfits)
              rwa [List.map_cons, hb, List.cons_append, String.utf8Len_cons] at hstop
          | @outputFull bytes d rest htext hfull =>
              have hstop : Encoder.Stopped (c :: text) (room + 1)
                  ⟨.outputFull, String.utf8Len ((b :: bytes).map decodeByte), b :: bytes⟩ :=
                .outputFull (by rw [List.map_cons, hb, htext]; rfl) (congrArg (· + 1) hfull)
              rwa [List.map_cons, hb, String.utf8Len_cons] at hstop

/-! ## There and back -/

/-- **What is written for a character**: its own byte, or the substitute if it has none. -/
inductive WrittenAs : Char → UInt8 → Prop where
  | own (b : UInt8) : WrittenAs (decodeByte b) b
  | substitute {c : Char} : ¬ Mappable c → WrittenAs c substitute

/-- **What a character comes back as**: itself, or a question mark if it has no byte. -/
inductive ComesBackAs : Char → Char → Prop where
  | itself {c : Char} : Mappable c → ComesBackAs c c
  | questionMark {c : Char} : ¬ Mappable c → ComesBackAs c '?'

theorem writtenAs_byteOf (c : Char) : WrittenAs c (byteOf c) := by
  by_cases hc : Mappable c
  · obtain ⟨b, rfl⟩ := hc
    rw [byteOf_decodeByte]
    exact .own b
  · rw [byteOf_unmappable hc]
    exact .substitute hc

theorem comesBackAs_decodeByte {c : Char} {b : UInt8} (h : WrittenAs c b) :
    ComesBackAs c (decodeByte b) := by
  cases h with
  | own b => exact .itself ⟨b, rfl⟩
  | substitute hc =>
      have hmark : decodeByte substitute = '?' := by decide
      rw [hmark]
      exact .questionMark hc

theorem toList_decode (bytes : List UInt8) : (decode bytes).toList = bytes.map decodeByte :=
  String.toList_ofList

theorem encode_decode (bytes : List UInt8) : encode (decode bytes) = bytes := by
  rw [encode_eq, toList_decode, map_byteOf_decodeByte]

end CodePage

/--
**The code page loses nothing that it has.** Take any encoder that does what is documented of it.

A text is encoded to its end: the buffer is never too small and nothing outside of it is used. One
byte is written for each character, its own or a question mark if it has none. Bytes are decoded to
one character each, and encoding these gives the bytes again. A text that is encoded and decoded
comes back with a question mark in place of each character that the code page does not have, and is
the same otherwise.
-/
theorem code_page_is_lossless {encoder : Encoder} (h : encoder.Conforms) :
    (∀ text : String, encodeInBuffer encoder text = .complete (encode text)
        ∧ List.Forall₂ WrittenAs text.toList (encode text))
      ∧ (∀ bytes : List UInt8, (decode bytes).toList = bytes.map decodeByte
        ∧ encode (decode bytes) = bytes)
      ∧ ∀ text : String, List.Forall₂ ComesBackAs text.toList (decode (encode text)).toList := by
  have hwritten : ∀ text : String, List.Forall₂ WrittenAs text.toList (encode text) := by
    intro text
    rw [encode_eq, List.forall₂_map_right_iff, List.forall₂_same]
    exact fun c _ => writtenAs_byteOf c
  refine ⟨fun text => ⟨encodeInBuffer_eq h text, hwritten text⟩, fun bytes => ?_, fun text => ?_⟩
  · exact ⟨toList_decode bytes, encode_decode bytes⟩
  · rw [toList_decode, List.forall₂_map_right_iff]
    exact (hwritten text).imp fun _ _ => comesBackAs_decodeByte

/-- A text with a character of three bytes that the code page has, and one that it does not have. -/
theorem code_page_is_lossless_checkMark :
    CodePage.encoder.Conforms
      ∧ encodeInBuffer CodePage.encoder "a✓b€" = .complete [0x61, 0x3F, 0x62, 0x80] := by
  refine ⟨encoder_conforms, ?_⟩
  rw [((code_page_is_lossless encoder_conforms).1 "a✓b€").1]
  decide

end ScriptBridge
