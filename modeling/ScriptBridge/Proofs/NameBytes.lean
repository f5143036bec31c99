import ScriptBridge.Text.Utf8

/-!
# Names in bytes

A name goes to the server as bytes that a zero ends, and it is recovered from them. Both ways have
to agree on every name: the strict reader takes what was written apart into the same characters, and
the only character with a zero among its bytes is the one that is a zero.

The writer says for each of four sizes of a character which bytes it has. The reader looks at the
lead byte, and its ranges for the second byte are just wide enough for the characters of that size.
-/

namespace ScriptBridge.Utf8

/-! ## Bytes of a text -/

theorem toList_loop_eq (bytes : ByteArray) (i : Nat) (before : List UInt8) :
    ByteArray.toList.loop bytes i before = before.reverse ++ bytes.data.toList.drop i := by
  fun_induction ByteArray.toList.loop bytes i before with
  | case1 i before hinside ih =>
      have hlength : i < bytes.data.toList.length := by simpa using hinside
      rw [ih, List.drop_eq_getElem_cons hlength]
      simp [ByteArray.get!, hinside]
  | case2 i before hend =>
      rw [List.drop_eq_nil_of_le (by simpa using Nat.le_of_not_lt hend), List.append_nil]

/-- **A text is written character by character.** -/
theorem encode_eq (text : String) : encode text = text.toList.flatMap String.utf8EncodeChar := by
  have hbytes : text.toUTF8 = (text.toList.flatMap String.utf8EncodeChar).toByteArray :=
    String.utf8Encode_toList.symm
  unfold encode ByteArray.toList
  rw [toList_loop_eq, hbytes, List.toList_data_toByteArray]
  rfl

/-! ## Characters -/

/-- **The bytes of a character**, for each of the sizes that it may have. -/
inductive Written (v : Nat) : List UInt8 → Prop where
  | one : v ≤ 0x7F → Written v [UInt8.ofNat v]
  | two : 0x7F < v → v ≤ 0x7FF →
      Written v [UInt8.ofNat (v / 64 % 32 + 0xC0), UInt8.ofNat (v % 64 + 0x80)]
  | three : 0x7FF < v → v ≤ 0xFFFF →
      Written v [UInt8.ofNat (v / 4096 % 16 + 0xE0), UInt8.ofNat (v / 64 % 64 + 0x80),
        UInt8.ofNat (v % 64 + 0x80)]
  | four : 0xFFFF < v →
      Written v [UInt8.ofNat (v / 262144 % 8 + 0xF0), UInt8.ofNat (v / 4096 % 64 + 0x80),
        UInt8.ofNat (v / 64 % 64 + 0x80), UInt8.ofNat (v % 64 + 0x80)]

theorem written_utf8EncodeChar (c : Char) : Written c.toNat (String.utf8EncodeChar c) := by
  change Written c.val.toNat _
  unfold String.utf8EncodeChar
  dsimp only
  split
  · exact .one ‹_›
  split
  · exact .two (by omega) ‹_›
  split
  · exact .three (by omega) ‹_›
  · exact .four (by omega)

/-- A byte that continues a character is read as its payload. -/
theorem payload?_ofNat {bytes : List UInt8} {i n : Nat} {range : UInt8 × UInt8}
    (hbyte : bytes[i]? = some (UInt8.ofNat (n % 64 + 0x80)))
    (hlow : range.1.toNat ≤ n % 64 + 0x80) (hhigh : n % 64 + 0x80 ≤ range.2.toNat) :
    payload? bytes i range = some (n % 64) := by
  have hn : (UInt8.ofNat (n % 64 + 0x80)).toNat = n % 64 + 0x80 :=
    UInt8.toNat_ofNat_of_lt' (show n % 64 + 0x80 < 256 by omega)
  have hin : range.1 ≤ UInt8.ofNat (n % 64 + 0x80) ∧ UInt8.ofNat (n % 64 + 0x80) ≤ range.2 := by
    rw [UInt8.le_iff_toNat_le, UInt8.le_iff_toNat_le, hn]
    exact ⟨hlow, hhigh⟩
  unfold payload? continuation?
  rw [hbyte]
  dsimp only
  rw [if_pos hin, hn]
  exact congrArg some (by omega)

/-- What a second byte may be: any continuation, but for the lead bytes at the edges. -/
theorem mem_secondRange {lead : UInt8} {n : Nat} (hlow : 0x80 ≤ n) (hhigh : n ≤ 0xBF)
    (hshortThree : lead.toNat = 0xE0 → 0xA0 ≤ n) (hsurrogate : lead.toNat = 0xED → n ≤ 0x9F)
    (hshortFour : lead.toNat = 0xF0 → 0x90 ≤ n) (hlast : lead.toNat = 0xF4 → n ≤ 0x8F) :
    (secondRange lead).1.toNat ≤ n ∧ n ≤ (secondRange lead).2.toNat := by
  unfold secondRange
  split
  · exact ⟨hshortThree (congrArg UInt8.toNat ‹_›), hhigh⟩
  split
  · exact ⟨hlow, hsurrogate (congrArg UInt8.toNat ‹_›)⟩
  split
  · exact ⟨hshortFour (congrArg UInt8.toNat ‹_›), hhigh⟩
  split
  · exact ⟨hlow, hlast (congrArg UInt8.toNat ‹_›)⟩
  · exact ⟨hlow, hhigh⟩

/-- A character is a number below the surrogates or above them. -/
theorem toNat_ranges (c : Char) :
    c.toNat < 0xD800 ∨ 0xDFFF < c.toNat ∧ c.toNat < 0x110000 := c.valid

/-- **A character that was written is read**, and what stands behind it is left. -/
theorem step_of_written {c : Char} {bytes : List UInt8} (h : Written c.toNat bytes)
    (rest : List UInt8) :
    ∃ lead behind, bytes = lead :: behind ∧ step lead (behind ++ rest) = .char c bytes.length := by
  have hchar : Char.ofNat c.toNat = c := Char.ofNat_toNat c
  have hranges := toNat_ranges c
  generalize c.toNat = v at h hchar hranges
  have hbyte : ∀ n, n < 256 → (UInt8.ofNat n).toNat = n := fun n hn => UInt8.toNat_ofNat_of_lt' hn
  cases h with
  | one hv =>
      refine ⟨_, [], rfl, ?_⟩
      unfold step
      dsimp only
      rw [hbyte v (by omega), if_pos (by omega), hchar]
      rfl
  | two hlow hhigh =>
      refine ⟨_, _, rfl, ?_⟩
      unfold step
      dsimp only
      rw [hbyte _ (by omega), if_neg (by omega), if_pos (by omega),
        payload?_ofNat (n := v) rfl (by simp) (by simp; omega)]
      exact congrArg (Step.char · 2) (hchar ▸ congrArg Char.ofNat (by omega))
  | three hlow hhigh =>
      refine ⟨_, _, rfl, ?_⟩
      have hlead := hbyte (v / 4096 % 16 + 0xE0) (by omega)
      -- the bound for 0xED holds because there are no surrogates
      obtain ⟨hfirst, hlast⟩ := @mem_secondRange (UInt8.ofNat (v / 4096 % 16 + 0xE0))
        (v / 64 % 64 + 0x80) (by omega) (by omega) (by omega) (by omega) (by omega) (by omega)
      unfold step
      dsimp only
      rw [hlead, if_neg (by omega), if_neg (by omega), if_pos (by omega),
        payload?_ofNat (n := v / 64) rfl hfirst hlast]
      dsimp only
      rw [payload?_ofNat (n := v) rfl (by simp) (by simp; omega)]
      exact congrArg (Step.char · 3) (hchar ▸ congrArg Char.ofNat (by omega))
  | four hlow =>
      refine ⟨_, _, rfl, ?_⟩
      have hlead := hbyte (v / 262144 % 8 + 0xF0) (by omega)
      -- the bound for 0xF4 holds because of the largest character
      obtain ⟨hfirst, hlast⟩ := @mem_secondRange (UInt8.ofNat (v / 262144 % 8 + 0xF0))
        (v / 4096 % 64 + 0x80) (by omega) (by omega) (by omega) (by omega) (by omega) (by omega)
      unfold step
      dsimp only
      rw [hlead, if_neg (by omega), if_neg (by omega), if_neg (by omega), if_pos (by omega),
        payload?_ofNat (n := v / 4096) rfl hfirst hlast]
      dsimp only
      rw [payload?_ofNat (n := v / 64) rfl (by simp) (by simp; omega)]
      dsimp only
      rw [payload?_ofNat (n := v) rfl (by simp) (by simp; omega)]
      exact congrArg (Step.char · 4) (hchar ▸ congrArg Char.ofNat (by omega))

/-! ## Texts -/

theorem pieces_flatMap (chars : List Char) :
    pieces (chars.flatMap String.utf8EncodeChar) = chars.map some := by
  induction chars with
  | nil => simp [pieces]
  | cons c rest ih =>
      obtain ⟨lead, behind, hbytes, hstep⟩ :=
        step_of_written (written_utf8EncodeChar c) (rest.flatMap String.utf8EncodeChar)
      rw [List.flatMap_cons, hbytes, List.cons_append, pieces, hstep]
      simp [hbytes, ih]

theorem mapM_some (chars : List Char) : (chars.map some).mapM id = some chars := by
  rw [List.mapM_map]
  exact (List.mapM_pure (m := Option) (f := id)).trans (congrArg some (List.map_id chars))

/-- **What was written is read**, even strictly. -/
theorem strict?_encode (text : String) : strict? (encode text) = some text := by
  unfold strict?
  rw [encode_eq, pieces_flatMap, mapM_some, Option.map_some, String.ofList_toList]

/-- What was written is read where malformed bytes are put up with. -/
theorem lossy_encode (text : String) : lossy (encode text) = text := by
  unfold lossy
  rw [encode_eq, pieces_flatMap, List.map_map]
  exact (congrArg String.ofList (List.map_id _)).trans String.ofList_toList

theorem Written.zero_mem_iff {v : Nat} {bytes : List UInt8} (h : Written v bytes) :
    0 ∈ bytes ↔ v = 0 := by
  have hbyte : ∀ n, n < 256 → (0 = UInt8.ofNat n ↔ n = 0) := by
    intro n hn
    rw [← UInt8.toNat_inj, UInt8.toNat_ofNat_of_lt' hn]
    exact eq_comm
  cases h with
  | one hv =>
      rw [List.mem_singleton]
      exact hbyte v (by omega)
  | two hlow hhigh =>
      simp only [List.mem_cons, List.not_mem_nil, or_false]
      rw [hbyte _ (by omega), hbyte _ (by omega)]
      omega
  | three hlow hhigh =>
      simp only [List.mem_cons, List.not_mem_nil, or_false]
      rw [hbyte _ (by omega), hbyte _ (by omega), hbyte _ (by omega)]
      omega
  | four hlow =>
      simp only [List.mem_cons, List.not_mem_nil, or_false]
      rw [hbyte _ (by omega), hbyte _ (by omega), hbyte _ (by omega), hbyte _ (by omega)]
      omega

/-- **A text has a zero among its bytes exactly if it has one among its characters.** -/
theorem zero_mem_encode_iff (text : String) : 0 ∈ encode text ↔ '\x00' ∈ text.toList := by
  rw [encode_eq, List.mem_flatMap]
  constructor
  · rintro ⟨c, hc, hzero⟩
    have hnat : c.toNat = 0 := (written_utf8EncodeChar c).zero_mem_iff.mp hzero
    obtain rfl : c = '\x00' := Char.toNat_inj.mp hnat
    exact hc
  · exact fun hc => ⟨'\x00', hc, (written_utf8EncodeChar _).zero_mem_iff.mpr rfl⟩

/-! ## Names of plain characters

A character that one byte would do for is read off that byte and off no others: the ranges for the
second byte leave out the longer ways to write it, and a malformed piece is read as a character that
needs more than one byte. -/

/-- What continues a character lies within its range. -/
theorem payload?_eq_some {bytes : List UInt8} {i a : Nat} {range : UInt8 × UInt8}
    (h : payload? bytes i range = some a) :
    ∃ b : UInt8, range.1.toNat ≤ b.toNat ∧ b.toNat ≤ range.2.toNat ∧ a = b.toNat % 64 := by
  unfold payload? continuation? at h
  split at h
  · rename_i b _
    split at h
    · rename_i hin
      exact ⟨b, UInt8.le_iff_toNat_le.mp hin.1, UInt8.le_iff_toNat_le.mp hin.2,
        (Option.some.inj h).symm⟩
    · exact absurd h (by simp)
  · exact absurd h (by simp)

/-- A number is that of its character, or of none. -/
theorem toNat_ofNat_or (v : Nat) : (Char.ofNat v).toNat = v ∨ (Char.ofNat v).toNat = 0 := by
  by_cases hvalid : v.isValidChar
  · left
    rw [Char.ofNat, dif_pos hvalid]
    rfl
  · right
    rw [Char.ofNat, dif_neg hvalid]
    rfl

/-- The second byte after the lead bytes that would allow of a longer way to write a character. -/
theorem secondRange_low (lead : UInt8) :
    (lead.toNat = 0xE0 → (secondRange lead).1.toNat = 0xA0)
      ∧ (lead.toNat = 0xF0 → (secondRange lead).1.toNat = 0x90) := by
  constructor
  · intro hlead
    obtain rfl : lead = 0xE0 := UInt8.toNat_inj.mp hlead
    rfl
  · intro hlead
    obtain rfl : lead = 0xF0 := UInt8.toNat_inj.mp hlead
    rfl

theorem secondRange_high (lead : UInt8) : (secondRange lead).2.toNat ≤ 0xBF := by
  unfold secondRange
  split
  · decide
  split
  · decide
  split
  · decide
  split <;> decide

/-- **A plain character is read off its own byte.** -/
theorem step_plain {lead : UInt8} {rest : List UInt8} {c : Char} {n : Nat}
    (h : step lead rest = .char c n) (hpos : 0 < c.toNat) (hplain : c.toNat < 0x80) :
    n = 1 ∧ lead.toNat = c.toNat := by
  have hnumber : ∀ v k, Step.char (Char.ofNat v) k = .char c n → k = n ∧ v = c.toNat := by
    intro v k heq
    obtain ⟨rfl, rfl⟩ := Step.char.inj heq
    exact ⟨rfl, ((toNat_ofNat_or v).resolve_right (Nat.ne_of_gt hpos)).symm⟩
  obtain ⟨hthree, hfour⟩ := secondRange_low lead
  have hhigh := secondRange_high lead
  unfold step at h
  dsimp only at h
  split at h
  · obtain ⟨hn, hlead⟩ := hnumber _ _ h
    exact ⟨hn.symm, hlead⟩
  split at h
  · cases hfirst : payload? rest 0 (0x80, 0xBF) with
    | none => simp [hfirst] at h
    | some a =>
        rw [hfirst] at h
        have hv := (hnumber _ _ h).2
        omega
  split at h
  · cases hfirst : payload? rest 0 (secondRange lead) with
    | none => simp [hfirst] at h
    | some a =>
        obtain ⟨x, hlow, hlast, rfl⟩ := payload?_eq_some hfirst
        cases hsecond : payload? rest 1 (0x80, 0xBF) with
        | none => simp [hfirst, hsecond] at h
        | some b =>
            rw [hfirst, hsecond] at h
            have hv := (hnumber _ _ h).2
            omega
  split at h
  · cases hfirst : payload? rest 0 (secondRange lead) with
    | none => simp [hfirst] at h
    | some a =>
        obtain ⟨x, hlow, hlast, rfl⟩ := payload?_eq_some hfirst
        cases hsecond : payload? rest 1 (0x80, 0xBF) with
        | none => simp [hfirst, hsecond] at h
        | some b =>
            cases hthird : payload? rest 2 (0x80, 0xBF) with
            | none => simp [hfirst, hsecond, hthird] at h
            | some d =>
                rw [hfirst, hsecond, hthird] at h
                have hv := (hnumber _ _ h).2
                omega
  · cases h

/-- A plain character has one byte. -/
theorem Written.plain {v : Nat} {bytes : List UInt8} (h : Written v bytes) (hv : v < 0x80) :
    bytes = [UInt8.ofNat v] := by
  cases h with
  | one _ => rfl
  | two hlow _ => omega
  | three hlow _ => omega
  | four hlow => omega

/-- **A name of plain characters is read off its own bytes** and off no others. -/
theorem eq_encode_of_lossy_eq {text : String}
    (hplain : ∀ c ∈ text.toList, 0 < c.toNat ∧ c.toNat < 0x80) {bytes : List UInt8}
    (h : lossy bytes = text) : bytes = encode text := by
  subst h
  rw [encode_eq]
  unfold lossy at hplain ⊢
  rw [String.toList_ofList] at hplain ⊢
  fun_induction pieces bytes with
  | case1 => rfl
  | case2 lead rest c n hstep ih =>
      rw [List.map_cons] at hplain ⊢
      obtain ⟨hpos, hlt⟩ := hplain c List.mem_cons_self
      obtain ⟨rfl, hlead⟩ := step_plain hstep hpos hlt
      have hbyte : String.utf8EncodeChar c = [lead] := by
        rw [(written_utf8EncodeChar c).plain hlt, ← hlead, UInt8.ofNat_toNat]
      have hrest := ih fun c hc => hplain c (List.mem_cons_of_mem _ hc)
      rw [List.flatMap_cons, Option.getD_some, hbyte, ← hrest]
      rfl
  | case3 lead rest n hstep ih =>
      obtain ⟨_, hlt⟩ := hplain replacement (by simp)
      exact absurd hlt (by decide)

end ScriptBridge.Utf8
