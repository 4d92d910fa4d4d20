import ScriptConsole.Text.Utf8

/-! # Encoded text is read back

Decoding the bytes of a text gives the text. A character below U+0080 is its own byte, and the
bytes of any other character are no such bytes.
-/

namespace ScriptConsole.Utf8

theorem val_ofNat {code : Nat} (valid : code.isValidChar) : (Char.ofNat code).val.toNat = code := by
  unfold Char.ofNat
  rw [dif_pos valid]
  rfl

theorem toNat_ofNat_of_lt {n : Nat} (small : n < 256) : (UInt8.ofNat n).toNat = n := by
  rw [UInt8.toNat_ofNat', Nat.mod_eq_of_lt small]

theorem utf8EncodeChar_ascii {c : Char} (ascii : c.toNat < 128) :
    String.utf8EncodeChar c = [UInt8.ofNat c.toNat] := by
  have small : c.val.toNat ≤ 127 := Nat.le_of_lt_succ ascii
  rw [String.utf8EncodeChar.eq_1, if_pos small]
  rfl

theorem encodeChars_ascii {text : List Char} (ascii : ∀ c ∈ text, c.toNat < 128) :
    encodeChars text = text.map fun c => UInt8.ofNat c.toNat := by
  induction text with
  | nil => rfl
  | cons c text ih =>
      obtain ⟨small, ascii⟩ := List.forall_mem_cons.mp ascii
      have split : encodeChars (c :: text) = String.utf8EncodeChar c ++ encodeChars text :=
        List.flatMap_cons
      rw [split, utf8EncodeChar_ascii small, ih ascii, List.singleton_append, List.map_cons]

/-- The bytes of a character that is not ASCII are not, either. -/
theorem le_of_mem_utf8EncodeChar {c : Char} {byte : UInt8} (wide : 128 ≤ c.toNat)
    (member : byte ∈ String.utf8EncodeChar c) : 128 ≤ byte.toNat := by
  have wide : ¬ c.val.toNat ≤ 127 := Nat.not_le_of_gt wide
  rw [String.utf8EncodeChar.eq_1, if_neg wide] at member
  split at member
  · simp only [List.mem_cons, List.not_mem_nil, or_false] at member
    rcases member with rfl | rfl <;> rw [UInt8.toNat_ofNat'] <;> omega
  · split at member
    · simp only [List.mem_cons, List.not_mem_nil, or_false] at member
      rcases member with rfl | rfl | rfl <;> rw [UInt8.toNat_ofNat'] <;> omega
    · simp only [List.mem_cons, List.not_mem_nil, or_false] at member
      rcases member with rfl | rfl | rfl | rfl <;> rw [UInt8.toNat_ofNat'] <;> omega

theorem toNat_toUInt8 {ascii : Char} (small : ascii.toNat < 128) :
    ascii.toUInt8.toNat = ascii.toNat := by
  unfold Char.toUInt8
  rw [UInt32.toNat_toUInt8]
  exact Nat.mod_eq_of_lt (Nat.lt_trans small (by decide))

/-- An ASCII character occurs in the bytes of a character only if it is the character. -/
theorem eq_of_mem_utf8EncodeChar {c ascii : Char} (small : ascii.toNat < 128)
    (member : ascii.toUInt8 ∈ String.utf8EncodeChar c) : c = ascii := by
  have code := toNat_toUInt8 small
  by_cases narrow : c.toNat < 128
  · rw [utf8EncodeChar_ascii narrow, List.mem_singleton] at member
    have same : c.toNat = ascii.toNat := by
      rw [← code, member, toNat_ofNat_of_lt (by omega)]
    exact Char.toNat_inj.mp same
  · have wide := le_of_mem_utf8EncodeChar (Nat.le_of_not_lt narrow) member
    omega

theorem mem_of_mem_encodeChars {ascii : Char} (small : ascii.toNat < 128) {text : List Char}
    (member : ascii.toUInt8 ∈ encodeChars text) : ascii ∈ text := by
  obtain ⟨c, within, byte⟩ := List.mem_flatMap.mp member
  rw [← eq_of_mem_utf8EncodeChar small byte]
  exact within

theorem encodeChars_append (first second : List Char) :
    encodeChars (first ++ second) = encodeChars first ++ encodeChars second :=
  List.flatMap_append

theorem decodeEach_ascii {byte : UInt8} (ascii : byte < 0x80) (rest : List UInt8) :
    decodeEach (byte :: rest) = some (Char.ofNat byte.toNat) :: decodeEach rest := by
  rw [decodeEach.eq_def]
  simp only [ascii, ↓reduceIte]

/-- The announcement of a byte by its number. -/
theorem lead?_eq (first : UInt8) : lead? first =
    if first.toNat < 0xC2 then none
    else if first.toNat < 0xE0 then some ⟨1, first.toNat - 0xC0, 0x80, 0xBF⟩
    else if first.toNat = 0xE0 then some ⟨2, first.toNat - 0xE0, 0xA0, 0xBF⟩
    else if first.toNat = 0xED then some ⟨2, first.toNat - 0xE0, 0x80, 0x9F⟩
    else if first.toNat < 0xF0 then some ⟨2, first.toNat - 0xE0, 0x80, 0xBF⟩
    else if first.toNat = 0xF0 then some ⟨3, first.toNat - 0xF0, 0x90, 0xBF⟩
    else if first.toNat < 0xF4 then some ⟨3, first.toNat - 0xF0, 0x80, 0xBF⟩
    else if first.toNat = 0xF4 then some ⟨3, first.toNat - 0xF0, 0x80, 0x8F⟩
    else none := by
  simp only [lead?, UInt8.lt_iff_toNat_lt, ← UInt8.toNat_inj]
  rfl

/-- Whether a byte is within the bounds that are set for the second byte. -/
def Lead.Admits (lead : Lead) (second : UInt8) : Prop :=
  (second < lead.low || lead.high < second) = false

theorem Lead.admits_iff {lead : Lead} {second : UInt8} :
    lead.Admits second ↔ lead.low.toNat ≤ second.toNat ∧ second.toNat ≤ lead.high.toNat := by
  simp only [Admits, UInt8.lt_iff_toNat_lt, Bool.or_eq_false_iff, decide_eq_false_iff_not,
    Nat.not_lt]

theorem continues_of_bounds {byte : UInt8} (low : 128 ≤ byte.toNat) (high : byte.toNat < 192) :
    continues byte = true := by
  simp only [continues, Bool.and_eq_true, decide_eq_true_eq, UInt8.le_iff_toNat_le]
  exact ⟨low, Nat.le_of_lt_succ high⟩

section Sequences

variable {first second third fourth : UInt8} {lead : Lead}

theorem decodeEach_two (wide : ¬ first < 0x80) (announced : lead? first = some lead)
    (within : lead.Admits second) (length : lead.following = 1) (rest : List UInt8) :
    decodeEach (first :: second :: rest) =
      some (Char.ofNat (extend lead.bits second)) :: decodeEach rest := by
  unfold Lead.Admits at within
  rw [decodeEach.eq_def]
  simp only [wide, announced, within, length, Bool.false_eq_true, ↓reduceIte]

theorem decodeEach_three (wide : ¬ first < 0x80) (announced : lead? first = some lead)
    (within : lead.Admits second) (goesOn : continues third = true)
    (length : lead.following = 2) (rest : List UInt8) :
    decodeEach (first :: second :: third :: rest) =
      some (Char.ofNat (extend (extend lead.bits second) third)) :: decodeEach rest := by
  unfold Lead.Admits at within
  rw [decodeEach.eq_def]
  simp only [wide, announced, within, length, goesOn, Nat.reduceEqDiff, Bool.not_true,
    Bool.false_eq_true, ↓reduceIte]

theorem decodeEach_four (wide : ¬ first < 0x80) (announced : lead? first = some lead)
    (within : lead.Admits second) (goesOn : continues third = true)
    (ends : continues fourth = true) (length : lead.following = 3) (rest : List UInt8) :
    decodeEach (first :: second :: third :: fourth :: rest) =
      some (Char.ofNat (extend (extend (extend lead.bits second) third) fourth)) ::
        decodeEach rest := by
  unfold Lead.Admits at within
  rw [decodeEach.eq_def]
  simp only [wide, announced, within, length, goesOn, ends, Nat.reduceEqDiff, Bool.not_true,
    Bool.false_eq_true, ↓reduceIte]

end Sequences

theorem lt_of_toNat_lt {byte : UInt8} (ascii : byte.toNat < 128) : byte < 0x80 := by
  rw [UInt8.lt_iff_toNat_lt]
  exact ascii

theorem not_lt_of_le {byte : UInt8} (wide : 128 ≤ byte.toNat) : ¬ byte < 0x80 := by
  rw [UInt8.lt_iff_toNat_lt]
  exact Nat.not_lt.mpr wide

section Codes

variable {code : Nat} (rest : List UInt8)

/-- The two bytes of a code are decoded to its character. -/
theorem decodeEach_code_two (low : 128 ≤ code) (high : code < 2048) :
    decodeEach (UInt8.ofNat (code / 64 % 32 + 192) :: UInt8.ofNat (code % 64 + 128) :: rest) =
      some (Char.ofNat code) :: decodeEach rest := by
  have head := toNat_ofNat_of_lt (show code / 64 % 32 + 192 < 256 by omega)
  have tail := toNat_ofNat_of_lt (show code % 64 + 128 < 256 by omega)
  have announced := lead?_eq (UInt8.ofNat (code / 64 % 32 + 192))
  rw [head, if_neg (by omega), if_pos (by omega)] at announced
  have within : Lead.Admits ⟨1, code / 64 % 32 + 192 - 0xC0, 0x80, 0xBF⟩
      (UInt8.ofNat (code % 64 + 128)) := by
    rw [Lead.admits_iff, tail]
    simp only [UInt8.reduceToNat]
    omega
  have value : extend (code / 64 % 32 + 192 - 0xC0) (UInt8.ofNat (code % 64 + 128)) = code := by
    unfold extend
    omega
  rw [decodeEach_two (not_lt_of_le (by omega)) announced within rfl, value]

/-- The three bytes of a code are decoded to its character, if the code is no surrogate. -/
theorem decodeEach_code_three (low : 2048 ≤ code) (high : code < 65536)
    (valid : code < 0xD800 ∨ 0xDFFF < code) :
    decodeEach (UInt8.ofNat (code / 4096 % 16 + 224) :: UInt8.ofNat (code / 64 % 64 + 128) ::
      UInt8.ofNat (code % 64 + 128) :: rest) = some (Char.ofNat code) :: decodeEach rest := by
  have head := toNat_ofNat_of_lt (show code / 4096 % 16 + 224 < 256 by omega)
  have middle := toNat_ofNat_of_lt (show code / 64 % 64 + 128 < 256 by omega)
  have tail := toNat_ofNat_of_lt (show code % 64 + 128 < 256 by omega)
  obtain ⟨lead, announced, following, bits, within⟩ :
      ∃ lead, lead? (UInt8.ofNat (code / 4096 % 16 + 224)) = some lead ∧ lead.following = 2 ∧
        lead.bits = code / 4096 ∧ lead.Admits (UInt8.ofNat (code / 64 % 64 + 128)) := by
    simp only [Lead.admits_iff, middle, lead?_eq, head]
    rw [if_neg (by omega), if_neg (by omega)]
    split
    next =>
      refine ⟨_, rfl, rfl, by dsimp only; omega, ?_⟩
      simp only [UInt8.reduceToNat]
      omega
    next =>
      split
      next =>
        refine ⟨_, rfl, rfl, by dsimp only; omega, ?_⟩
        simp only [UInt8.reduceToNat]
        omega
      next =>
        rw [if_pos (by omega)]
        refine ⟨_, rfl, rfl, by dsimp only; omega, ?_⟩
        simp only [UInt8.reduceToNat]
        omega
  have value : extend (extend (code / 4096) (UInt8.ofNat (code / 64 % 64 + 128)))
      (UInt8.ofNat (code % 64 + 128)) = code := by
    unfold extend
    omega
  rw [decodeEach_three (not_lt_of_le (by omega)) announced within
    (continues_of_bounds (by omega) (by omega)) following, bits, value]

/-- The four bytes of a code are decoded to its character. -/
theorem decodeEach_code_four (low : 65536 ≤ code) (high : code < 0x110000) :
    decodeEach (UInt8.ofNat (code / 262144 % 8 + 240) :: UInt8.ofNat (code / 4096 % 64 + 128) ::
      UInt8.ofNat (code / 64 % 64 + 128) :: UInt8.ofNat (code % 64 + 128) :: rest) =
        some (Char.ofNat code) :: decodeEach rest := by
  have head := toNat_ofNat_of_lt (show code / 262144 % 8 + 240 < 256 by omega)
  have second := toNat_ofNat_of_lt (show code / 4096 % 64 + 128 < 256 by omega)
  have third := toNat_ofNat_of_lt (show code / 64 % 64 + 128 < 256 by omega)
  have tail := toNat_ofNat_of_lt (show code % 64 + 128 < 256 by omega)
  obtain ⟨lead, announced, following, bits, within⟩ :
      ∃ lead, lead? (UInt8.ofNat (code / 262144 % 8 + 240)) = some lead ∧ lead.following = 3 ∧
        lead.bits = code / 262144 ∧ lead.Admits (UInt8.ofNat (code / 4096 % 64 + 128)) := by
    simp only [Lead.admits_iff, second, lead?_eq, head]
    rw [if_neg (by omega), if_neg (by omega), if_neg (by omega), if_neg (by omega),
      if_neg (by omega)]
    split
    next =>
      refine ⟨_, rfl, rfl, by dsimp only; omega, ?_⟩
      simp only [UInt8.reduceToNat]
      omega
    next =>
      split
      next =>
        refine ⟨_, rfl, rfl, by dsimp only; omega, ?_⟩
        simp only [UInt8.reduceToNat]
        omega
      next =>
        rw [if_pos (by omega)]
        refine ⟨_, rfl, rfl, by dsimp only; omega, ?_⟩
        simp only [UInt8.reduceToNat]
        omega
  have value : extend (extend (extend (code / 262144) (UInt8.ofNat (code / 4096 % 64 + 128)))
      (UInt8.ofNat (code / 64 % 64 + 128))) (UInt8.ofNat (code % 64 + 128)) = code := by
    unfold extend
    omega
  rw [decodeEach_four (not_lt_of_le (by omega)) announced within
    (continues_of_bounds (by omega) (by omega)) (continues_of_bounds (by omega) (by omega))
    following, bits, value]

end Codes

/-- The bytes of a character are read as the character. -/
theorem decodeEach_utf8EncodeChar (c : Char) (rest : List UInt8) :
    decodeEach (String.utf8EncodeChar c ++ rest) = some c :: decodeEach rest := by
  have valid : c.val.toNat < 0xD800 ∨ 0xDFFF < c.val.toNat ∧ c.val.toNat < 0x110000 := c.valid
  have back : Char.ofNat c.val.toNat = c := Char.ofNat_toNat c
  rw [String.utf8EncodeChar.eq_1]
  split
  next ascii =>
    have head := toNat_ofNat_of_lt (show c.val.toNat < 256 by omega)
    rw [List.singleton_append, decodeEach_ascii (lt_of_toNat_lt (by omega)), head, back]
  next wide =>
    split
    next two =>
      have read := decodeEach_code_two rest (by omega) (Nat.lt_succ_of_le two)
      rw [back] at read
      exact read
    next three =>
      split
      next =>
        have read := @decodeEach_code_three c.val.toNat rest (by omega) (by omega) (by omega)
        rw [back] at read
        exact read
      next =>
        have read := @decodeEach_code_four c.val.toNat rest (by omega) (by omega)
        rw [back] at read
        exact read

/-- The encoding of a text is decoded to the text. -/
theorem decodeLossy_encodeChars (text : List Char) : decodeLossy (encodeChars text) = text := by
  have each : decodeEach (encodeChars text) = text.map some := by
    induction text with
    | nil => rfl
    | cons c text ih =>
        have split : encodeChars (c :: text) = String.utf8EncodeChar c ++ encodeChars text :=
          List.flatMap_cons
        rw [split, decodeEach_utf8EncodeChar, ih, List.map_cons]
  unfold decodeLossy
  rw [each, List.map_map]
  exact List.map_id text

/-- A text all of whose bytes are ASCII is read back from them. -/
theorem ofAscii_encode {text : String} (ascii : ∀ byte ∈ encode text, byte.toNat < 128) :
    ofAscii (encode text) = text := by
  have each (chars : List Char) (ascii : ∀ byte ∈ encodeChars chars, byte.toNat < 128) :
      (encodeChars chars).map (fun byte => Char.ofNat byte.toNat) = chars := by
    induction chars with
    | nil => rfl
    | cons c chars ih =>
        have split : encodeChars (c :: chars) = String.utf8EncodeChar c ++ encodeChars chars :=
          List.flatMap_cons
        rw [split] at ascii
        have small : c.toNat < 128 := by
          refine Nat.lt_of_not_le fun wide => ?_
          obtain ⟨byte, bytes, spelled⟩ :=
            List.exists_cons_of_ne_nil (String.utf8EncodeChar_ne_nil (c := c))
          have member : byte ∈ String.utf8EncodeChar c := by
            rw [spelled]
            exact List.mem_cons_self
          have high := le_of_mem_utf8EncodeChar wide member
          have low := ascii byte (List.mem_append_left _ member)
          omega
        have rest := ih fun byte member => ascii byte (List.mem_append_right _ member)
        have head := toNat_ofNat_of_lt (show c.toNat < 256 by omega)
        rw [split, utf8EncodeChar_ascii small, List.singleton_append, List.map_cons, rest, head,
          Char.ofNat_toNat]
  unfold ofAscii encode
  rw [each text.toList ascii, String.ofList_toList]

/-- ASCII bytes are the bytes of their text. -/
theorem encode_ofAscii {bytes : List UInt8} (ascii : ∀ byte ∈ bytes, byte.toNat < 128) :
    encode (ofAscii bytes) = bytes := by
  have code {byte : UInt8} (member : byte ∈ bytes) : (Char.ofNat byte.toNat).toNat = byte.toNat :=
    val_ofNat (.inl (Nat.lt_trans (ascii byte member) (by decide)))
  have chars : ∀ c ∈ bytes.map fun byte => Char.ofNat byte.toNat, c.toNat < 128 := by
    refine List.forall_mem_map.mpr fun byte member => ?_
    rw [code member]
    exact ascii byte member
  unfold encode ofAscii
  rw [String.toList_ofList, encodeChars_ascii chars, List.map_map]
  refine (List.map_congr_left fun byte member => ?_).trans (List.map_id bytes)
  rw [Function.comp_apply, code member, UInt8.ofNat_toNat]
  rfl

end ScriptConsole.Utf8
