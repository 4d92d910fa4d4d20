import ScriptConsole.Proofs.Text.Utf8

/-! # Only encoded text is read strictly

The strict reader accepts the bytes of a text and no other bytes
(`ScriptConsole.Utf8.decode?_eq_some_iff`).
-/

namespace ScriptConsole.Utf8

section Characters

variable {first second third fourth : UInt8} {lead : Lead}

/-- What a first byte announces, by how many bytes follow. -/
theorem lead?_cases (announced : lead? first = some lead) :
    (lead.following = 1 ∧ lead.bits = first.toNat - 0xC0 ∧
      0xC2 ≤ first.toNat ∧ first.toNat < 0xE0 ∧
      0x80 ≤ lead.low.toNat ∧ lead.high.toNat ≤ 0xBF) ∨
    (lead.following = 2 ∧ lead.bits = first.toNat - 0xE0 ∧
      0xE0 ≤ first.toNat ∧ first.toNat < 0xF0 ∧
      0x80 ≤ lead.low.toNat ∧ lead.high.toNat ≤ 0xBF ∧
      (first.toNat = 0xE0 → 0xA0 ≤ lead.low.toNat) ∧
      (first.toNat = 0xED → lead.high.toNat ≤ 0x9F)) ∨
    (lead.following = 3 ∧ lead.bits = first.toNat - 0xF0 ∧
      0xF0 ≤ first.toNat ∧ first.toNat ≤ 0xF4 ∧
      0x80 ≤ lead.low.toNat ∧ lead.high.toNat ≤ 0xBF ∧
      (first.toNat = 0xF0 → 0x90 ≤ lead.low.toNat) ∧
      (first.toNat = 0xF4 → lead.high.toNat ≤ 0x8F)) := by
  rw [lead?_eq] at announced
  repeat' split at announced
  next => contradiction
  next =>
    obtain rfl := Option.some.inj announced
    refine .inl ⟨rfl, rfl, by omega, by omega, ?_, ?_⟩ <;> simp only [UInt8.reduceToNat] <;> omega
  iterate 3
    next =>
      obtain rfl := Option.some.inj announced
      refine .inr (.inl ⟨rfl, rfl, by omega, by omega, ?_, ?_, ?_, ?_⟩) <;>
        simp only [UInt8.reduceToNat] <;> omega
  iterate 3
    next =>
      obtain rfl := Option.some.inj announced
      refine .inr (.inr ⟨rfl, rfl, by omega, by omega, ?_, ?_, ?_, ?_⟩) <;>
        simp only [UInt8.reduceToNat] <;> omega
  next => contradiction

theorem continues_iff {byte : UInt8} :
    continues byte = true ↔ 0x80 ≤ byte.toNat ∧ byte.toNat ≤ 0xBF := by
  simp only [continues, Bool.and_eq_true, decide_eq_true_eq, UInt8.le_iff_toNat_le]
  rfl

theorem ofNat_eq {n : Nat} (byte : UInt8) (same : n = byte.toNat) : UInt8.ofNat n = byte := by
  rw [same, UInt8.ofNat_toNat]

theorem utf8EncodeChar_one (ascii : first < 0x80) :
    String.utf8EncodeChar (Char.ofNat first.toNat) = [first] := by
  have small : first.toNat < 128 := UInt8.lt_iff_toNat_lt.mp ascii
  rw [String.utf8EncodeChar.eq_1, val_ofNat (.inl (by omega)), if_pos (by omega), UInt8.ofNat_toNat]

/-- Two bytes that are decoded to a character are its encoding. -/
theorem utf8EncodeChar_two (announced : lead? first = some lead) (within : lead.Admits second)
    (length : lead.following = 1) :
    String.utf8EncodeChar (Char.ofNat (extend lead.bits second)) = [first, second] := by
  rw [Lead.admits_iff] at within
  obtain ⟨_, bits, _, _, _, _⟩ | ⟨other, _⟩ | ⟨other, _⟩ := lead?_cases announced
  · have value : extend lead.bits second =
        (first.toNat - 0xC0) * 64 + (second.toNat - 0x80) := by rw [bits]; rfl
    rw [String.utf8EncodeChar.eq_1, val_ofNat (.inl (by omega)), value, if_neg (by omega),
      if_pos (by omega), ofNat_eq first (by omega), ofNat_eq second (by omega)]
  · omega
  · omega

/-- Three bytes that are decoded to a character are its encoding. The second byte keeps out the
short forms and the surrogates. -/
theorem utf8EncodeChar_three (announced : lead? first = some lead) (within : lead.Admits second)
    (goesOn : continues third = true) (length : lead.following = 2) :
    String.utf8EncodeChar (Char.ofNat (extend (extend lead.bits second) third)) =
      [first, second, third] := by
  rw [Lead.admits_iff] at within
  rw [continues_iff] at goesOn
  obtain ⟨other, _⟩ | ⟨_, bits, _, _, _, _, low, high⟩ | ⟨other, _⟩ := lead?_cases announced
  · omega
  · have value : extend (extend lead.bits second) third =
        ((first.toNat - 0xE0) * 64 + (second.toNat - 0x80)) * 64 + (third.toNat - 0x80) := by
      rw [bits]
      rfl
    have valid : (extend (extend lead.bits second) third).isValidChar := by
      unfold Nat.isValidChar
      omega
    rw [String.utf8EncodeChar.eq_1, val_ofNat valid, value, if_neg (by omega),
      if_neg (by omega), if_pos (by omega), ofNat_eq first (by omega),
      ofNat_eq second (by omega), ofNat_eq third (by omega)]
  · omega

/-- Four bytes that are decoded to a character are its encoding. The second byte keeps out what is
too short or too large. -/
theorem utf8EncodeChar_four (announced : lead? first = some lead) (within : lead.Admits second)
    (goesOn : continues third = true) (ends : continues fourth = true)
    (length : lead.following = 3) :
    String.utf8EncodeChar (Char.ofNat (extend (extend (extend lead.bits second) third) fourth)) =
      [first, second, third, fourth] := by
  rw [Lead.admits_iff] at within
  rw [continues_iff] at goesOn ends
  obtain ⟨other, _⟩ | ⟨other, _⟩ | ⟨_, bits, _, _, _, _, low, high⟩ := lead?_cases announced
  · omega
  · omega
  · have value : extend (extend (extend lead.bits second) third) fourth =
        (((first.toNat - 0xF0) * 64 + (second.toNat - 0x80)) * 64 + (third.toNat - 0x80)) * 64 +
          (fourth.toNat - 0x80) := by
      rw [bits]
      rfl
    have valid : (extend (extend (extend lead.bits second) third) fourth).isValidChar := by
      unfold Nat.isValidChar
      omega
    rw [String.utf8EncodeChar.eq_1, val_ofNat valid, value, if_neg (by omega),
      if_neg (by omega), if_neg (by omega), ofNat_eq first (by omega),
      ofNat_eq second (by omega), ofNat_eq third (by omega),
      ofNat_eq fourth (by omega)]

end Characters

/-- If a character is read first, then its bytes come first. -/
theorem decodeEach_eq_cons {bytes : List UInt8} {c : Char} {later : List (Option Char)}
    (read : decodeEach bytes = some c :: later) :
    ∃ rest, bytes = String.utf8EncodeChar c ++ rest ∧ later = decodeEach rest := by
  have taken {d : Char} {front rest : List UInt8} (spelled : String.utf8EncodeChar d = front)
      (same : some d :: decodeEach rest = some c :: later) :
      ∃ after, front ++ rest = String.utf8EncodeChar c ++ after ∧ later = decodeEach after := by
    obtain ⟨here, behind⟩ := List.cons.inj same
    obtain rfl := Option.some.inj here
    exact ⟨rest, by rw [spelled], behind.symm⟩
  revert read
  fun_cases decodeEach bytes with
  | case2 first rest ascii => exact taken (utf8EncodeChar_one ascii)
  | case6 first _ lead announced second rest within _ length =>
      rw [Bool.not_eq_true] at within
      exact taken (utf8EncodeChar_two announced within length)
  | case9 first _ lead announced second within _ _ third rest goesOn _ length =>
      rw [Bool.not_eq_true] at within
      rw [Bool.not_eq_true', Bool.not_eq_false] at goesOn
      exact taken (utf8EncodeChar_three announced within goesOn length)
  | case12 first _ lead announced second within _ notOne third goesOn _ notTwo fourth rest ends =>
      rw [Bool.not_eq_true] at within
      rw [Bool.not_eq_true', Bool.not_eq_false] at goesOn ends
      have length : lead.following = 3 := by
        rcases lead?_cases announced with ⟨one, _⟩ | ⟨two, _⟩ | ⟨three, _⟩
        · exact absurd one notOne
        · exact absurd two notTwo
        · exact three
      exact taken (utf8EncodeChar_four announced within goesOn ends length)
  | _ => exact nofun

theorem eq_nil_of_decodeEach {bytes : List UInt8} (read : decodeEach bytes = []) : bytes = [] := by
  revert read
  fun_cases decodeEach bytes with
  | case1 => exact fun _ => rfl
  | _ => exact nofun

/-- What is read as characters throughout is the encoding of the characters. -/
theorem decodeEach_eq_map_some_iff {bytes : List UInt8} {text : List Char} :
    decodeEach bytes = text.map some ↔ bytes = encodeChars text := by
  induction text generalizing bytes with
  | nil => exact ⟨eq_nil_of_decodeEach, fun same => by rw [same]; rfl⟩
  | cons c text ih =>
      have split : encodeChars (c :: text) = String.utf8EncodeChar c ++ encodeChars text :=
        List.flatMap_cons
      rw [split, List.map_cons]
      constructor
      · intro read
        obtain ⟨rest, rfl, later⟩ := decodeEach_eq_cons read
        rw [ih.mp later.symm]
      · rintro rfl
        rw [decodeEach_utf8EncodeChar, ih.mpr rfl]

/-- All options are there if they are the values, each of which is there. -/
theorem mapM_id_eq_some_iff {α : Type} {options : List (Option α)} {values : List α} :
    options.mapM id = some values ↔ options = values.map some := by
  induction options generalizing values with
  | nil =>
      rw [List.mapM_nil]
      cases values with
      | nil => exact iff_of_true rfl rfl
      | cons value values => exact iff_of_false nofun nofun
  | cons option options ih =>
      rw [List.mapM_cons]
      cases option with
      | none => cases values <;> exact iff_of_false nofun nofun
      | some value =>
          cases values with
          | nil => cases options.mapM id <;> exact iff_of_false nofun nofun
          | cons other values =>
              rw [List.map_cons, List.cons.injEq, Option.some.injEq, ← ih]
              cases options.mapM id <;> simp

/-- The strict reader accepts the bytes of a text, and reads the text from them. -/
theorem decode?_eq_some_iff {bytes : List UInt8} {text : List Char} :
    decode? bytes = some text ↔ bytes = encodeChars text :=
  mapM_id_eq_some_iff.trans decodeEach_eq_map_some_iff

end ScriptConsole.Utf8
