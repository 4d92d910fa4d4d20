import ScriptConsole.Proofs.Text.Strict

/-! # Reading bytes that may be broken

Bytes are read chunk by chunk (`ScriptConsole.Utf8.Chunk`): the bytes of a character, or bytes of a
broken sequence. No ASCII byte belongs to a longer chunk, so what stands before it and what stands
behind it are read on their own (`ScriptConsole.Utf8.decodeLossy_append_ascii`).
-/

namespace ScriptConsole.Utf8

/-- What comes next is an ASCII byte, if anything does. -/
def LeadsAscii (tail : List UInt8) : Prop :=
  ∀ byte, tail.head? = some byte → byte < 0x80

/-- The bytes start with a chunk that is read as a character or as nothing, whatever ASCII comes
behind them. -/
structure Chunk (bytes chunk more : List UInt8) (read : Option Char) : Prop where
  split : bytes = chunk ++ more
  nonempty : chunk ≠ []
  spelled : ∀ c, read = some c → chunk = String.utf8EncodeChar c
  short : read = none → chunk.length ≤ 3
  reads : ∀ tail, LeadsAscii tail → decodeEach (bytes ++ tail) = read :: decodeEach (more ++ tail)

section Broken

variable {first second third : UInt8} {lead : Lead} {tail : List UInt8}

theorem decodeEach_stray (wide : ¬ first < 0x80) (stray : lead? first = none) :
    decodeEach (first :: tail) = none :: decodeEach tail := by
  rw [decodeEach.eq_def]
  simp only [wide, stray, ↓reduceIte]

/-- A first byte whose sequence breaks off at once is replaced alone. -/
theorem decodeEach_broken_one (wide : ¬ first < 0x80) (announced : lead? first = some lead)
    (broken : ∀ byte, tail.head? = some byte → ¬ lead.Admits byte) :
    decodeEach (first :: tail) = none :: decodeEach tail := by
  cases tail with
  | nil =>
      rw [decodeEach.eq_def]
      simp only [wide, announced, ↓reduceIte]
      rfl
  | cons second rest =>
      have outside := broken second rfl
      rw [Lead.Admits, Bool.not_eq_false] at outside
      rw [decodeEach.eq_def]
      simp only [wide, announced, outside, ↓reduceIte]

/-- A sequence that breaks off behind its second byte is replaced by one character. -/
theorem decodeEach_broken_two (wide : ¬ first < 0x80) (announced : lead? first = some lead)
    (within : lead.Admits second) (longer : lead.following ≠ 1)
    (broken : ∀ byte, tail.head? = some byte → ¬ continues byte = true) :
    decodeEach (first :: second :: tail) = none :: decodeEach tail := by
  unfold Lead.Admits at within
  cases tail with
  | nil =>
      rw [decodeEach.eq_def]
      simp only [wide, announced, within, longer, Bool.false_eq_true, ↓reduceIte]
      rfl
  | cons third rest =>
      rw [decodeEach.eq_def]
      simp only [wide, announced, within, longer, eq_false_of_ne_true (broken third rfl),
        Bool.not_false, Bool.false_eq_true, ↓reduceIte]

/-- A sequence of four that breaks off behind its third byte is replaced by one character. -/
theorem decodeEach_broken_three (wide : ¬ first < 0x80) (announced : lead? first = some lead)
    (within : lead.Admits second) (goesOn : continues third = true) (length : lead.following = 3)
    (broken : ∀ byte, tail.head? = some byte → ¬ continues byte = true) :
    decodeEach (first :: second :: third :: tail) = none :: decodeEach tail := by
  unfold Lead.Admits at within
  cases tail with
  | nil =>
      rw [decodeEach.eq_def]
      simp only [wide, announced, within, goesOn, length, Nat.reduceEqDiff, Bool.not_true,
        Bool.false_eq_true, ↓reduceIte]
      rfl
  | cons fourth rest =>
      rw [decodeEach.eq_def]
      simp only [wide, announced, within, goesOn, length,
        eq_false_of_ne_true (broken fourth rfl), Nat.reduceEqDiff, Bool.not_true, Bool.not_false,
        Bool.false_eq_true, ↓reduceIte]

theorem Lead.not_lt_of_admits (announced : lead? first = some lead) (within : lead.Admits second) :
    ¬ second < 0x80 := by
  rw [Lead.admits_iff] at within
  apply not_lt_of_le
  obtain ⟨_, _, _, _, low, _⟩ | ⟨_, _, _, _, low, _⟩ | ⟨_, _, _, _, low, _⟩ :=
    lead?_cases announced <;> omega

theorem not_lt_of_continues (goesOn : continues first = true) : ¬ first < 0x80 :=
  not_lt_of_le (continues_iff.mp goesOn).1

theorem following_eq_three (announced : lead? first = some lead) (notOne : lead.following ≠ 1)
    (notTwo : lead.following ≠ 2) : lead.following = 3 := by
  rcases lead?_cases announced with ⟨one, _⟩ | ⟨two, _⟩ | ⟨three, _⟩
  · exact absurd one notOne
  · exact absurd two notTwo
  · exact three

end Broken

section Chunks

variable {chunk more : List UInt8}

theorem Chunk.character {c : Char} (spelled : String.utf8EncodeChar c = chunk) (more : List UInt8) :
    Chunk (chunk ++ more) chunk more (some c) where
  split := rfl
  nonempty := spelled ▸ String.utf8EncodeChar_ne_nil
  spelled d same := Option.some.inj same ▸ spelled.symm
  short := nofun
  reads tail _ := by
    rw [← spelled, List.append_assoc, decodeEach_utf8EncodeChar]

theorem Chunk.broken (first : UInt8) (others more : List UInt8) (few : others.length ≤ 2)
    (reads : ∀ tail, LeadsAscii tail →
      decodeEach (first :: others ++ (more ++ tail)) = none :: decodeEach (more ++ tail)) :
    Chunk (first :: others ++ more) (first :: others) more none where
  split := rfl
  nonempty := List.cons_ne_nil _ _
  spelled := nofun
  short _ := Nat.succ_le_succ few
  reads tail ascii := by
    rw [List.append_assoc, reads tail ascii]

/-- What is behind some bytes starts with none of a class if that is so of the bytes that are
left and no ASCII byte is of the class. -/
theorem head?_append_ascii (more : List UInt8) {tail : List UInt8} {class_ : UInt8 → Prop}
    (ascii : LeadsAscii tail) (none : ∀ byte, byte < 0x80 → ¬ class_ byte)
    (head : ∀ byte, more.head? = some byte → ¬ class_ byte) :
    ∀ byte, (more ++ tail).head? = some byte → ¬ class_ byte := by
  cases more with
  | nil => exact fun byte found => none byte (ascii byte found)
  | cons byte more => exact head

theorem exists_head_of_not {bytes : List UInt8} {class_ : UInt8 → Prop}
    (head : ¬ ∀ byte, bytes.head? = some byte → ¬ class_ byte) :
    ∃ byte rest, bytes = byte :: rest ∧ class_ byte := by
  cases bytes with
  | nil => exact absurd nofun head
  | cons byte rest =>
      refine ⟨byte, rest, rfl, Classical.byContradiction fun other => head fun _ found => ?_⟩
      rw [← Option.some.inj found]
      exact other

/-- Bytes that are left start with a chunk. -/
theorem exists_chunk {bytes : List UInt8} (nonempty : bytes ≠ []) :
    ∃ chunk more read, Chunk bytes chunk more read := by
  obtain ⟨first, rest, rfl⟩ := List.exists_cons_of_ne_nil nonempty
  by_cases wide : first < 0x80
  · exact ⟨[first], rest, _, .character (utf8EncodeChar_one wide) rest⟩
  cases announced : lead? first with
  | none =>
      exact ⟨[first], rest, _, .broken first [] rest (Nat.zero_le 2) fun tail _ =>
        decodeEach_stray wide announced⟩
  | some lead =>
      have reject_ascii (byte : UInt8) (ascii : byte < 0x80) : ¬ lead.Admits byte :=
        fun within => Lead.not_lt_of_admits announced within ascii
      by_cases head : ∀ byte, rest.head? = some byte → ¬ lead.Admits byte
      · exact ⟨[first], rest, _, .broken first [] rest (Nat.zero_le 2) fun tail ascii =>
          decodeEach_broken_one wide announced (head?_append_ascii rest ascii reject_ascii head)⟩
      obtain ⟨second, rest, rfl, within⟩ := exists_head_of_not head
      have stop_ascii (byte : UInt8) (ascii : byte < 0x80) : ¬ continues byte = true :=
        fun goesOn => not_lt_of_continues goesOn ascii
      by_cases one : lead.following = 1
      · exact ⟨[first, second], rest, _, .character (utf8EncodeChar_two announced within one) rest⟩
      by_cases head : ∀ byte, rest.head? = some byte → ¬ continues byte = true
      · exact ⟨[first, second], rest, _,
          .broken first [second] rest (Nat.le_succ 1) fun tail ascii =>
            decodeEach_broken_two wide announced within one
              (head?_append_ascii rest ascii stop_ascii head)⟩
      obtain ⟨third, rest, rfl, goesOn⟩ := exists_head_of_not head
      by_cases two : lead.following = 2
      · exact ⟨[first, second, third], rest, _,
          .character (utf8EncodeChar_three announced within goesOn two) rest⟩
      have three := following_eq_three announced one two
      by_cases head : ∀ byte, rest.head? = some byte → ¬ continues byte = true
      · exact ⟨[first, second, third], rest, _,
          .broken first [second, third] rest (Nat.le_refl 2) fun tail ascii =>
            decodeEach_broken_three wide announced within goesOn three
              (head?_append_ascii rest ascii stop_ascii head)⟩
      obtain ⟨fourth, rest, rfl, ends⟩ := exists_head_of_not head
      exact ⟨[first, second, third, fourth], rest, _,
        .character (utf8EncodeChar_four announced within goesOn ends three) rest⟩

/-- What holds of no bytes, and of bytes whose rest behind the first chunk has it, holds of all. -/
theorem chunk_induction {motive : List UInt8 → Prop} (nil : motive [])
    (chunk : ∀ {bytes chunk more read}, Chunk bytes chunk more read → motive more → motive bytes)
    (bytes : List UInt8) : motive bytes := by
  induction length : bytes.length using Nat.strongRecOn generalizing bytes with
  | _ _ ih =>
      by_cases nonempty : bytes = []
      · rw [nonempty]
        exact nil
      obtain ⟨front, more, read, first⟩ := exists_chunk nonempty
      refine chunk first (ih _ ?_ more rfl)
      have positive := List.length_pos_iff.mpr first.nonempty
      rw [← length, first.split, List.length_append]
      omega

theorem Chunk.decodeEach_eq {bytes : List UInt8} {read : Option Char}
    (first : Chunk bytes chunk more read) : decodeEach bytes = read :: decodeEach more := by
  have alone := first.reads [] nofun
  rwa [List.append_nil, List.append_nil] at alone

theorem Chunk.decodeLossy_eq {bytes : List UInt8} {read : Option Char}
    (first : Chunk bytes chunk more read) :
    decodeLossy bytes = read.getD '\uFFFD' :: decodeLossy more := by
  unfold decodeLossy
  rw [first.decodeEach_eq, List.map_cons]

end Chunks

theorem decodeLossy_eq_nil_iff {bytes : List UInt8} : decodeLossy bytes = [] ↔ bytes = [] := by
  unfold decodeLossy
  rw [List.map_eq_nil_iff]
  constructor
  · exact eq_nil_of_decodeEach
  · rintro rfl
    rfl

/-- No more characters are read than there are bytes. -/
theorem length_decodeLossy_le (bytes : List UInt8) : (decodeLossy bytes).length ≤ bytes.length := by
  induction bytes using chunk_induction with
  | nil => exact Nat.le_refl 0
  | @chunk bytes chunk more read first ih =>
      have positive := List.length_pos_iff.mpr first.nonempty
      rw [first.decodeLossy_eq, first.split, List.length_append, List.length_cons]
      omega

/-- Where bytes are broken, what is read takes no fewer bytes than they are. -/
theorem length_le_decodeLossy (bytes : List UInt8) :
    bytes.length ≤ (encodeChars (decodeLossy bytes)).length := by
  induction bytes using chunk_induction with
  | nil => exact Nat.le_refl 0
  | @chunk bytes chunk more read first ih =>
      have split : encodeChars (decodeLossy bytes) =
          String.utf8EncodeChar (read.getD '\uFFFD') ++ encodeChars (decodeLossy more) := by
        rw [first.decodeLossy_eq]
        rfl
      have room : chunk.length ≤ (String.utf8EncodeChar (read.getD '\uFFFD')).length := by
        cases read with
        | none => exact first.short rfl
        | some c => exact Nat.le_of_eq (congrArg _ (first.spelled c rfl))
      rw [first.split, List.length_append, ← first.split, split, List.length_append]
      exact Nat.add_le_add room ih

section Ascii

theorem leadsAscii_nil : LeadsAscii [] :=
  nofun

/-- An ASCII byte cuts what is read. -/
theorem decodeEach_append (front : List UInt8) {tail : List UInt8} (ascii : LeadsAscii tail) :
    decodeEach (front ++ tail) = decodeEach front ++ decodeEach tail := by
  induction front using chunk_induction with
  | nil => rfl
  | chunk first ih => rw [first.reads tail ascii, first.decodeEach_eq, ih, List.cons_append]

theorem lt_of_small {ascii : Char} (small : ascii.toNat < 128) : ascii.toUInt8 < 0x80 := by
  apply lt_of_toNat_lt
  rw [toNat_toUInt8 small]
  exact small

/-- An ASCII character ends whatever sequence is open in front of it, so texts may be cut there. -/
theorem decodeLossy_append_ascii {ascii : Char} (small : ascii.toNat < 128)
    (front rest : List UInt8) :
    decodeLossy (front ++ ascii.toUInt8 :: rest) =
      decodeLossy front ++ ascii :: decodeLossy rest := by
  have byte : ascii.toUInt8 < 0x80 := lt_of_small small
  have leads : LeadsAscii (ascii.toUInt8 :: rest) := fun _ found => Option.some.inj found ▸ byte
  have code : Char.ofNat ascii.toUInt8.toNat = ascii := by
    rw [toNat_toUInt8 small, Char.ofNat_toNat]
  unfold decodeLossy
  rw [decodeEach_append front leads, decodeEach_ascii byte, List.map_append, List.map_cons, code]
  rfl

/-- An ASCII character is read from its byte only. -/
theorem mem_of_mem_decodeLossy {ascii : Char} (small : ascii.toNat < 128) {bytes : List UInt8}
    (member : ascii ∈ decodeLossy bytes) : ascii.toUInt8 ∈ bytes := by
  induction bytes using chunk_induction with
  | nil => contradiction
  | @chunk bytes chunk more read first ih =>
      have alone := first.reads [] leadsAscii_nil
      rw [List.append_nil, List.append_nil] at alone
      unfold decodeLossy at member
      rw [alone, List.map_cons] at member
      rw [first.split, List.mem_append]
      rcases List.mem_cons.mp member with here | later
      · cases read with
        | none =>
            rw [here] at small
            exact absurd small (by decide)
        | some c =>
            obtain rfl : ascii = c := here
            have byte : ascii.toUInt8 = UInt8.ofNat ascii.toNat :=
              UInt8.toNat_inj.mp ((toNat_toUInt8 small).trans (toNat_ofNat_of_lt (by omega)).symm)
            rw [first.spelled ascii rfl, utf8EncodeChar_ascii small, byte]
            exact .inl List.mem_cons_self
      · exact .inr (ih later)

/-- ASCII bytes are read one by one. -/
theorem length_decodeLossy_ascii {bytes : List UInt8} (ascii : ∀ byte ∈ bytes, byte < 0x80) :
    (decodeLossy bytes).length = bytes.length := by
  unfold decodeLossy
  rw [List.length_map]
  induction bytes with
  | nil => rfl
  | cons byte bytes ih =>
      obtain ⟨small, others⟩ := List.forall_mem_cons.mp ascii
      rw [decodeEach_ascii small, List.length_cons, List.length_cons, ih others]

end Ascii

end ScriptConsole.Utf8
