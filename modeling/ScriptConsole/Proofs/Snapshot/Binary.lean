import ScriptConsole.Proofs.Text.Strict
import ScriptConsole.Snapshot.Binary

/-! # The binary form of a snapshot is exact

A snapshot is read from bytes if and only if they start with its binary form
(`ScriptConsole.Snapshot.decode_eq_ok_iff`). Every reader of a part is exact in the same way:
it takes the form of a value off the front whatever follows (`Takes`), and it takes nothing
else (`Exact`).
-/

namespace ScriptConsole.Snapshot

section Definitions

/-- How many bytes or elements there can be. -/
def NumberFits (n : Nat) : Prop :=
  n < UInt64.size

instance (n : Nat) : Decidable (NumberFits n) :=
  inferInstanceAs (Decidable (n < UInt64.size))

/-- The bytes of a text can be counted. -/
def TextFits (text : String) : Prop :=
  NumberFits (Utf8.encode text).length

instance (text : String) : Decidable (TextFits text) :=
  inferInstanceAs (Decidable (NumberFits (Utf8.encode text).length))

/-- The texts of a field are short enough. -/
structure FieldFits (field : FieldSnapshot) : Prop where
  name : TextFits field.name
  index : ∀ text, field.index = some text → TextFits text
  value : TextFits field.value

/-- The elements of a list can be counted, and each of them fits. -/
structure ListFits {α : Type} (Fits : α → Prop) (values : List α) : Prop where
  count : NumberFits values.length
  each : ∀ value ∈ values, Fits value

/-- All texts and lists in a snapshot are short enough. -/
inductive Fits : Snapshot → Prop
  | intro {className name fields children} (classFits : TextFits className)
    (nameFits : ∀ text, name = some text → TextFits text) (fieldsFit : ListFits FieldFits fields)
    (count : NumberFits children.length) (below : ∀ child ∈ children, Fits child) :
    Fits ⟨className, name, fields, children⟩

variable {α : Type}

/-- Whatever bytes follow, the decoder takes these for a value. -/
def Takes (decoder : Decoder α) (taken : List UInt8) (value : α) : Prop :=
  ∀ rest, decoder (taken ++ rest) = .ok (value, rest)

/-- What the decoder takes is the form of a value that fits. -/
def Exact (decoder : Decoder α) (form : α → List UInt8) (Fits : α → Prop) : Prop :=
  ∀ {bytes value rest}, decoder bytes = .ok (value, rest) → bytes = form value ++ rest ∧ Fits value

/-- The binary form of a list. -/
def encodeList (form : α → List UInt8) (values : List α) : List UInt8 :=
  encodeNumber values.length ++ values.flatMap form

end Definitions

section Steps

variable {α β : Type} {decoder : Decoder α} {next : α → Decoder β}

theorem Takes.bind {first second : List UInt8} {value : α} {result : β}
    (takes : Takes decoder first value) (then_ : Takes (next value) second result) :
    Takes (decoder >>= next) (first ++ second) result := by
  intro rest
  have whole : (decoder >>= next) (first ++ second ++ rest) =
      (decoder (first ++ (second ++ rest))).bind fun read => next read.1 read.2 := by
    rw [List.append_assoc]
    rfl
  rw [whole, takes (second ++ rest)]
  exact then_ rest

theorem takes_pure (value : α) : Takes (pure value) [] value :=
  fun _ => rfl

theorem Takes.return {first : List UInt8} {value : α} (takes : Takes decoder first value)
    (result : α → β) : Takes (do return result (← decoder)) first (result value) := by
  have both : Takes (decoder >>= fun value => pure (result value)) (first ++ []) (result value) :=
    takes.bind (takes_pure (result value))
  rw [List.append_nil] at both
  exact both

/-- What was decoded in two parts was decoded by the first one up to a place in between, and by the
second from there. -/
theorem bind_eq_ok {bytes rest : List UInt8} {result : β}
    (read : (decoder >>= next) bytes = .ok (result, rest)) :
    ∃ value middle,
      decoder bytes = .ok (value, middle) ∧ next value middle = .ok (result, rest) := by
  have whole : (decoder >>= next) bytes =
      (decoder bytes).bind fun read => next read.1 read.2 := rfl
  rw [whole] at read
  cases first : decoder bytes with
  | error fault =>
      rw [first] at read
      contradiction
  | ok state =>
      rw [first] at read
      exact ⟨state.1, state.2, rfl, read⟩

theorem pure_eq_ok {bytes rest : List UInt8} {value result : α}
    (read : (pure value : Decoder α) bytes = .ok (result, rest)) : value = result ∧ bytes = rest :=
  Prod.mk.inj (Except.ok.inj read)

end Steps

section Numbers

theorem length_littleEndian (width n : Nat) : (littleEndian width n).length = width := by
  induction width generalizing n with
  | zero => rfl
  | succ width ih => rw [littleEndian, List.length_cons, ih]

/-- A number that fits in the width comes back from its digits in base 256. -/
theorem ofLittleEndian_littleEndian {width n : Nat} (small : n < Nat.pow 256 width) :
    ofLittleEndian (littleEndian width n) = n := by
  induction width generalizing n with
  | zero => exact (Nat.lt_one_iff.mp small).symm
  | succ width ih =>
      have less : n / 256 < Nat.pow 256 width := by
        rw [Nat.div_lt_iff_lt_mul (by decide)]
        exact small
      have step : ofLittleEndian (littleEndian (width + 1) n) =
          (UInt8.ofNat (n % 256)).toNat + 256 * ofLittleEndian (littleEndian width (n / 256)) := rfl
      rw [step, ih less, Utf8.toNat_ofNat_of_lt (Nat.mod_lt n (by decide))]
      exact Nat.mod_add_div n 256

theorem littleEndian_ofLittleEndian (bytes : List UInt8) :
    littleEndian bytes.length (ofLittleEndian bytes) = bytes := by
  induction bytes with
  | nil => rfl
  | cons byte bytes ih =>
      have small := byte.toNat_lt
      have value : ofLittleEndian (byte :: bytes) = byte.toNat + 256 * ofLittleEndian bytes := rfl
      have low : (byte.toNat + 256 * ofLittleEndian bytes) % 256 = byte.toNat := by omega
      have high : (byte.toNat + 256 * ofLittleEndian bytes) / 256 = ofLittleEndian bytes := by omega
      rw [List.length_cons, littleEndian, value, low, high, ih, UInt8.ofNat_toNat]

theorem ofLittleEndian_lt (bytes : List UInt8) :
    ofLittleEndian bytes < Nat.pow 256 bytes.length := by
  induction bytes with
  | nil => exact Nat.one_pos
  | cons byte bytes ih =>
      have small := byte.toNat_lt
      have value : ofLittleEndian (byte :: bytes) = byte.toNat + 256 * ofLittleEndian bytes := rfl
      have power : Nat.pow 256 (byte :: bytes).length = Nat.pow 256 bytes.length * 256 := rfl
      omega

theorem takes_takeBytes (bytes : List UInt8) : Takes (takeBytes bytes.length) bytes bytes := by
  intro rest
  unfold takeBytes
  rw [List.take_left, List.drop_left, if_neg (Nat.lt_irrefl _)]

/-- Bytes that were taken are the front of what was there, and as many as were asked for. -/
theorem takeBytes_eq_ok {count : Nat} {bytes taken rest : List UInt8}
    (read : takeBytes count bytes = .ok (taken, rest)) :
    bytes = taken ++ rest ∧ taken.length = count := by
  unfold takeBytes at read
  dsimp only at read
  split at read
  next => contradiction
  next enough =>
    obtain ⟨rfl, rfl⟩ := Prod.mk.inj (Except.ok.inj read)
    refine ⟨(List.take_append_drop count bytes).symm, ?_⟩
    exact Nat.le_antisymm (List.length_take_le count bytes) (Nat.le_of_not_lt enough)

theorem takes_number {n : Nat} (fits : NumberFits n) : Takes decodeNumber (encodeNumber n) n := by
  have taken := takes_takeBytes (encodeNumber n)
  have long : (encodeNumber n).length = numberWidth := length_littleEndian numberWidth n
  rw [long] at taken
  have number := taken.return ofLittleEndian
  rw [encodeNumber, ofLittleEndian_littleEndian fits] at number
  exact number

theorem exact_number : Exact decodeNumber encodeNumber NumberFits := by
  intro bytes n rest read
  obtain ⟨taken, middle, first, last⟩ := bind_eq_ok read
  obtain ⟨rfl, rfl⟩ := pure_eq_ok last
  obtain ⟨rfl, long⟩ := takeBytes_eq_ok first
  have again := littleEndian_ofLittleEndian taken
  have bound := ofLittleEndian_lt taken
  rw [long] at again bound
  exact ⟨congrArg (· ++ middle) again.symm, bound⟩

end Numbers

section Texts

/-- What the reader of a text does with the bytes that it took. -/
def readChars (taken : List UInt8) : Decoder String :=
  match Utf8.decode? taken with
  | some text => return String.ofList text
  | none => throw .malformedText

theorem decodeText_eq :
    decodeText = decodeNumber >>= fun count => takeBytes count >>= readChars :=
  rfl

/-- A text comes back from its length and its bytes, whatever follows them. -/
theorem takes_text {text : String} (fits : TextFits text) :
    Takes decodeText (encodeText text) text := by
  have decoded : Takes (readChars (Utf8.encode text)) [] text := by
    have back : Utf8.decode? (Utf8.encode text) = some text.toList :=
      Utf8.decode?_eq_some_iff.mpr rfl
    unfold readChars
    rw [back]
    dsimp only
    rw [String.ofList_toList]
    exact takes_pure text
  have both := (takes_takeBytes (Utf8.encode text)).bind decoded
  rw [List.append_nil] at both
  rw [decodeText_eq]
  exact (takes_number fits).bind both

/-- What decodes to a text is its length and its bytes: no other bytes of the length are the
encoding of the same characters. -/
theorem exact_text : Exact decodeText encodeText TextFits := by
  intro bytes text rest read
  rw [decodeText_eq] at read
  obtain ⟨count, front, counted, read⟩ := bind_eq_ok read
  obtain ⟨taken, middle, first, last⟩ := bind_eq_ok read
  obtain ⟨rfl, fits⟩ := exact_number counted
  obtain ⟨rfl, rfl⟩ := takeBytes_eq_ok first
  unfold readChars at last
  cases decoded : Utf8.decode? taken with
  | none =>
    rw [decoded] at last
    contradiction
  | some chars =>
    rw [decoded] at last
    obtain ⟨rfl, rfl⟩ := pure_eq_ok last
    have bytes : taken = Utf8.encode (String.ofList chars) := by
      rw [Utf8.decode?_eq_some_iff.mp decoded, Utf8.encode, String.toList_ofList]
    rw [bytes] at fits ⊢
    exact ⟨(List.append_assoc _ _ _).symm, fits⟩

theorem takes_option {name : Option String} (fits : ∀ text, name = some text → TextFits text) :
    Takes decodeOption (encodeOption name) name := by
  cases name with
  | none => exact fun _ => rfl
  | some text =>
      have tag : Takes decodePresence [1] true := fun _ => rfl
      exact tag.bind ((takes_text (fits text rfl)).return some)

/-- What decodes to a text that may be missing is its tag, and behind a tag of one the text. -/
theorem exact_option :
    Exact decodeOption encodeOption fun name => ∀ text, name = some text → TextFits text := by
  intro bytes name rest read
  unfold decodeOption at read
  obtain ⟨present, middle, first, last⟩ := bind_eq_ok read
  clear read
  cases bytes with
  | nil => contradiction
  | cons tag bytes =>
      unfold decodePresence at first
      dsimp only at first
      split at first
      next zero =>
        obtain ⟨rfl, rfl⟩ := Prod.mk.inj (Except.ok.inj first)
        obtain ⟨rfl, rfl⟩ := pure_eq_ok last
        exact ⟨congrArg (· :: bytes) zero, nofun⟩
      next =>
        split at first
        next one =>
          obtain ⟨rfl, rfl⟩ := Prod.mk.inj (Except.ok.inj first)
          rw [if_pos rfl] at last
          obtain ⟨text, middle, read, same⟩ := bind_eq_ok last
          obtain ⟨rfl, rfl⟩ := pure_eq_ok same
          obtain ⟨rfl, fits⟩ := exact_text read
          refine ⟨by rw [one]; rfl, ?_⟩
          rintro text ⟨rfl⟩
          exact fits
        next => contradiction

theorem takes_field {field : FieldSnapshot} (fits : FieldFits field) :
    Takes decodeField (encodeField field) field := by
  unfold decodeField encodeField
  rw [List.append_assoc]
  refine (takes_text fits.name).bind ((takes_option fits.index).bind ?_)
  exact (takes_text fits.value).return (FieldSnapshot.mk field.name field.index)

/-- What decodes to a field is its name, its index and its value, in this order. -/
theorem exact_field : Exact decodeField encodeField FieldFits := by
  intro bytes field rest read
  unfold decodeField at read
  obtain ⟨name, behind, readName, read⟩ := bind_eq_ok read
  obtain ⟨index, after, readIndex, read⟩ := bind_eq_ok read
  obtain ⟨value, last, readValue, same⟩ := bind_eq_ok read
  obtain ⟨rfl, rfl⟩ := pure_eq_ok same
  obtain ⟨rfl, nameFits⟩ := exact_text readName
  obtain ⟨rfl, indexFits⟩ := exact_option readIndex
  obtain ⟨rfl, valueFits⟩ := exact_text readValue
  refine ⟨?_, nameFits, indexFits, valueFits⟩
  unfold encodeField
  rw [List.append_assoc, List.append_assoc]

end Texts

section Lists

variable {α : Type} {element : Decoder α} {form : α → List UInt8} {Fits : α → Prop}

theorem takes_many {values : List α} (takes : ∀ value ∈ values, Takes element (form value) value) :
    Takes (decodeMany element values.length) (values.flatMap form) values := by
  induction values with
  | nil => exact takes_pure []
  | cons value values ih =>
      obtain ⟨first, others⟩ := List.forall_mem_cons.mp takes
      rw [List.flatMap_cons]
      exact first.bind ((ih others).return (value :: ·))

/-- What decodes to so many elements are the forms of the elements, one behind the other. -/
theorem exact_many (exact_ : Exact element form Fits) (count : Nat) :
    Exact (decodeMany element count) (List.flatMap form)
      fun values => values.length = count ∧ ∀ value ∈ values, Fits value := by
  induction count with
  | zero =>
      intro bytes values rest read
      obtain ⟨rfl, rfl⟩ := pure_eq_ok read
      exact ⟨rfl, rfl, fun _ member => absurd member List.not_mem_nil⟩
  | succ count ih =>
      intro bytes values rest read
      unfold decodeMany at read
      obtain ⟨value, middle, first, read⟩ := bind_eq_ok read
      obtain ⟨others, last, later, same⟩ := bind_eq_ok read
      obtain ⟨rfl, rfl⟩ := pure_eq_ok same
      obtain ⟨rfl, fits⟩ := exact_ first
      obtain ⟨rfl, rfl, each⟩ := ih later
      refine ⟨?_, rfl, List.forall_mem_cons.mpr ⟨fits, each⟩⟩
      rw [List.flatMap_cons, List.append_assoc]

theorem takes_list {values : List α} (fits : NumberFits values.length)
    (takes : ∀ value ∈ values, Takes element (form value) value) :
    Takes (decodeList element) (encodeList form values) values := by
  unfold decodeList encodeList
  refine (takes_number fits).bind ?_
  exact takes_many takes

theorem exact_list (exact_ : Exact element form Fits) :
    Exact (decodeList element) (encodeList form) (ListFits Fits) := by
  intro bytes values rest read
  unfold decodeList at read
  obtain ⟨count, middle, counted, read⟩ := bind_eq_ok read
  obtain ⟨number, fits⟩ := exact_number counted
  obtain ⟨list, long, each⟩ := exact_many exact_ count read
  rw [← long] at number fits
  refine ⟨?_, fits, each⟩
  rw [number, list, encodeList, List.append_assoc]

end Lists

section Snapshots

theorem encodeAll_eq (snapshots : List Snapshot) :
    encodeAll snapshots = snapshots.flatMap encode := by
  induction snapshots with
  | nil => rfl
  | cons snapshot snapshots ih => rw [encodeAll, ih, List.flatMap_cons]

theorem encode_eq (className : String) (name : Option String) (fields : List FieldSnapshot)
    (children : List Snapshot) :
    encode ⟨className, name, fields, children⟩ =
      encodeText className ++ (encodeOption name ++
        (encodeList encodeField fields ++ encodeList encode children)) := by
  rw [encode, encodeAll_eq, List.append_assoc, List.append_assoc, List.append_assoc]
  rfl

theorem encodeOption_ne_nil (name : Option String) : encodeOption name ≠ [] := by
  cases name <;> exact nofun

/-- The form of a child is a proper part of the form of the snapshot. -/
theorem length_encode_lt {className : String} {name : Option String} {fields : List FieldSnapshot}
    {children : List Snapshot} {child : Snapshot} (member : child ∈ children) :
    (encode child).length < (encode ⟨className, name, fields, children⟩).length := by
  have part : (encode child).length ≤ (children.flatMap encode).length := by
    obtain ⟨before, after, rfl⟩ := List.append_of_mem member
    rw [List.flatMap_append, List.flatMap_cons, List.length_append, List.length_append]
    omega
  have tag := List.length_pos_iff.mpr (encodeOption_ne_nil name)
  rw [encode_eq]
  unfold encodeList
  simp only [List.length_append]
  omega

/-- A bound beyond the length of its form does not keep a snapshot from being read. -/
theorem takes_encode {snapshot : Snapshot} (fits : snapshot.Fits) {bound : Nat}
    (enough : (encode snapshot).length < bound) :
    Takes (decodeWithin bound) (encode snapshot) snapshot := by
  induction fits generalizing bound with
  | @intro className name fields children classFits nameFits fieldsFit count below ih =>
      obtain ⟨bound, rfl⟩ := Nat.exists_eq_succ_of_ne_zero (Nat.ne_of_gt (Nat.zero_lt_of_lt enough))
      have each : ∀ child ∈ children, Takes (decodeWithin bound) (encode child) child :=
        fun child member => ih child member
          (Nat.lt_of_lt_of_le (length_encode_lt member) (Nat.le_of_lt_succ enough))
      have fieldsTaken : Takes (decodeList decodeField) (encodeList encodeField fields) fields :=
        takes_list fieldsFit.count fun field member => takes_field (fieldsFit.each field member)
      rw [encode_eq]
      exact (takes_text classFits).bind ((takes_option nameFits).bind
        (fieldsTaken.bind ((takes_list count each).return (Snapshot.mk className name fields))))

/-- What decodes to a snapshot of some depth is its form. The induction is on the depth, as the
children are of less. -/
theorem exact_decodeWithin (bound : Nat) : Exact (decodeWithin bound) encode Fits := by
  induction bound with
  | zero => exact nofun
  | succ bound ih =>
      intro bytes snapshot rest read
      unfold decodeWithin at read
      obtain ⟨className, behind, readClass, read⟩ := bind_eq_ok read
      obtain ⟨name, after, readName, read⟩ := bind_eq_ok read
      obtain ⟨fields, further, readFields, read⟩ := bind_eq_ok read
      obtain ⟨children, last, readChildren, same⟩ := bind_eq_ok read
      obtain ⟨rfl, rfl⟩ := pure_eq_ok same
      obtain ⟨rfl, classFits⟩ := exact_text readClass
      obtain ⟨rfl, nameFits⟩ := exact_option readName
      obtain ⟨rfl, fieldsFit⟩ := exact_list exact_field readFields
      obtain ⟨rfl, childrenFit⟩ := exact_list ih readChildren
      refine ⟨?_, .intro classFits nameFits fieldsFit childrenFit.count childrenFit.each⟩
      rw [encode_eq]
      simp only [List.append_assoc]

/-- A snapshot that is read fits, and its form is what the bytes start with. -/
theorem starts_of_decode {bytes : List UInt8} {snapshot : Snapshot}
    (read : decode bytes = .ok snapshot) : snapshot.Fits ∧ encode snapshot <+: bytes := by
  unfold decode at read
  cases within : decodeWithin (bytes.length + 1) bytes with
  | error fault =>
      rw [within] at read
      contradiction
  | ok result =>
      obtain ⟨value, rest⟩ := result
      rw [within] at read
      obtain rfl : value = snapshot := Except.ok.inj read
      obtain ⟨whole, fits⟩ := exact_decodeWithin _ within
      exact ⟨fits, rest, whole.symm⟩

theorem decode_eq_ok {bytes : List UInt8} {snapshot : Snapshot} (fits : snapshot.Fits)
    (start : encode snapshot <+: bytes) : decode bytes = .ok snapshot := by
  obtain ⟨rest, rfl⟩ := start
  have enough : (encode snapshot).length < (encode snapshot ++ rest).length + 1 := by
    rw [List.length_append]
    omega
  unfold decode
  rw [takes_encode fits enough rest]
  rfl

/-- A snapshot is read from exactly the bytes that start with its form. There is no other such
form, and a part of the form is not read as anything. -/
theorem decode_eq_ok_iff {snapshot : Snapshot} (fits : snapshot.Fits) :
    (∀ bytes, decode bytes = .ok snapshot ↔ encode snapshot <+: bytes) ∧
      (∀ form, (∀ bytes, decode bytes = .ok snapshot ↔ form <+: bytes) → form = encode snapshot) ∧
      ∀ part, part <+: encode snapshot → part ≠ encode snapshot →
        ∃ fault, decode part = .error fault := by
  have read (bytes : List UInt8) : decode bytes = .ok snapshot ↔ encode snapshot <+: bytes :=
    ⟨fun read => (starts_of_decode read).2, decode_eq_ok fits⟩
  refine ⟨read, ?_, ?_⟩
  · intro form reads
    have longer : encode snapshot <+: form := (read form).mp ((reads form).mpr List.prefix_rfl)
    have shorter : form <+: encode snapshot := (reads _).mp ((read _).mpr List.prefix_rfl)
    exact shorter.eq_of_length_le longer.length_le
  · intro part start proper
    cases decoded : decode part with
    | error fault => exact ⟨fault, rfl⟩
    | ok other =>
        -- The other snapshot would be read from the whole form, too.
        obtain ⟨otherFits, within⟩ := starts_of_decode decoded
        have same : Except.ok other = .ok snapshot :=
          (decode_eq_ok otherFits (within.trans start)).symm.trans
            ((read _).mpr List.prefix_rfl)
        obtain rfl := Except.ok.inj same
        exact absurd (start.eq_of_length_le within.length_le) proper

/-- A container with a name, an element of a field and a child. -/
theorem decode_eq_ok_iff_group :
    decode (encode ⟨"SimGroup", some "Box", [⟨"size", some "0", "é"⟩],
        [⟨"ScriptObject", none, [], []⟩]⟩ ++ [1, 2]) =
      .ok ⟨"SimGroup", some "Box", [⟨"size", some "0", "é"⟩], [⟨"ScriptObject", none, [], []⟩]⟩ := by
  have child : Fits ⟨"ScriptObject", none, [], []⟩ :=
    .intro (by decide) nofun ⟨by decide, nofun⟩ (by decide) nofun
  have field : FieldFits ⟨"size", some "0", "é"⟩ :=
    ⟨by decide, fun text same => Option.some.inj same ▸ (by decide : TextFits "0"), by decide⟩
  have group : Fits ⟨"SimGroup", some "Box", [⟨"size", some "0", "é"⟩],
      [⟨"ScriptObject", none, [], []⟩]⟩ :=
    .intro (by decide) (fun text same => Option.some.inj same ▸ (by decide : TextFits "Box"))
      ⟨by decide, List.forall_mem_singleton.mpr field⟩ (by decide)
      (List.forall_mem_singleton.mpr child)
  exact ((decode_eq_ok_iff group).1 _).mpr (List.prefix_append _ _)

end Snapshots

end ScriptConsole.Snapshot
