import Mathlib.Algebra.GroupWithZero.Nat
import Mathlib.Data.List.Basic
import MediaSession.Proofs.Text.Hex

/-!
The written forms of identities. The text form is read back, in either case, from texts of thirty-two digits and from
nothing else, and it keeps the order of identities; the first fault of any other text is known beforehand. The binary
form is read back whenever its length says sixteen.
-/
namespace MediaSession.PlacementId

open Text

theorem textBytes_eq (text : String) : textBytes text = text.toByteArray.data.toList := by
  have whole : text.toByteArray = text.toList.utf8Encode := by
    rw [← String.toByteArray_ofList, String.ofList_toList]
  simp [textBytes, whole, List.utf8Encode]

theorem length_textBytes (text : String) : (textBytes text).length = text.utf8ByteSize := by
  rw [textBytes_eq]
  rfl

theorem utf8EncodeChar_of_isDigit {char : Char} (isDigit : Hex.IsDigit char.toNat) :
    String.utf8EncodeChar char = [char.toUInt8] := by
  have ascii : char.val.toNat ≤ 0x7f := Nat.le_of_lt_succ isDigit.lt
  rw [String.utf8EncodeChar, if_pos ascii]
  rfl

theorem toNat_toUInt8_of_isDigit {char : Char} (isDigit : Hex.IsDigit char.toNat) :
    char.toUInt8.toNat = char.toNat := by
  have small := isDigit.lt
  simp only [Char.toUInt8, UInt32.toNat_toUInt8, Char.toNat] at small ⊢
  omega

/-- A character beyond ASCII has no digit for its first byte. -/
theorem isDigit_of_utf8EncodeChar {char : Char}
    (digits : ∀ byte ∈ String.utf8EncodeChar char, Hex.IsDigit byte.toNat) : Hex.IsDigit char.toNat := by
  rw [String.utf8EncodeChar] at digits
  by_cases ascii : char.val.toNat ≤ 0x7f
  · have whole : (UInt8.ofNat char.val.toNat).toNat = char.val.toNat := by
      rw [UInt8.toNat_ofNat', Nat.mod_eq_of_lt (by omega)]
    rw [if_pos ascii, List.forall_mem_singleton, whole] at digits
    exact digits
  · rw [if_neg ascii] at digits
    split at digits
    · have first := (digits _ List.mem_cons_self).lt
      rw [UInt8.toNat_ofNat'] at first
      omega
    · split at digits
      · have first := (digits _ List.mem_cons_self).lt
        rw [UInt8.toNat_ofNat'] at first
        omega
      · have first := (digits _ List.mem_cons_self).lt
        rw [UInt8.toNat_ofNat'] at first
        omega

/-- A text has digits for characters as soon as it has digits for bytes. -/
theorem digits_iff (text : String) :
    (∀ byte ∈ textBytes text, Hex.IsDigit byte.toNat) ↔ ∀ char ∈ text.toList, Hex.IsDigit char.toNat := by
  simp only [textBytes, List.mem_flatMap]
  constructor
  · intro digits char member
    exact isDigit_of_utf8EncodeChar fun byte inside => digits byte ⟨char, member, inside⟩
  · intro digits byte inside
    obtain ⟨char, member, written⟩ := inside
    have isDigit := digits char member
    rw [utf8EncodeChar_of_isDigit isDigit, List.mem_singleton] at written
    rw [written, toNat_toUInt8_of_isDigit isDigit]
    exact isDigit

theorem textBytes_of_digits {text : String} (digits : ∀ char ∈ text.toList, Hex.IsDigit char.toNat) :
    textBytes text = text.toList.map Char.toUInt8 := by
  rw [textBytes, List.map_eq_flatMap]
  apply List.flatMap_congr
  intro char member
  exact utf8EncodeChar_of_isDigit (digits char member)

/-- The digits of a text in lower case, byte by byte. -/
theorem toList_toLower (text : String) : text.toLower.toList = text.toList.map Char.toLower :=
  (String.toList_map : (text.map Char.toLower).toList = _)

theorem map_toLower_of_digits {text : String} (digits : ∀ char ∈ text.toList, Hex.IsDigit char.toNat) :
    (textBytes text).map (fun byte => (Char.ofNat byte.toNat).toLower) = text.toLower.toList := by
  rw [textBytes_of_digits digits, toList_toLower, List.map_map]
  apply List.map_congr_left
  intro char member
  rw [Function.comp_apply, toNat_toUInt8_of_isDigit (digits char member), Char.ofNat_toNat]

/-- A text that names no identity, with its first fault: an odd number of bytes before any byte that is no digit, and
that before the wrong number of digits. -/
inductive Refused (text : String) : PlacementIdError → Prop where
  | odd (odd : text.utf8ByteSize % 2 = 1) : Refused text (.notHex .oddLength)
  | stray {before after : List UInt8} {byte : UInt8} (even : text.utf8ByteSize % 2 = 0)
      (bytes : textBytes text = before ++ byte :: after) (digits : ∀ other ∈ before, Hex.IsDigit other.toNat)
      (stray : ¬ Hex.IsDigit byte.toNat) : Refused text (.notHex (.strayByte byte before.length))
  | wrongLength (even : text.utf8ByteSize % 2 = 0) (digits : ∀ byte ∈ textBytes text, Hex.IsDigit byte.toNat)
      (other : text.utf8ByteSize ≠ 32) : Refused text (.wrongLength (text.utf8ByteSize / 2))

theorem decode_of_even {text : String} (even : text.utf8ByteSize % 2 = 0) :
    Hex.decode (textBytes text) = Hex.decodePairs 0 (textBytes text) :=
  if_pos (length_textBytes text ▸ even)

/-- Digits of even number are read as bytes, half as many, that are written by the same digits in lower case. -/
theorem decode_of_digits {text : String} (even : text.utf8ByteSize % 2 = 0)
    (digits : ∀ byte ∈ textBytes text, Hex.IsDigit byte.toNat) :
    ∃ bytes, Hex.decode (textBytes text) = .ok bytes ∧ bytes.length = text.utf8ByteSize / 2 ∧
      Hex.encode bytes = text.toLower.toList := by
  have pairs : (textBytes text).length % 2 = 0 := length_textBytes text ▸ even
  obtain ⟨bytes, read, written⟩ := Hex.decodePairs_of_digits 0 pairs digits
  refine ⟨bytes, decode_of_even even ▸ read, ?_, written.trans (map_toLower_of_digits ((digits_iff text).mp digits))⟩
  have lengths := congrArg List.length written
  rw [Hex.length_encode, List.length_map, length_textBytes] at lengths
  omega

theorem ofBytes_of_length {bytes : List UInt8} (fits : bytes.length = 16) : ofBytes bytes = .ok ⟨bytes, fits⟩ :=
  dif_pos fits

theorem ofBytes_of_other {bytes : List UInt8} (wrong : bytes.length ≠ 16) :
    ofBytes bytes = .error (.wrongLength bytes.length) := dif_neg wrong

theorem parse_of_decode {text : String} {bytes : List UInt8} (read : Hex.decode (textBytes text) = .ok bytes) :
    parse text = ofBytes bytes := by
  rw [parse, read]

theorem parse_of_refused {text : String} {error : PlacementIdError} (refused : Refused text error) :
    parse text = .error error := by
  cases refused with
  | odd odd =>
    have uneven : ¬ (textBytes text).length % 2 = 0 := by
      rw [length_textBytes]
      omega
    rw [parse, Hex.decode, if_neg uneven]
  | stray even bytes digits stray =>
    have pairs : (textBytes text).length % 2 = 0 := length_textBytes text ▸ even
    rw [parse, decode_of_even even]
    rw [bytes] at pairs ⊢
    rw [Hex.decodePairs_of_stray 0 pairs digits stray, Nat.zero_add]
  | wrongLength even digits other =>
    obtain ⟨bytes, read, length, _⟩ := decode_of_digits even digits
    rw [parse_of_decode read, ofBytes_of_other (by omega), length]

/-- A text of thirty-two digits names the identity whose text form it is in lower case. -/
theorem parse_of_digits {text : String} (length : text.utf8ByteSize = 32)
    (digits : ∀ byte ∈ textBytes text, Hex.IsDigit byte.toNat) :
    ∃ id, parse text = .ok id ∧ id.toHex = text.toLower := by
  obtain ⟨bytes, read, half, written⟩ := decode_of_digits (by omega) digits
  have fits : bytes.length = 16 := by omega
  refine ⟨⟨bytes, fits⟩, ?_, ?_⟩
  · rw [parse_of_decode read, ofBytes_of_length fits]
  · rw [toHex, written, String.ofList_toList]

theorem exists_split_of_stray {bytes : List UInt8} (some : ¬ ∀ byte ∈ bytes, Hex.IsDigit byte.toNat) :
    ∃ before byte after, bytes = before ++ byte :: after ∧ (∀ other ∈ before, Hex.IsDigit other.toNat) ∧
      ¬ Hex.IsDigit byte.toNat := by
  induction bytes with
  | nil => exact absurd (List.forall_mem_nil _) some
  | cons first rest ih =>
    by_cases isDigit : Hex.IsDigit first.toNat
    · have later : ¬ ∀ byte ∈ rest, Hex.IsDigit byte.toNat := fun all => some (List.forall_mem_cons.mpr ⟨isDigit, all⟩)
      obtain ⟨before, byte, after, same, digits, stray⟩ := ih later
      exact ⟨first :: before, byte, after, by rw [same, List.cons_append],
        List.forall_mem_cons.mpr ⟨isDigit, digits⟩, stray⟩
    · exact ⟨[], first, rest, rfl, List.forall_mem_nil _, isDigit⟩

/-- Every text is made of thirty-two digits or has a first fault. -/
theorem digits_or_refused (text : String) :
    (text.utf8ByteSize = 32 ∧ ∀ byte ∈ textBytes text, Hex.IsDigit byte.toNat) ∨ ∃ error, Refused text error := by
  by_cases odd : text.utf8ByteSize % 2 = 1
  · exact .inr ⟨_, .odd odd⟩
  · have even : text.utf8ByteSize % 2 = 0 := by omega
    by_cases digits : ∀ byte ∈ textBytes text, Hex.IsDigit byte.toNat
    · by_cases length : text.utf8ByteSize = 32
      · exact .inl ⟨length, digits⟩
      · exact .inr ⟨_, .wrongLength even digits length⟩
    · obtain ⟨before, byte, after, bytes, digits, stray⟩ := exists_split_of_stray digits
      exact .inr ⟨_, .stray even bytes digits stray⟩

theorem parse_eq_error_iff {text : String} {error : PlacementIdError} :
    parse text = .error error ↔ Refused text error := by
  constructor
  · intro failed
    cases digits_or_refused text with
    | inl whole =>
      obtain ⟨id, read, _⟩ := parse_of_digits whole.1 whole.2
      rw [read] at failed
      cases failed
    | inr some =>
      obtain ⟨other, refused⟩ := some
      have same := (parse_of_refused refused).symm.trans failed
      cases same
      exact refused
  · exact parse_of_refused

/-- Characters that are digits are bytes, one each. -/
theorem utf8ByteSize_of_digits {text : String} (digits : ∀ char ∈ text.toList, Hex.IsDigit char.toNat) :
    text.utf8ByteSize = text.length := by
  rw [← length_textBytes, textBytes_of_digits digits, List.length_map, String.length_toList]

/-- What names an identity, and that its text form is the text in lower case. -/
theorem parse_eq_ok {text : String} {id : PlacementId} (read : parse text = .ok id) :
    (text.length = 32 ∧ ∀ char ∈ text.toList, Hex.IsDigit char.toNat) ∧ id.toHex = text.toLower := by
  cases digits_or_refused text with
  | inl whole =>
    have digits := (digits_iff text).mp whole.2
    obtain ⟨named, again, written⟩ := parse_of_digits whole.1 whole.2
    cases again.symm.trans read
    exact ⟨⟨utf8ByteSize_of_digits digits ▸ whole.1, digits⟩, written⟩
  | inr some =>
    obtain ⟨error, refused⟩ := some
    cases (parse_of_refused refused).symm.trans read

theorem exists_parse_iff (text : String) :
    (∃ id, parse text = .ok id) ↔ text.length = 32 ∧ ∀ char ∈ text.toList, Hex.IsDigit char.toNat := by
  constructor
  · intro named
    obtain ⟨id, read⟩ := named
    exact (parse_eq_ok read).1
  · intro whole
    have length := (utf8ByteSize_of_digits whole.2).trans whole.1
    obtain ⟨id, read, _⟩ := parse_of_digits length ((digits_iff text).mpr whole.2)
    exact ⟨id, read⟩

theorem toHex_lt_iff (one other : PlacementId) : one.toHex < other.toHex ↔ compare one other = .lt := by
  rw [String.lt_iff, toHex, toHex, String.toList_ofList, String.toList_ofList]
  exact Hex.encode_lt_iff one.bytes other.bytes

theorem compare_toHex (one other : PlacementId) : compare one.toHex other.toHex = compare one other := by
  have less (one other : PlacementId) : compare one.toHex other.toHex = .lt ↔ compare one other = .lt :=
    compareOfLessAndEq_eq_lt.trans (toHex_lt_iff one other)
  cases order : compare one other with
  | lt => exact (less one other).mpr order
  | eq =>
    rw [Std.LawfulEqOrd.compare_eq_iff_eq] at order ⊢
    rw [order]
  | gt =>
    rw [Std.OrientedCmp.gt_iff_lt] at order ⊢
    exact (less other one).mpr order

theorem lengthOf_digits (number first count : Nat) :
    lengthOf ((List.range' first count).map fun place => UInt8.ofNat (number / Nat.pow 256 place)) =
      number / 256 ^ first % 256 ^ count := by
  induction count generalizing first with
  | zero => simp [lengthOf, Nat.mod_one]
  | succ count ih =>
    rw [List.range'_succ, List.map_cons, lengthOf, ih, Nat.pow_succ' (n := count), Nat.mod_mul,
      Nat.div_div_eq_div_mul, ← Nat.pow_succ]
    simp

theorem lengthOf_number {number count : Nat} (small : number < 256 ^ count) :
    lengthOf ((List.range count).map fun place => UInt8.ofNat (number / Nat.pow 256 place)) = number := by
  rw [List.range_eq_range', lengthOf_digits, Nat.pow_zero, Nat.div_one, Nat.mod_eq_of_lt small]

theorem ofNat_injective {first second : Nat} (one : first < 256 ^ 16) (other : second < 256 ^ 16)
    (same : ofNat first = ofNat second) : first = second := by
  have value (number : Nat) (small : number < 256 ^ 16) : lengthOf (ofNat number).bytes = number :=
    lengthOf_number small
  rw [← value first one, ← value second other, same]

theorem length_lengthPrefix (length : Nat) : (lengthPrefix length).length = 8 := by
  rw [lengthPrefix, List.length_map, List.length_range]

theorem toBinary_eq (id : PlacementId) : id.toBinary = lengthPrefix 16 ++ id.bytes := by
  rw [toBinary, id.length_bytes]

/-- The bytes announced are the bytes read. -/
theorem ofBinary_of_announced {payload : List UInt8} (small : payload.length < 256 ^ 8) :
    ofBinary (lengthPrefix payload.length ++ payload) = some (ofBytes payload) := by
  have front := length_lengthPrefix payload.length
  have announced : lengthOf (lengthPrefix payload.length) = payload.length := lengthOf_number small
  rw [ofBinary, List.take_left' front, List.drop_left' front, announced, if_neg, List.take_length]
  rw [List.length_append, front]
  omega

/-- What is read from a text and from a binary form, what is refused and with which fault, and that identities are
ordered as their texts are. -/
theorem forms_read_back :
    (∀ text, (∃ id, parse text = .ok id) ↔ text.length = 32 ∧ ∀ char ∈ text.toList, Hex.IsDigit char.toNat) ∧
    (∀ text id, parse text = .ok id → id.toHex = text.toLower) ∧
    (∀ id : PlacementId, parse id.toHex = .ok id) ∧
    (∀ one other : PlacementId, compare one other = compare one.bytes other.bytes ∧
      compare one.toHex other.toHex = compare one other) ∧
    (∀ text error, parse text = .error error ↔ Refused text error) ∧
    (∀ id : PlacementId, id.toBinary = lengthPrefix 16 ++ id.bytes ∧ ofBinary id.toBinary = some (.ok id)) ∧
    ∀ payload : List UInt8, payload.length < 256 ^ 8 → payload.length ≠ 16 →
      ofBinary (lengthPrefix payload.length ++ payload) = some (.error (.wrongLength payload.length)) := by
  refine ⟨exists_parse_iff, fun text id read => (parse_eq_ok read).2, parse_toHex, fun one other => ?_,
    fun text error => parse_eq_error_iff, fun id => ⟨toBinary_eq id, ?_⟩, fun payload small other => ?_⟩
  · exact ⟨rfl, compare_toHex one other⟩
  · rw [toBinary, ofBinary_of_announced (by simp [id.length_bytes]), ofBytes_of_length id.length_bytes]
  · rw [ofBinary_of_announced small, ofBytes_of_other other]

theorem forms_read_back_trial :
    (∃ id, parse "00112233445566778899AABBCCDDEEff" = .ok id ∧ id.toHex = "00112233445566778899aabbccddeeff") ∧
    parse "0g0" = .error (.notHex .oddLength) ∧ parse "0g" = .error (.notHex (.strayByte 0x67 1)) ∧
    parse "00" = .error (.wrongLength 1) ∧ ofBinary (lengthPrefix 2 ++ [7, 7]) = some (.error (.wrongLength 2)) := by
  obtain ⟨named, lowered, _, _, refused, _, other⟩ := forms_read_back
  have lower : "00112233445566778899AABBCCDDEEff".toLower = "00112233445566778899aabbccddeeff" := by
    rw [← String.toList_inj, toList_toLower]
    decide
  refine ⟨?_, (refused _ _).mpr (.odd (by decide)), ?_, ?_, other [7, 7] (by decide) (by decide)⟩
  · have digits :
        ("00112233445566778899AABBCCDDEEff".toList.all fun char => decide (Hex.IsDigit char.toNat)) = true := by
      decide +kernel
    obtain ⟨id, read⟩ := (named "00112233445566778899AABBCCDDEEff").mpr
      ⟨by decide +kernel, fun char listed => of_decide_eq_true (List.all_eq_true.mp digits char listed)⟩
    exact ⟨id, read, (lowered _ _ read).trans lower⟩
  · exact (refused _ _).mpr (@Refused.stray _ [0x30] [] 0x67 (by decide +kernel) (by decide +kernel)
      (by decide +kernel) (by decide +kernel))
  · exact (refused _ _).mpr (.wrongLength (by decide +kernel) (by decide +kernel) (by decide +kernel))

end MediaSession.PlacementId
