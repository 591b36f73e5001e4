import MediaSession.PlacementId
import MediaSession.Proofs.Results

/-!
Hexadecimal digits that were written are read back, and bytes are ordered as their digits. Of any other bytes, the
reader takes what consists of digits of either case, and else names the first fault.
-/
namespace MediaSession

namespace Text.Hex

theorem high_lt (byte : UInt8) : byte.toNat / 16 < 16 := Nat.div_lt_of_lt_mul byte.toNat_lt

theorem low_lt (byte : UInt8) : byte.toNat % 16 < 16 := Nat.mod_lt _ (by decide)

/-- A digit is a single byte of a text. -/
theorem utf8EncodeChar_digit {value : Nat} (small : value < 16) :
    String.utf8EncodeChar (digit value) = [(digit value).toUInt8] := by
  revert value
  decide

theorem value?_toUInt8_digit {value : Nat} (small : value < 16) :
    value? (digit value).toUInt8.toNat = some value := by
  revert value
  decide

/-- Bytes of a text of digits. -/
theorem flatMap_encode (bytes : List UInt8) :
    (encode bytes).flatMap String.utf8EncodeChar = (encode bytes).map Char.toUInt8 := by
  induction bytes with
  | nil => rfl
  | cons byte rest ih =>
    rw [encode, List.flatMap_cons, List.flatMap_cons, utf8EncodeChar_digit (high_lt byte),
      utf8EncodeChar_digit (low_lt byte), ih]
    rfl

theorem length_encode (bytes : List UInt8) : (encode bytes).length = 2 * bytes.length := by
  induction bytes with
  | nil => rfl
  | cons byte rest ih =>
    simp only [encode, List.length_cons, ih]
    omega

theorem digitAt_digit {value : Nat} (small : value < 16) (position : Nat) :
    digitAt position (digit value).toUInt8 = .ok value := by
  rw [digitAt, value?_toUInt8_digit small]

theorem decodePairs_encode (bytes : List UInt8) (position : Nat) :
    decodePairs position ((encode bytes).map Char.toUInt8) = .ok bytes := by
  induction bytes generalizing position with
  | nil => rfl
  | cons byte rest ih =>
    refine bind_ok_iff.mpr ⟨_, digitAt_digit (high_lt byte) position, ?_⟩
    refine bind_ok_iff.mpr ⟨_, digitAt_digit (low_lt byte) (position + 1), ?_⟩
    refine bind_ok_iff.mpr ⟨rest, ih (position + 2), ?_⟩
    rw [Nat.div_add_mod, UInt8.ofNat_toNat]
    rfl

theorem decode_encode (bytes : List UInt8) : decode ((encode bytes).map Char.toUInt8) = .ok bytes := by
  unfold decode
  rw [if_pos, decodePairs_encode]
  rw [List.length_map, length_encode, Nat.mul_mod_right]

/-- Code of one of the characters 0 to 9, A to F and a to f. -/
def IsDigit (code : Nat) : Prop :=
  ('0'.toNat ≤ code ∧ code ≤ '9'.toNat) ∨ ('A'.toNat ≤ code ∧ code ≤ 'F'.toNat) ∨
    ('a'.toNat ≤ code ∧ code ≤ 'f'.toNat)

instance (code : Nat) : Decidable (IsDigit code) := inferInstanceAs (Decidable (_ ∨ _))

theorem IsDigit.lt {code : Nat} (isDigit : IsDigit code) : code < 128 := by
  simp only [IsDigit, Char.reduceToNat] at isDigit
  omega

/-- A digit has a value, and the value is written as the same digit in lower case. -/
theorem IsDigit.exists_value {code : Nat} (isDigit : IsDigit code) :
    ∃ value < 16, value? code = some value ∧ digit value = (Char.ofNat code).toLower := by
  have all : ∀ code < 128, IsDigit code →
      ∃ value < 16, value? code = some value ∧ digit value = (Char.ofNat code).toLower := by decide
  exact all code isDigit.lt isDigit

theorem value?_of_stray {code : Nat} (stray : ¬ IsDigit code) : value? code = none := by
  simp only [IsDigit, Char.reduceToNat, not_or] at stray
  rw [value?, if_neg (by omega), if_neg (by omega), if_neg (by omega)]

theorem digitAt_of_isDigit {byte : UInt8} (isDigit : IsDigit byte.toNat) (position : Nat) :
    ∃ value < 16, digitAt position byte = .ok value ∧ digit value = (Char.ofNat byte.toNat).toLower := by
  obtain ⟨value, small, read, written⟩ := isDigit.exists_value
  exact ⟨value, small, by rw [digitAt, read], written⟩

theorem digitAt_of_stray {byte : UInt8} (stray : ¬ IsDigit byte.toNat) (position : Nat) :
    digitAt position byte = .error (.strayByte byte position) := by
  rw [digitAt, value?_of_stray stray]

theorem encode_cons {upper lower : Nat} (high : upper < 16) (low : lower < 16) (bytes : List UInt8) :
    encode (UInt8.ofNat (16 * upper + lower) :: bytes) = digit upper :: digit lower :: encode bytes := by
  have whole : (UInt8.ofNat (16 * upper + lower)).toNat = 16 * upper + lower := by
    rw [UInt8.toNat_ofNat', Nat.mod_eq_of_lt (by omega)]
  have upperHalf : (16 * upper + lower) / 16 = upper := by omega
  have lowerHalf : (16 * upper + lower) % 16 = lower := by omega
  rw [encode, whole, upperHalf, lowerHalf]

/-- Pairs of digits are read as bytes that are written with the same digits in lower case. -/
theorem decodePairs_of_digits {text : List UInt8} (position : Nat) (even : text.length % 2 = 0)
    (digits : ∀ byte ∈ text, IsDigit byte.toNat) :
    ∃ bytes, decodePairs position text = .ok bytes ∧
      encode bytes = text.map fun byte => (Char.ofNat byte.toNat).toLower := by
  induction position, text using decodePairs.induct with
  | case1 position high low rest ih =>
    simp only [List.forall_mem_cons] at digits
    obtain ⟨upper, above, readHigh, writtenHigh⟩ := digitAt_of_isDigit digits.1 position
    obtain ⟨lower, below, readLow, writtenLow⟩ := digitAt_of_isDigit digits.2.1 (position + 1)
    obtain ⟨bytes, read, written⟩ := ih (by simpa [Nat.add_assoc] using even) digits.2.2
    refine ⟨UInt8.ofNat (16 * upper + lower) :: bytes, ?_, ?_⟩
    · exact bind_ok_iff.mpr ⟨upper, readHigh, bind_ok_iff.mpr ⟨lower, readLow, bind_ok_iff.mpr ⟨bytes, read, rfl⟩⟩⟩
    · rw [encode_cons above below, writtenHigh, writtenLow, written]
      rfl
  | case2 text position short =>
    cases text with
    | nil => exact ⟨[], rfl, rfl⟩
    | cons byte rest =>
      cases rest with
      | nil => simp at even
      | cons next rest => exact absurd rfl (short byte next rest)

/-- The first byte that is no digit is named with its place. -/
theorem decodePairs_of_stray {before after : List UInt8} {byte : UInt8} (position : Nat)
    (even : (before ++ byte :: after).length % 2 = 0) (digits : ∀ other ∈ before, IsDigit other.toNat)
    (stray : ¬ IsDigit byte.toNat) :
    decodePairs position (before ++ byte :: after) = .error (.strayByte byte (position + before.length)) := by
  match before with
  | [] =>
    cases after with
    | nil => simp at even
    | cons low rest => exact bind_error_iff.mpr (.inl (digitAt_of_stray stray position))
  | [high] =>
    obtain ⟨upper, _, read, _⟩ := digitAt_of_isDigit (digits high List.mem_cons_self) position
    exact bind_error_iff.mpr (.inr ⟨upper, read, bind_error_iff.mpr (.inl (digitAt_of_stray stray (position + 1)))⟩)
  | high :: low :: rest =>
    simp only [List.forall_mem_cons] at digits
    obtain ⟨upper, _, readHigh, _⟩ := digitAt_of_isDigit digits.1 position
    obtain ⟨lower, _, readLow, _⟩ := digitAt_of_isDigit digits.2.1 (position + 1)
    have evenRest : (rest ++ byte :: after).length % 2 = 0 := by
      simp only [List.length_append, List.length_cons] at even ⊢
      omega
    have place : position + (high :: low :: rest).length = position + 2 + rest.length := by
      simp only [List.length_cons]
      omega
    have later := decodePairs_of_stray (position + 2) evenRest digits.2.2 stray
    refine bind_error_iff.mpr (.inr ⟨upper, readHigh, bind_error_iff.mpr (.inr ⟨lower, readLow, ?_⟩)⟩)
    rw [place]
    exact bind_error_iff.mpr (.inl later)

theorem digit_lt_iff {one other : Nat} (small : one < 16) (less : other < 16) :
    digit one < digit other ↔ one < other := by
  have all : ∀ one < 16, ∀ other < 16, digit one < digit other ↔ one < other := by decide
  exact all one small other less

theorem digit_inj {one other : Nat} (small : one < 16) (less : other < 16) :
    digit one = digit other ↔ one = other := by
  have all : ∀ one < 16, ∀ other < 16, digit one = digit other ↔ one = other := by decide
  exact all one small other less

/-- Bytes are ordered as their digits are. -/
theorem encode_lt_iff (one other : List UInt8) : encode one < encode other ↔ compare one other = .lt := by
  induction one generalizing other with
  | nil => cases other <;> simp [encode]
  | cons first rest ih =>
    cases other with
    | nil => simp [encode]
    | cons second others =>
      rw [encode, encode, List.cons_lt_cons_iff, List.cons_lt_cons_iff, digit_lt_iff (high_lt first) (high_lt second),
        digit_inj (high_lt first) (high_lt second), digit_lt_iff (low_lt first) (low_lt second),
        digit_inj (low_lt first) (low_lt second), ih, List.compare_cons_cons, Ordering.then_eq_lt]
      have less : compare first second = .lt ↔ first.toNat < second.toNat := by
        rw [Std.compare_eq_lt, UInt8.lt_iff_toNat_lt]
      have same : compare first second = .eq ↔ first.toNat = second.toNat := by
        rw [Std.LawfulEqOrd.compare_eq_iff_eq, UInt8.toNat_inj]
      rw [less, same]
      by_cases tail : compare rest others = .lt
      · simp only [tail, and_true]
        omega
      · simp only [tail, and_false, or_false]
        omega

end Text.Hex

namespace PlacementId

open Text

/-- The full text form names its identity. -/
theorem parse_toHex (id : PlacementId) : parse id.toHex = .ok id := by
  have bytes : textBytes id.toHex = (Hex.encode id.bytes).map Char.toUInt8 := by
    rw [textBytes, toHex, String.toList_ofList, Hex.flatMap_encode]
  rw [parse, bytes, Hex.decode_encode]
  exact dif_pos id.length_bytes

end PlacementId

end MediaSession
