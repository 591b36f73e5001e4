import Mathlib.Data.Nat.Digits.Defs
import MediaSession.Proofs.Json.Spelling

/-!
Scanning of what is written. Both forms of a value have the same tokens, for blanks stand between tokens only; what
the tokens hold is what was written.
-/
namespace MediaSession

/-- The first digit of a number is no zero unless it is the only one. -/
theorem toDigits_leading {number : Nat} {first : Char} {more : List Char}
    (digits : Nat.toDigits 10 number = first :: more) : ¬ (first = '0' ∧ more ≠ []) := by
  induction number using Nat.strongRecOn generalizing first more with
  | ind number ih =>
    by_cases small : number < 10
    · rw [Nat.toDigits_of_lt_base small] at digits
      obtain ⟨-, rfl⟩ := List.cons.inj digits
      exact fun leading => leading.2 rfl
    · rw [Nat.toDigits_of_base_le (by decide) (Nat.le_of_not_lt small)] at digits
      cases upper : Nat.toDigits 10 (number / 10) with
      | nil => exact absurd upper Nat.toDigits_ne_nil
      | cons leading others =>
        rw [upper, List.cons_append] at digits
        obtain ⟨rfl, -⟩ := List.cons.inj digits
        rintro ⟨rfl, -⟩
        have alone : others = [] := by
          by_contra some
          exact ih _ (by omega) upper ⟨rfl, some⟩
        have zero : Nat.ofDigitChars 10 (Nat.toDigits 10 (number / 10)) 0 = 0 := by rw [upper, alone]; rfl
        rw [Nat.ofDigitChars_ten_toDigits] at zero
        omega

namespace Numeral

theorem ofDigits_toDigits (number : Nat) :
    ofDigits ((Nat.toDigits 10 number).map fun digit => digit.toNat - 48) = number := by
  rw [ofDigits, List.foldl_map]
  exact Nat.ofDigitChars_ten_toDigits

/-- An integer of 64 bits is the value of its literal. -/
theorem integer?_ofInt {value : Int} (lower : -0x8000000000000000 ≤ value)
    (upper : value ≤ 0xFFFFFFFFFFFFFFFF) : (ofInt value).integer? = some value := by
  unfold integer? ofInt
  simp only [ofDigits_toDigits, ne_eq, not_true_eq_false, or_self, if_false, decide_eq_true_eq]
  by_cases negative : value < 0
  · rw [if_pos negative, if_pos (by omega)]
    exact congrArg some (by omega)
  · rw [if_neg negative, if_pos (by omega)]
    exact congrArg some (by omega)

end Numeral

namespace Json

theorem Value.integerText_natCast (number : Nat) (rest : List Char) :
    integerText number rest = Nat.toDigits 10 number ++ rest :=
  congrArg (· ++ rest) String.toList_ofList

namespace Token

theorem isDigit_of_mem_toDigits {number : Nat} {digit : Char} (written : digit ∈ Nat.toDigits 10 number) :
    isDigit digit = true :=
  Nat.isDigit_of_mem_toDigits (by decide) (by decide) written

/-- Nothing that could continue a number stands in front. -/
def EndsNumber (rest : List Char) : Prop :=
  ∀ char ∈ rest.head?, isDigit char = false ∧ char ≠ '.' ∧ char ≠ 'e' ∧ char ≠ 'E'

theorem EndsNumber.nil : EndsNumber [] := nofun

theorem EndsNumber.cons {char : Char} (rest : List Char)
    (ends : isDigit char = false ∧ char ≠ '.' ∧ char ≠ 'e' ∧ char ≠ 'E') : EndsNumber (char :: rest) := by
  rintro _ ⟨⟩
  exact ends

section Number
variable {rest : List Char}

/-- Digits end where no digit stands in front. -/
theorem takeWhile_digits {digits : List Char} (all : ∀ digit ∈ digits, isDigit digit = true)
    (stops : ∀ char ∈ rest.head?, isDigit char = false) : (digits ++ rest).takeWhile isDigit = digits := by
  rw [List.takeWhile_append_of_pos all]
  cases rest with
  | nil => exact List.append_nil _
  | cons char rest => rw [List.takeWhile_cons_of_neg (by simp [stops char rfl]), List.append_nil]

theorem dropWhile_digits {digits : List Char} (all : ∀ digit ∈ digits, isDigit digit = true)
    (stops : ∀ char ∈ rest.head?, isDigit char = false) : (digits ++ rest).dropWhile isDigit = rest := by
  rw [List.dropWhile_append_of_pos all]
  cases rest with
  | nil => rfl
  | cons char rest => exact List.dropWhile_cons_of_neg (by simp [stops char rfl])

/-- Digits are scanned as they stand if there is one, and no zero leads more of them. -/
theorem scanWhole_digits {first : Char} {more : List Char} (all : ∀ digit ∈ first :: more, isDigit digit = true)
    (leading : ¬ (first = '0' ∧ more ≠ [])) (stops : ∀ char ∈ rest.head?, isDigit char = false) :
    scanWhole (first :: more ++ rest) = .ok (digitsOf (first :: more), rest) := by
  unfold scanWhole
  rw [takeWhile_digits all stops, dropWhile_digits all stops]
  exact if_neg leading

theorem scanFraction_none (stops : ∀ char ∈ rest.head?, char ≠ '.') : scanFraction rest = .ok ([], rest) := by
  unfold scanFraction
  split
  · exact absurd rfl (stops _ rfl)
  · rfl

theorem scanExponent_ends (ends : EndsNumber rest) : scanExponent rest = .ok (none, rest) := by
  cases rest with
  | nil => rfl
  | cons char rest =>
    obtain ⟨_, _, lower, upper⟩ := ends char rfl
    exact if_neg (by simp [lower, upper])

/-- The digits of a number are all there is to it. -/
theorem scanNumber_digits (negative : Bool) (number : Nat) (ends : EndsNumber rest) :
    scanNumber negative (Nat.toDigits 10 number ++ rest) =
      .ok ({ negative, whole := digitsOf (Nat.toDigits 10 number) }, rest) := by
  have whole : scanWhole (Nat.toDigits 10 number ++ rest) = .ok (digitsOf (Nat.toDigits 10 number), rest) := by
    cases digits : Nat.toDigits 10 number with
    | nil => exact absurd digits Nat.toDigits_ne_nil
    | cons first more =>
      have all : ∀ digit ∈ first :: more, isDigit digit = true := fun _ listed =>
        isDigit_of_mem_toDigits (digits ▸ listed)
      exact scanWhole_digits all (toDigits_leading digits) fun char front => (ends char front).1
  unfold scanNumber
  rw [whole]
  simp only [bind, Except.bind]
  rw [scanFraction_none fun char front => (ends char front).2.1]
  dsimp only
  rw [scanExponent_ends ends]
  rfl

theorem step_digit {digit : Char} (isDigit : isDigit digit = true) (rest : List Char) :
    step digit rest = .ofLiteral .number (scanNumber false (digit :: rest)) := by
  unfold step
  rw [if_neg, if_neg, if_neg, if_neg, if_neg, if_neg, if_neg, if_neg, if_pos isDigit]
  all_goals
    rintro rfl
    revert isDigit
    decide

theorem isSpace_digit {digit : Char} (isDigit : isDigit digit = true) : isSpace digit = false := by
  unfold isSpace
  simp only [Bool.or_eq_false_iff, decide_eq_false_iff_not]
  refine ⟨⟨⟨?_, ?_⟩, ?_⟩, ?_⟩
  all_goals
    rintro rfl
    revert isDigit
    decide

end Number

/-- A text has these tokens, whatever fuel suffices. -/
def Scans (chars : List Char) (tokens : List Token) : Prop :=
  ∀ fuel done, chars.length < fuel → scanOnto fuel chars done = done.reverse ++ tokens

theorem scan_eq {chars : List Char} {tokens : List Token} (scans : Scans chars tokens) : scan chars = tokens :=
  scans _ [] (Nat.lt_succ_self _)

namespace Scans
variable {char : Char} {rest : List Char} {tokens : List Token}

theorem nil : Scans [] [] := by
  rintro (_ | fuel) done enough
  · cases enough
  · exact (List.append_nil _).symm

theorem blank (space : isSpace char = true) (scans : Scans rest tokens) : Scans (char :: rest) tokens := by
  rintro (_ | fuel) done enough
  · cases enough
  · rw [← scans (fuel + 1) done (Nat.lt_of_succ_lt enough), scanOnto, scanOnto,
      List.dropWhile_cons_of_pos space]

theorem step {token : Token} {left : List Char} (visible : isSpace char = false)
    (one : Token.step char rest = .more token left) (shorter : left.length ≤ rest.length)
    (scans : Scans left tokens) : Scans (char :: rest) (token :: tokens) := by
  rintro (_ | fuel) done enough
  · cases enough
  · have fewer : left.length < fuel := Nat.lt_of_le_of_lt shorter (Nat.lt_of_succ_lt_succ enough)
    rw [scanOnto, List.dropWhile_cons_of_neg (by simp [visible])]
    dsimp only
    rw [one]
    dsimp only
    rw [scans fuel _ fewer, List.reverse_cons, List.append_assoc]
    rfl

theorem pieces {text : List Char} {pieces : List Piece} (spelled : Grammar.Pieces text pieces rest)
    (scans : Scans rest tokens) :
    Scans ('\x22' :: text) (.text ((joinPieces pieces.reverse []).map String.ofList) :: tokens) :=
  step rfl spelled.step spelled.length_le scans

theorem quoted {text : List Char} {content : String} (quoted : Grammar.Quoted content text rest)
    (scans : Scans rest tokens) : Scans text (.text (some content) :: tokens) := by
  obtain ⟨spelled, denotes⟩ := quoted
  exact step rfl (denotes.step spelled) spelled.length_le scans

theorem quote (content : String) (scans : Scans rest tokens) :
    Scans (Value.quote content rest) (.text (some content) :: tokens) := scans.quoted (.quote content rest)

theorem integer (value : Int) (ends : EndsNumber rest) (scans : Scans rest tokens) :
    Scans (Value.integerText value rest) (.number (.ofInt value) :: tokens) := by
  obtain number | below := value
  · have scanned := scanNumber_digits false number ends
    rw [Int.ofNat_eq_natCast, Value.integerText_natCast]
    cases digits : Nat.toDigits 10 number with
    | nil => exact absurd digits Nat.toDigits_ne_nil
    | cons first more =>
      have digit : isDigit first = true := isDigit_of_mem_toDigits (digits ▸ List.mem_cons_self)
      rw [digits] at scanned
      refine step (isSpace_digit digit) ?_ (List.length_append ▸ Nat.le_add_left ..) scans
      change Token.step first (more ++ rest) = _
      rw [step_digit digit, ← List.cons_append, scanned, ← digits]
      rfl
  · have text : (toString (Int.negSucc below)).toList = '-' :: Nat.toDigits 10 (below + 1) := by
      change ("-" ++ (below + 1).repr).toList = _
      rw [String.toList_append, Nat.repr, String.toList_ofList, String.toList_ofList]
      rfl
    have negative : decide (Int.negSucc below < 0) = true := decide_eq_true (Int.negSucc_lt_zero below)
    rw [Value.integerText, text, Numeral.ofInt, negative]
    refine step rfl ?_ (List.length_append ▸ Nat.le_add_left ..) scans
    change Step.ofLiteral .number (scanNumber true (Nat.toDigits 10 (below + 1) ++ rest)) = _
    rw [scanNumber_digits true _ ends]
    rfl

theorem bool (value : Bool) (scans : Scans rest tokens) :
    Scans (Value.boolText value rest) (.bool value :: tokens) := by
  cases value
  · exact step rfl rfl (by simp; omega) scans
  · exact step rfl rfl (by simp; omega) scans

theorem null (scans : Scans rest tokens) : Scans (Value.nullText rest) (.null :: tokens) :=
  step rfl rfl (by simp; omega) scans

theorem newLine (level : Nat) (scans : Scans rest tokens) : Scans (Value.newLine level rest) tokens := by
  refine blank rfl ?_
  induction 2 * level with
  | zero => exact scans
  | succ blanks ih => exact blank rfl ih

end Scans

end Token

namespace Value

open Token (Scans EndsNumber)

mutual

/-- Tokens of a value, in front of `rest`. -/
def tokensTo : Value → List Token → List Token
  | null, rest => .null :: rest
  | bool value, rest => .bool value :: rest
  | integer value, rest => .number (.ofInt value) :: rest
  | text content, rest => .text (some content) :: rest
  | list items, rest => .listOpen :: itemTokens items false (.listClose :: rest)
  | record members, rest => .recordOpen :: memberTokens members false (.recordClose :: rest)

/-- Tokens of items in front of `rest`, each with a comma before it if one went ahead. -/
def itemTokens : List Value → Bool → List Token → List Token
  | [], _, rest => rest
  | item :: items, behind, rest =>
    let shown := tokensTo item (itemTokens items true rest)
    if behind then .comma :: shown else shown

def memberTokens : List (String × Value) → Bool → List Token → List Token
  | [], _, rest => rest
  | (key, value) :: members, behind, rest =>
    let shown := .text (some key) :: .colon :: tokensTo value (memberTokens members true rest)
    if behind then .comma :: shown else shown

end

theorem endsNumber_compactItems {rest : List Char} (items : List Value) (ends : EndsNumber rest) :
    EndsNumber (compactItems items true rest) := by
  cases items with
  | nil => rwa [compactItems]
  | cons item items => exact .cons _ (by decide)

theorem endsNumber_compactMembers {rest : List Char} (members : List (String × Value)) (ends : EndsNumber rest) :
    EndsNumber (compactMembers members true rest) := by
  cases members with
  | nil => rwa [compactMembers]
  | cons member members => exact .cons _ (by decide)

mutual

/-- The tokens of what is written stand in front of those of the rest. -/
theorem scans_compactTo (value : Value) {rest : List Char} {tokens : List Token} (ends : EndsNumber rest)
    (scans : Scans rest tokens) : Scans (value.compactTo rest) (value.tokensTo tokens) := by
  cases value with
  | null => exact scans.null
  | bool value => exact scans.bool value
  | integer value => exact scans.integer value ends
  | text content => exact scans.quote content
  | list items =>
    have close : Scans (']' :: rest) (.listClose :: tokens) := scans.step rfl rfl (Nat.le_refl _)
    exact (scans_compactItems items false (.cons rest (by decide)) close).step rfl rfl (Nat.le_refl _)
  | record members =>
    have close : Scans ('\x7d' :: rest) (.recordClose :: tokens) := scans.step rfl rfl (Nat.le_refl _)
    exact (scans_compactMembers members false (.cons rest (by decide)) close).step rfl rfl (Nat.le_refl _)

theorem scans_compactItems (items : List Value) (behind : Bool) {rest : List Char} {tokens : List Token}
    (ends : EndsNumber rest) (scans : Scans rest tokens) :
    Scans (compactItems items behind rest) (itemTokens items behind tokens) := by
  cases items with
  | nil => exact scans
  | cons item items =>
    have shown := scans_compactTo item (endsNumber_compactItems items ends) (scans_compactItems items true ends scans)
    cases behind
    · exact shown
    · exact shown.step rfl rfl (Nat.le_refl _)

theorem scans_compactMembers (members : List (String × Value)) (behind : Bool) {rest : List Char}
    {tokens : List Token} (ends : EndsNumber rest) (scans : Scans rest tokens) :
    Scans (compactMembers members behind rest) (memberTokens members behind tokens) := by
  cases members with
  | nil => exact scans
  | cons member members =>
    have inner := scans_compactTo member.2 (endsNumber_compactMembers members ends)
      (scans_compactMembers members true ends scans)
    have colon : Scans (':' :: _) (.colon :: _) := inner.step rfl rfl (Nat.le_refl _)
    have shown := colon.quote member.1
    cases behind
    · exact shown
    · exact shown.step rfl rfl (Nat.le_refl _)

end

theorem endsNumber_spaciousItems {rest : List Char} (items : List Value) (level : Nat) (ends : EndsNumber rest) :
    EndsNumber (spaciousItems items true level rest) := by
  cases items with
  | nil => rwa [spaciousItems]
  | cons item items => exact .cons _ (by decide)

theorem endsNumber_spaciousMembers {rest : List Char} (members : List (String × Value)) (level : Nat)
    (ends : EndsNumber rest) : EndsNumber (spaciousMembers members true level rest) := by
  cases members with
  | nil => rwa [spaciousMembers]
  | cons member members => exact .cons _ (by decide)

theorem endsNumber_newLine (level : Nat) (rest : List Char) : EndsNumber (newLine level rest) := .cons _ (by decide)

mutual

theorem scans_spaciousTo (value : Value) (level : Nat) {rest : List Char} {tokens : List Token}
    (ends : EndsNumber rest) (scans : Scans rest tokens) :
    Scans (value.spaciousTo level rest) (value.tokensTo tokens) := by
  cases value with
  | null => exact scans.null
  | bool value => exact scans.bool value
  | integer value => exact scans.integer value ends
  | text content => exact scans.quote content
  | list items =>
    have close : Scans (']' :: rest) (.listClose :: tokens) := scans.step rfl rfl (Nat.le_refl _)
    cases items with
    | nil => exact close.step rfl rfl (Nat.le_refl _)
    | cons item items =>
      have shown := scans_spaciousItems (item :: items) false (level + 1) (endsNumber_newLine level _)
        (close.newLine level)
      exact shown.step rfl rfl (Nat.le_refl _)
  | record members =>
    have close : Scans ('\x7d' :: rest) (.recordClose :: tokens) := scans.step rfl rfl (Nat.le_refl _)
    cases members with
    | nil => exact close.step rfl rfl (Nat.le_refl _)
    | cons member members =>
      have shown := scans_spaciousMembers (member :: members) false (level + 1) (endsNumber_newLine level _)
        (close.newLine level)
      exact shown.step rfl rfl (Nat.le_refl _)

theorem scans_spaciousItems (items : List Value) (behind : Bool) (level : Nat) {rest : List Char}
    {tokens : List Token} (ends : EndsNumber rest) (scans : Scans rest tokens) :
    Scans (spaciousItems items behind level rest) (itemTokens items behind tokens) := by
  cases items with
  | nil => exact scans
  | cons item items =>
    have inner := scans_spaciousTo item level (endsNumber_spaciousItems items level ends)
      (scans_spaciousItems items true level ends scans)
    have shown := inner.newLine level
    cases behind
    · exact shown
    · exact shown.step rfl rfl (Nat.le_refl _)

theorem scans_spaciousMembers (members : List (String × Value)) (behind : Bool) (level : Nat) {rest : List Char}
    {tokens : List Token} (ends : EndsNumber rest) (scans : Scans rest tokens) :
    Scans (spaciousMembers members behind level rest) (memberTokens members behind tokens) := by
  cases members with
  | nil => exact scans
  | cons member members =>
    have inner := scans_spaciousTo member.2 level (endsNumber_spaciousMembers members level ends)
      (scans_spaciousMembers members true level ends scans)
    have colon : Scans (':' :: ' ' :: _) (.colon :: _) := (inner.blank rfl).step rfl rfl (Nat.le_refl _)
    have shown := (colon.quote member.1).newLine level
    cases behind
    · exact shown
    · exact shown.step rfl rfl (Nat.le_refl _)

end

theorem scan_compact (value : Value) : Token.scan value.compact.toList = value.tokensTo [] := by
  rw [compact, String.toList_ofList]
  exact Token.scan_eq (scans_compactTo value .nil .nil)

theorem scan_spacious (value : Value) : Token.scan value.spacious.toList = value.tokensTo [] := by
  rw [spacious, String.toList_ofList]
  exact Token.scan_eq (scans_spaciousTo value 0 .nil .nil)

end Value

end Json

end MediaSession
