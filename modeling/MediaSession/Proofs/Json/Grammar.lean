import MediaSession.Proofs.Json.Outline
import MediaSession.Proofs.Results

/-!
The grammar of interchange text, in the form in which a text stands in front of a rest. Whatever the grammar allows as
a value is scanned and built as one, to the end of it and however deep it is nested.
-/
namespace MediaSession.Json

namespace Grammar

inductive Blanks : List Char → List Char → Prop where
  | none : Blanks rest rest
  | one (blank : char ∈ [' ', '\n', '\t', '\r']) (more : Blanks text rest) : Blanks (char :: text) rest

def Digit (char : Char) : Prop := '0' ≤ char ∧ char ≤ '9'

instance (char : Char) : Decidable (Digit char) := inferInstanceAs (Decidable (_ ∧ _))

inductive Whole : List Char → Prop where
  | zero : Whole ['0']
  | digits (leading : Digit first) (nonzero : first ≠ '0') (more : ∀ char ∈ others, Digit char) :
      Whole (first :: others)

inductive Fraction : List Char → Prop where
  | none : Fraction []
  | digits (some : digits ≠ []) (all : ∀ char ∈ digits, Digit char) : Fraction ('.' :: digits)

inductive Exponent : List Char → Prop where
  | none : Exponent []
  | digits (marked : mark = 'e' ∨ mark = 'E') (signed : sign ∈ [[], ['-'], ['+']]) (some : digits ≠ [])
      (all : ∀ char ∈ digits, Digit char) : Exponent (mark :: (sign ++ digits))

/-- A number without sign. -/
inductive Magnitude : List Char → Prop where
  | of (whole : Whole first) (fraction : Fraction second) (exponent : Exponent third) :
      Magnitude (first ++ (second ++ third))

/-- What a part of a text is; an element is a value with blanks around it. -/
inductive Part where
  | value
  | element
  | elements
  | member
  | members

inductive Spells : Part → List Char → List Char → Prop where
  | null : Spells .value ('n' :: 'u' :: 'l' :: 'l' :: rest) rest
  | boolTrue : Spells .value ('t' :: 'r' :: 'u' :: 'e' :: rest) rest
  | boolFalse : Spells .value ('f' :: 'a' :: 'l' :: 's' :: 'e' :: rest) rest
  | number (magnitude : Magnitude text) : Spells .value (text ++ rest) rest
  | negative (magnitude : Magnitude text) : Spells .value ('-' :: (text ++ rest)) rest
  | string (spelled : Pieces text pieces rest) : Spells .value ('\x22' :: text) rest
  | emptyList (blanks : Blanks text (']' :: rest)) : Spells .value ('[' :: text) rest
  | list (items : Spells .elements text (']' :: rest)) : Spells .value ('[' :: text) rest
  | emptyRecord (blanks : Blanks text ('\x7d' :: rest)) : Spells .value ('\x7b' :: text) rest
  | record (inside : Spells .members text ('\x7d' :: rest)) : Spells .value ('\x7b' :: text) rest
  | element (before : Blanks text front) (value : Spells .value front back) (behind : Blanks back rest) :
      Spells .element text rest
  | lastElement (item : Spells .element text rest) : Spells .elements text rest
  | elements (item : Spells .element text (',' :: others)) (more : Spells .elements others rest) :
      Spells .elements text rest
  | member (before : Blanks text ('\x22' :: key)) (spelled : Pieces key pieces colon)
      (behind : Blanks colon (':' :: value)) (element : Spells .element value rest) : Spells .member text rest
  | lastMember (one : Spells .member text rest) : Spells .members text rest
  | members (one : Spells .member text (',' :: others)) (more : Spells .members others rest) :
      Spells .members text rest

end Grammar

namespace Token

/-- A text in front of `rest` has these tokens, whatever follows. -/
def Yields (text : List Char) (tokens : List Token) (rest : List Char) : Prop :=
  ∀ more, Scans rest more → Scans text (tokens ++ more)

namespace Yields
variable {text middle rest : List Char} {tokens others : List Token}

theorem nil : Yields rest [] rest := fun _ scans => scans

theorem append (front : Yields text tokens middle) (back : Yields middle others rest) :
    Yields text (tokens ++ others) rest := fun more scans => by
  rw [List.append_assoc]
  exact front _ (back more scans)

theorem step {char : Char} {token : Token} (visible : isSpace char = false)
    (one : Token.step char text = .more token middle) (shorter : middle.length ≤ text.length)
    (yields : Yields middle tokens rest) : Yields (char :: text) (token :: tokens) rest := fun more scans =>
  (yields more scans).step visible one shorter

/-- A token of one character. -/
theorem sign {char : Char} {token : Token} (visible : isSpace char = false)
    (one : Token.step char text = .more token text) (yields : Yields text tokens rest) :
    Yields (char :: text) (token :: tokens) rest := yields.step visible one (Nat.le_refl _)

theorem listClose : Yields (']' :: rest) [.listClose] rest := nil.sign rfl rfl

theorem recordClose : Yields ('\x7d' :: rest) [.recordClose] rest := nil.sign rfl rfl

end Yields

end Token

namespace Grammar

open Token (Piece Scans EndsNumber Yields isDigit)

variable {text middle rest : List Char} {tokens : List Token}

theorem Blanks.yields (blanks : Blanks text rest) : Yields text [] rest := by
  induction blanks with
  | none => exact .nil
  | @one char _ _ blank _ ih =>
    have space : Token.isSpace char = true := by simpa [Token.isSpace, or_assoc] using blank
    exact fun more scans => (ih more scans).blank space

theorem Blanks.endsNumber (blanks : Blanks text rest) (ends : EndsNumber rest) : EndsNumber text := by
  cases blanks with
  | none => exact ends
  | one blank =>
    refine .cons _ ?_
    revert blank
    simp only [List.mem_cons, List.not_mem_nil, or_false]
    rintro (rfl | rfl | rfl | rfl) <;> decide

theorem Blanks.before (blanks : Blanks text middle) (yields : Yields middle tokens rest) : Yields text tokens rest :=
  blanks.yields.append yields

theorem Blanks.behind (blanks : Blanks middle rest) (yields : Yields text tokens middle) : Yields text tokens rest := by
  have both := yields.append blanks.yields
  rwa [List.append_nil] at both

/-- A key and its value, with blanks around the key. -/
theorem yields_member {key colon value : List Char} {name : Option String} (before : Blanks text key)
    (named : Yields key [.text name] colon) (behind : Blanks colon (':' :: value)) (yields : Yields value tokens rest) :
    Yields text (.text name :: .colon :: tokens) rest :=
  before.before (named.append (behind.before (yields.sign rfl rfl)))

theorem Pieces.yields {pieces : List Piece} (spelled : Pieces text pieces rest) :
    Yields ('\x22' :: text) [.text ((Token.joinPieces pieces.reverse []).map String.ofList)] rest :=
  fun _ scans => scans.pieces spelled

theorem Quoted.yields {content : String} (quoted : Quoted content text rest) :
    Yields text [.text (some content)] rest := fun _ scans => scans.quoted quoted

theorem Digit.isDigit {char : Char} (digit : Digit char) : isDigit char = true := by
  simpa [Token.isDigit, Digit] using digit

section
variable {rest : List Char}

theorem Whole.scanWhole {whole : List Char} (form : Whole whole) (stops : ∀ char ∈ rest.head?, isDigit char = false) :
    ∃ digits, Token.scanWhole (whole ++ rest) = .ok (digits, rest) := by
  cases form with
  | zero => exact ⟨_, Token.scanWhole_digits (List.forall_mem_singleton.mpr rfl) (by decide) stops⟩
  | @digits first others leading nonzero more =>
    have all : ∀ char ∈ first :: others, isDigit char = true :=
      List.forall_mem_cons.mpr ⟨leading.isDigit, fun char listed => (more char listed).isDigit⟩
    exact ⟨_, Token.scanWhole_digits all (fun zero => nonzero zero.1) stops⟩

theorem Fraction.scanFraction {fraction : List Char} (form : Fraction fraction)
    (stops : ∀ char ∈ rest.head?, isDigit char = false ∧ char ≠ '.') :
    ∃ digits, Token.scanFraction (fraction ++ rest) = .ok (digits, rest) := by
  cases form with
  | none => exact ⟨[], Token.scanFraction_none fun char front => (stops char front).2⟩
  | @digits digits some all =>
    have digit : ∀ char ∈ digits, isDigit char = true := fun char listed => (all char listed).isDigit
    have stops : ∀ char ∈ rest.head?, isDigit char = false := fun char front => (stops char front).1
    refine ⟨Token.digitsOf digits, ?_⟩
    rw [List.cons_append, Token.scanFraction, Token.takeWhile_digits digit stops, Token.dropWhile_digits digit stops]
    obtain _ | ⟨first, others⟩ := digits
    · exact absurd rfl some
    · rfl

theorem scanPower_digits {digits : List Char} (some : digits ≠ []) (all : ∀ char ∈ digits, Digit char)
    (downward : Bool) (stops : ∀ char ∈ rest.head?, isDigit char = false) :
    ∃ power, Token.scanPower downward (digits ++ rest) = .ok (power, rest) := by
  have digit : ∀ char ∈ digits, isDigit char = true := fun char listed => (all char listed).isDigit
  unfold Token.scanPower
  rw [Token.takeWhile_digits digit stops, Token.dropWhile_digits digit stops]
  obtain _ | ⟨first, others⟩ := digits
  · exact absurd rfl some
  · exact ⟨_, rfl⟩

theorem Exponent.scanExponent {exponent : List Char} (form : Exponent exponent) (ends : EndsNumber rest) :
    ∃ power, Token.scanExponent (exponent ++ rest) = .ok (power, rest) := by
  have stops : ∀ char ∈ rest.head?, isDigit char = false := fun char front => (ends char front).1
  cases form with
  | none => exact ⟨_, Token.scanExponent_ends ends⟩
  | @digits mark sign digits marked signed some all =>
    have power (downward : Bool) := scanPower_digits some all downward stops
    simp only [List.mem_cons, List.not_mem_nil, or_false] at signed
    obtain rfl | rfl | rfl := signed
    · obtain _ | ⟨first, others⟩ := digits
      · exact absurd rfl some
      · have digit : isDigit first = true := (all first List.mem_cons_self).isDigit
        have unsigned : first ≠ '-' ∧ first ≠ '+' := by
          constructor <;> rintro rfl <;> exact absurd digit (by decide)
        simp only [List.nil_append, List.cons_append, Token.scanExponent, if_pos marked]
        split
        next same => exact absurd (List.cons.inj same).1 unsigned.1
        next same => exact absurd (List.cons.inj same).1 unsigned.2
        next => exact power false
    · simp only [List.cons_append, Token.scanExponent, if_pos marked]
      exact power true
    · simp only [List.cons_append, Token.scanExponent, if_pos marked]
      exact power false

/-- What may follow the digits of a fraction. -/
theorem Exponent.head {exponent : List Char} (form : Exponent exponent) (ends : EndsNumber rest) :
    ∀ char ∈ (exponent ++ rest).head?, isDigit char = false ∧ char ≠ '.' := by
  cases form with
  | none => exact fun char front => ⟨(ends char front).1, (ends char front).2.1⟩
  | digits marked =>
    rintro _ ⟨⟩
    obtain rfl | rfl := marked <;> decide

/-- What may follow the digits in front of a fraction. -/
theorem Fraction.head {fraction : List Char} (form : Fraction fraction)
    (stops : ∀ char ∈ rest.head?, isDigit char = false) : ∀ char ∈ (fraction ++ rest).head?, isDigit char = false := by
  cases form with
  | none => exact stops
  | digits =>
    rintro _ ⟨⟩
    decide

theorem Magnitude.scanNumber {magnitude : List Char} (form : Magnitude magnitude) (negative : Bool)
    (ends : EndsNumber rest) : ∃ literal, Token.scanNumber negative (magnitude ++ rest) = .ok (literal, rest) := by
  obtain ⟨whole, fraction, exponent⟩ := form
  have behind := exponent.head ends
  obtain ⟨leading, scannedWhole⟩ := whole.scanWhole (fraction.head fun char front => (behind char front).1)
  obtain ⟨digits, scannedFraction⟩ := fraction.scanFraction behind
  obtain ⟨power, scannedPower⟩ := exponent.scanExponent ends
  refine ⟨⟨negative, leading, digits, power⟩, ?_⟩
  rw [List.append_assoc, List.append_assoc]
  exact bind_ok_iff.mpr ⟨_, scannedWhole, bind_ok_iff.mpr ⟨_, scannedFraction, bind_ok_iff.mpr ⟨_, scannedPower, rfl⟩⟩⟩

theorem Magnitude.digit {magnitude : List Char} (form : Magnitude magnitude) :
    ∃ first more, magnitude = first :: more ∧ isDigit first = true := by
  obtain ⟨whole, _, _⟩ := form
  cases whole with
  | zero => exact ⟨'0', _, rfl, rfl⟩
  | digits leading => exact ⟨_, _, rfl, leading.isDigit⟩

theorem Magnitude.yields {magnitude : List Char} (form : Magnitude magnitude) (ends : EndsNumber rest) :
    ∃ literal, Yields (magnitude ++ rest) [.number literal] rest := by
  obtain ⟨literal, scanned⟩ := form.scanNumber false ends
  obtain ⟨first, more, rfl, digit⟩ := form.digit
  refine ⟨literal, .step (Token.isSpace_digit digit) ?_ (List.length_append ▸ Nat.le_add_left ..) .nil⟩
  change Token.step first (more ++ rest) = _
  rw [Token.step_digit digit, ← List.cons_append, scanned]
  rfl

theorem Magnitude.yields_negative {magnitude : List Char} (form : Magnitude magnitude) (ends : EndsNumber rest) :
    ∃ literal, Yields ('-' :: (magnitude ++ rest)) [.number literal] rest := by
  obtain ⟨literal, scanned⟩ := form.scanNumber true ends
  refine ⟨literal, .step rfl ?_ (List.length_append ▸ Nat.le_add_left ..) .nil⟩
  change Token.Step.ofLiteral .number (Token.scanNumber true _) = _
  rw [scanned]
  rfl

end

/-- Tokens build a part of this kind, which can be passed over unread if it is a value. -/
def Part.Builds : Part → List Token → Prop
  | value, tokens | element, tokens => ∃ node : Outline, node.skipFault? = none ∧ Outline.Builds tokens node
  | elements, tokens => ∃ items, Outline.BuildsItems tokens items
  | member, tokens => ∃ entry, Outline.BuildsMember tokens entry
  | members, tokens => ∃ entries, Outline.BuildsMembers tokens entries

/-- What a part yields in front of a text that does not go on with a number. -/
structure Part.Read (part : Part) (text : List Char) (tokens : List Token) (rest : List Char) : Prop where
  yields : Yields text tokens rest
  opens : Outline.Opens tokens
  builds : part.Builds tokens

theorem Part.Read.value {token : Token} {node : Outline} (yields : Yields text (token :: tokens) rest)
    (opens : token ≠ .listClose ∧ token ≠ .recordClose) (unbroken : node.skipFault? = none)
    (builds : Outline.Builds (token :: tokens) node) : Part.value.Read text (token :: tokens) rest :=
  ⟨yields, ⟨token, tokens, rfl, opens⟩, node, unbroken, builds⟩

theorem Part.Read.leaf {token : Token} {node : Outline} (yields : Yields text [token] rest)
    (one : Outline.leaf? token = some node) : Part.value.Read text [token] rest := by
  have known : (token ≠ .listClose ∧ token ≠ .recordClose) ∧ node.skipFault? = none := by
    cases token <;> cases one <;> exact ⟨⟨nofun, nofun⟩, rfl⟩
  exact .value yields known.1 known.2 (.leaf one)

/-- What the grammar allows is scanned and built, to the end of it. -/
theorem Spells.read {part : Part} (spells : Spells part text rest) (ends : EndsNumber rest) :
    ∃ tokens, part.Read text tokens rest := by
  induction spells with
  | null => exact ⟨_, .leaf (fun _ scans => scans.null) rfl⟩
  | boolTrue => exact ⟨_, .leaf (fun _ scans => scans.bool true) rfl⟩
  | boolFalse => exact ⟨_, .leaf (fun _ scans => scans.bool false) rfl⟩
  | number magnitude =>
    obtain ⟨literal, yields⟩ := magnitude.yields ends
    exact ⟨_, .leaf yields rfl⟩
  | negative magnitude =>
    obtain ⟨literal, yields⟩ := magnitude.yields_negative ends
    exact ⟨_, .leaf yields rfl⟩
  | string spelled => exact ⟨_, .leaf spelled.yields rfl⟩
  | emptyList blanks =>
    have yields := blanks.before .listClose
    exact ⟨_, .value (yields.sign rfl rfl) ⟨nofun, nofun⟩ rfl .emptyList⟩
  | list _ ih =>
    obtain ⟨tokens, yields, opens, items, builds⟩ := ih (.cons _ (by decide))
    have closed := yields.append .listClose
    exact ⟨_, .value (closed.sign rfl rfl) ⟨nofun, nofun⟩ rfl (builds.list opens)⟩
  | emptyRecord blanks =>
    have yields := blanks.before .recordClose
    exact ⟨_, .value (yields.sign rfl rfl) ⟨nofun, nofun⟩ rfl .emptyRecord⟩
  | record _ ih =>
    obtain ⟨tokens, yields, opens, entries, builds⟩ := ih (.cons _ (by decide))
    have closed := yields.append .recordClose
    exact ⟨_, .value (closed.sign rfl rfl) ⟨nofun, nofun⟩ rfl (builds.record opens)⟩
  | element before _ behind ih =>
    obtain ⟨tokens, yields, opens, builds⟩ := ih (behind.endsNumber ends)
    exact ⟨tokens, before.before (behind.behind yields), opens, builds⟩
  | lastElement _ ih =>
    obtain ⟨tokens, yields, opens, node, _, builds⟩ := ih ends
    exact ⟨tokens, yields, opens, _, builds.lastItem⟩
  | elements _ _ first others =>
    obtain ⟨tokens, yields, opens, node, _, builds⟩ := first (.cons _ (by decide))
    obtain ⟨more, behind, _, items, rest⟩ := others ends
    exact ⟨_, yields.append (behind.sign rfl rfl), opens.append _, _, builds.consItems rest⟩
  | member before spelled behind _ ih =>
    obtain ⟨tokens, yields, _, node, _, builds⟩ := ih ends
    exact ⟨_, yields_member before spelled.yields behind yields, ⟨_, _, rfl, nofun, nofun⟩, _, builds.asMember _⟩
  | lastMember _ ih =>
    obtain ⟨tokens, yields, opens, entry, builds⟩ := ih ends
    exact ⟨tokens, yields, opens, _, builds.last⟩
  | members _ _ first others =>
    obtain ⟨tokens, yields, opens, entry, builds⟩ := first (.cons _ (by decide))
    obtain ⟨more, behind, _, entries, rest⟩ := others ends
    exact ⟨_, yields.append (behind.sign rfl rfl), opens.append _, _, builds.cons rest⟩

end Grammar

end MediaSession.Json
