import Mathlib.Tactic.Conv
import Mathlib.Tactic.SplitIfs
import MediaSession.Json.Value

/-!
The grammar of strings in interchange text. What the grammar allows is scanned piece by piece and joined to what the
pieces stand for; what is written for a string is in the grammar.
-/
namespace MediaSession.Json

open Text

namespace Grammar

/-- Letters behind a backslash, and the characters they stand for. -/
def escapes : List (Char × Char) :=
  [('\x22', '\x22'), ('\\', '\\'), ('/', '/'), ('b', '\x08'), ('f', '\x0c'), ('n', '\n'), ('r', '\r'), ('t', '\t')]

/-- A hexadecimal digit of either case. -/
def HexDigit (char : Char) (value : Nat) : Prop :=
  value < 16 ∧ (char = Hex.digit value ∨ char = (Hex.digit value).toUpper)

instance (char : Char) (value : Nat) : Decidable (HexDigit char value) := inferInstanceAs (Decidable (_ ∧ _))

/-- A string from behind its opening quote, by its pieces. -/
inductive Pieces : List Char → List Token.Piece → List Char → Prop where
  | close : Pieces ('\x22' :: rest) [] rest
  | plain (visible : ' ' ≤ char) (unquoted : char ≠ '\x22') (unescaped : char ≠ '\\')
      (more : Pieces text pieces rest) : Pieces (char :: text) (.plain char :: pieces) rest
  | letter (listed : (letter, char) ∈ escapes) (more : Pieces text pieces rest) :
      Pieces ('\\' :: letter :: text) (.plain char :: pieces) rest
  | unit (first : HexDigit a i) (second : HexDigit b j) (third : HexDigit c k) (fourth : HexDigit d l)
      (more : Pieces text pieces rest) :
      Pieces ('\\' :: 'u' :: a :: b :: c :: d :: text) (.unit (4096 * i + 256 * j + 16 * k + l) :: pieces) rest

/-- Characters of the pieces of a string; a character beyond the first 65536 code points takes two units. -/
inductive Denotes : List Token.Piece → List Char → Prop where
  | nil : Denotes [] []
  | plain (more : Denotes pieces content) : Denotes (.plain char :: pieces) (char :: content)
  | unit (alone : ¬ (0xD800 ≤ code ∧ code < 0xE000)) (more : Denotes pieces content) :
      Denotes (.unit code :: pieces) (.ofNat code :: content)
  | pair (leading : 0xD800 ≤ lead ∧ lead < 0xDC00) (trailing : 0xDC00 ≤ trail ∧ trail < 0xE000)
      (more : Denotes pieces content) :
      Denotes (.unit lead :: .unit trail :: pieces)
        (.ofNat (0x10000 + (lead - 0xD800) * 0x400 + (trail - 0xDC00)) :: content)

/-- A string with its quotes. -/
inductive Quoted (content : String) : List Char → List Char → Prop where
  | of (spelled : Pieces text pieces rest) (denotes : Denotes pieces content.toList) :
      Quoted content ('\x22' :: text) rest

open Token (Piece)

variable {text rest : List Char}

theorem escaped?_of_mem {letter char : Char} (listed : (letter, char) ∈ escapes) :
    letter ≠ 'u' ∧ Token.escaped? letter = some char := by
  have all : ∀ pair ∈ escapes, pair.1 ≠ 'u' ∧ Token.escaped? pair.1 = some pair.2 := by decide
  exact all _ listed

theorem HexDigit.hexValue? {char : Char} {value : Nat} (digit : HexDigit char value) :
    Token.hexValue? char = some value := by
  have all : ∀ value < 16, Token.hexValue? (Hex.digit value) = some value ∧
      Token.hexValue? (Hex.digit value).toUpper = some value := by decide
  obtain ⟨small, rfl | rfl⟩ := digit
  · exact (all value small).1
  · exact (all value small).2

theorem scanString_letter {letter char : Char} (listed : (letter, char) ∈ escapes) (rest : List Char)
    (pieces : List Piece) :
    Token.scanString ('\\' :: letter :: rest) pieces = Token.scanString rest (.plain char :: pieces) := by
  obtain ⟨other, named⟩ := escaped?_of_mem listed
  simp [Token.scanString, named, other]

theorem Pieces.scanString {pieces : List Piece} (spelled : Pieces text pieces rest) (scanned : List Piece) :
    Token.scanString text scanned = .closed (pieces.reverse ++ scanned) rest := by
  induction spelled generalizing scanned with
  | close => simp [Token.scanString]
  | plain visible unquoted unescaped _ ih =>
    rw [List.reverse_cons, List.append_assoc]
    simp [Token.scanString, unquoted, unescaped, Char.not_lt.mpr visible, ih]
  | letter listed _ ih =>
    rw [scanString_letter listed, ih, List.reverse_cons, List.append_assoc]
    rfl
  | unit first second third fourth _ ih =>
    rw [Token.scanString]
    simp only [Token.unit?, first.hexValue?, second.hexValue?, third.hexValue?, fourth.hexValue?]
    rw [List.reverse_cons, List.append_assoc]
    exact ih _

theorem Pieces.length_le {pieces : List Piece} (spelled : Pieces text pieces rest) : rest.length ≤ text.length := by
  induction spelled with
  | close => exact Nat.le_succ _
  | plain | letter | unit => simp only [List.length_cons]; omega

/-- The scanned pieces are joined to the characters they stand for. -/
theorem Denotes.joinPieces {pieces : List Piece} {content : List Char} (denotes : Denotes pieces content)
    (scanned : List Piece) (tail : List Char) :
    Token.joinPieces (pieces.reverse ++ scanned) tail = Token.joinPieces scanned (content ++ tail) := by
  induction denotes generalizing scanned with
  | nil => rfl
  | plain _ ih =>
    rw [List.reverse_cons, List.append_assoc, ih]
    rfl
  | @unit code _ _ alone _ ih =>
    have trailing : Token.isTrailing code = false := by simp [Token.isTrailing]; omega
    have leading : Token.isLeading code = false := by simp [Token.isLeading]; omega
    rw [List.reverse_cons, List.append_assoc, ih]
    conv_lhs => unfold Token.joinPieces
    simp [trailing, leading]
  | @pair lead trail _ _ leading trailing _ ih =>
    have leads : Token.isLeading lead = true := by simp [Token.isLeading]; omega
    have trails : Token.isTrailing trail = true := by simp [Token.isTrailing]; omega
    rw [List.reverse_cons, List.reverse_cons, List.append_assoc, List.append_assoc, ih]
    conv_lhs => unfold Token.joinPieces
    simp [leads, trails]

theorem Pieces.step {pieces : List Piece} (spelled : Pieces text pieces rest) :
    Token.step '\x22' text = .more (.text ((Token.joinPieces pieces.reverse []).map String.ofList)) rest := by
  change Token.Step.ofScanned _ = _
  rw [spelled.scanString, List.append_nil]
  rfl

/-- A string is scanned as its content. -/
theorem Denotes.step {pieces : List Piece} {content : String} (denotes : Denotes pieces content.toList)
    (spelled : Pieces text pieces rest) : Token.step '\x22' text = .more (.text (some content)) rest := by
  have joined := denotes.joinPieces [] []
  rw [List.append_nil, List.append_nil] at joined
  rw [spelled.step, joined, Token.joinPieces, Option.map_some, String.ofList_toList]

/-- A written character is one piece of a string. -/
theorem Pieces.escape {pieces : List Piece} (char : Char) (more : Pieces text pieces rest) :
    ∃ piece, Pieces (Value.escape char ++ text) (piece :: pieces) rest ∧
      ∀ content, Denotes pieces content → Denotes (piece :: pieces) (char :: content) := by
  unfold Value.escape
  split_ifs with quoted backslash backspace formFeed lineFeed carriageReturn tab control
  iterate 7 (subst char; exact ⟨_, .letter (by decide) more, fun _ => .plain⟩)
  · have low : char.toNat < 32 := control
    have zero : HexDigit '0' 0 := by decide
    have upper : HexDigit (Hex.digit (char.toNat / 16)) (char.toNat / 16) := ⟨by omega, .inl rfl⟩
    have lower : HexDigit (Hex.digit (char.toNat % 16)) (char.toNat % 16) := ⟨by omega, .inl rfl⟩
    have spelled := Pieces.unit zero zero upper lower more
    have code : 4096 * 0 + 256 * 0 + 16 * (char.toNat / 16) + char.toNat % 16 = char.toNat := by omega
    rw [code] at spelled
    refine ⟨_, spelled, fun content denotes => ?_⟩
    have whole : Denotes (.unit char.toNat :: pieces) (.ofNat char.toNat :: content) := .unit (by omega) denotes
    rwa [Char.ofNat_toNat] at whole
  · exact ⟨_, .plain (Char.not_lt.mp control) quoted backslash more, fun _ => .plain⟩

theorem exists_pieces (content rest : List Char) :
    ∃ pieces, Pieces (content.flatMap Value.escape ++ '\x22' :: rest) pieces rest ∧ Denotes pieces content := by
  induction content with
  | nil => exact ⟨[], .close, .nil⟩
  | cons char content ih =>
    obtain ⟨pieces, more, denotes⟩ := ih
    obtain ⟨piece, first, shows⟩ := more.escape char
    rw [List.flatMap_cons, List.append_assoc]
    exact ⟨piece :: pieces, first, shows content denotes⟩

/-- Strings are written as the grammar has them. -/
theorem Quoted.quote (content : String) (rest : List Char) : Quoted content (Value.quote content rest) rest := by
  obtain ⟨pieces, spelled, denotes⟩ := exists_pieces content.toList rest
  exact .of spelled denotes

end Grammar

end MediaSession.Json
