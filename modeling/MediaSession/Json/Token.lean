import MediaSession.Json.Numeral
import MediaSession.Text.Hex

/-!
Tokens of interchange text. Scanning stops at the end of the text or at the first token that can not be
completed, which then is the last one and tells what is wrong with it.
-/
namespace MediaSession.Json

open Text

/-- Why a text could not be read on: it ended too soon, or what stands there is not allowed. -/
inductive Fault where
  | ended
  | malformed
deriving DecidableEq, Repr

/-- The fault of a spoiled token, by what is wanted there. -/
structure Spoiled where
  /-- When any value may stand. -/
  value : Fault
  /-- When the value is skipped unread. -/
  skipped : Fault
  /-- When only a string may stand. -/
  string : Fault
deriving DecidableEq, Repr

def Spoiled.everywhere (fault : Fault) : Spoiled := ⟨fault, fault, fault⟩

inductive Token where
  | listOpen
  | listClose
  | recordOpen
  | recordClose
  | colon
  | comma
  | null
  | bool (value : Bool)
  | number (literal : Numeral)
  /-- A string; `none` if an escape names half of a surrogate pair. -/
  | text (content : Option String)
  | spoiled (fault : Spoiled)
deriving DecidableEq

namespace Token

def isSpace (char : Char) : Bool := char = ' ' || char = '\n' || char = '\t' || char = '\r'

/-- Part of a string: a character, or a 16-bit unit spelled in hexadecimal. -/
inductive Piece where
  | plain (char : Char)
  | unit (code : Nat)
deriving DecidableEq

/-- A string scanned as far as possible, its last piece first. -/
inductive Scanned where
  | closed (pieces : List Piece) (rest : List Char)
  | unclosed (pieces : List Piece) (fault : Fault)

/-- Character an escape with a single letter stands for. -/
def escaped? (char : Char) : Option Char :=
  if char = '\x22' then some '\x22'
  else if char = '\\' then some '\\'
  else if char = '/' then some '/'
  else if char = 'b' then some '\x08'
  else if char = 'f' then some '\x0c'
  else if char = 'n' then some '\n'
  else if char = 'r' then some '\r'
  else if char = 't' then some '\t'
  else none

def hexValue? (char : Char) : Option Nat := Hex.value? char.toNat

/-- The unit of four hexadecimal digits. -/
def unit? (a b c d : Char) : Option Nat := do
  return 4096 * (← hexValue? a) + 256 * (← hexValue? b) + 16 * (← hexValue? c) + (← hexValue? d)

/-- Scan after the opening quote; four bytes are asked for after `\u` before they are looked at. -/
def scanString : List Char → List Piece → Scanned
  | [], pieces => .unclosed pieces .ended
  | '\\' :: 'u' :: a :: b :: c :: d :: rest, pieces =>
    match unit? a b c d with
    | some code => scanString rest (.unit code :: pieces)
    | none => .unclosed pieces .malformed
  | '\\' :: 'u' :: few, pieces =>
    .unclosed pieces (if (few.flatMap String.utf8EncodeChar).length < 4 then .ended else .malformed)
  | '\\' :: char :: rest, pieces =>
    match escaped? char with
    | some plain => scanString rest (.plain plain :: pieces)
    | none => .unclosed pieces .malformed
  | ['\\'], pieces => .unclosed pieces .ended
  | char :: rest, pieces =>
    if char = '\x22' then .closed pieces rest
    else if char < ' ' then .unclosed pieces .malformed
    else scanString rest (.plain char :: pieces)

def isLeading (code : Nat) : Bool := 0xD800 ≤ code && code < 0xDC00
def isTrailing (code : Nat) : Bool := 0xDC00 ≤ code && code < 0xE000

/-- Characters of the pieces, the last first, in front of `tail`; `none` if a surrogate has no partner. -/
def joinPieces : List Piece → List Char → Option (List Char)
  | [], tail => some tail
  | .plain char :: rest, tail => joinPieces rest (char :: tail)
  | .unit code :: rest, tail =>
    if isTrailing code then
      match rest with
      | .unit lead :: rest' =>
        if isLeading lead then
          joinPieces rest' (Char.ofNat (0x10000 + (lead - 0xD800) * 0x400 + (code - 0xDC00)) :: tail)
        else none
      | _ => none
    else if isLeading code then none
    else joinPieces rest (Char.ofNat code :: tail)

/-- Whether the pieces of an unclosed string are still without a lone surrogate. -/
def joinable (pieces : List Piece) : Bool :=
  match pieces with
  | .unit code :: rest => (joinPieces (if isLeading code then rest else pieces) []).isSome
  | _ => (joinPieces pieces []).isSome

def isDigit (char : Char) : Bool := '0' ≤ char && char ≤ '9'

def digitsOf (chars : List Char) : List Nat := chars.map fun char => char.toNat - 48

/-- A missing digit. -/
def noDigit (rest : List Char) : Fault := if rest.isEmpty then .ended else .malformed

/-- One zero, or digits that start with another one. -/
def scanWhole (chars : List Char) : Except Fault (List Nat × List Char) :=
  match chars.takeWhile isDigit, chars.dropWhile isDigit with
  | [], rest => .error (noDigit rest)
  | first :: more, rest =>
    if first = '0' ∧ more ≠ [] then .error .malformed else .ok (digitsOf (first :: more), rest)

/-- Digits after the point, if there is one. -/
def scanFraction : List Char → Except Fault (List Nat × List Char)
  | '.' :: chars =>
    match chars.takeWhile isDigit, chars.dropWhile isDigit with
    | [], rest => .error (noDigit rest)
    | digits, rest => .ok (digitsOf digits, rest)
  | rest => .ok ([], rest)

/-- Digits of an exponent after its sign. -/
def scanPower (downward : Bool) (chars : List Char) :
    Except Fault (Option (Bool × Nat) × List Char) :=
  match chars.takeWhile isDigit, chars.dropWhile isDigit with
  | [], rest => .error (noDigit rest)
  | digits, rest => .ok (some (downward, Numeral.ofDigits (digitsOf digits)), rest)

def scanExponent : List Char → Except Fault (Option (Bool × Nat) × List Char)
  | char :: chars =>
    if char = 'e' ∨ char = 'E' then
      match chars with
      | '-' :: rest => scanPower true rest
      | '+' :: rest => scanPower false rest
      | rest => scanPower false rest
    else .ok (none, char :: chars)
  | [] => .ok (none, [])

/-- A number after its sign. -/
def scanNumber (negative : Bool) (chars : List Char) : Except Fault (Numeral × List Char) := do
  let (whole, afterWhole) ← scanWhole chars
  let (fraction, afterFraction) ← scanFraction afterWhole
  let (exponent, rest) ← scanExponent afterFraction
  return ({ negative, whole, fraction, exponent }, rest)

/-- What is left after the given letters. -/
def scanName : List Char → List Char → Except Fault (List Char)
  | [], rest => .ok rest
  | _ :: _, [] => .error .ended
  | letter :: letters, char :: rest => if letter = char then scanName letters rest else .error .malformed

/-- A token and what follows it. -/
inductive Step where
  | more (token : Token) (rest : List Char)
  | last (fault : Spoiled)

/-- A spoiled literal: where only a string may stand, its first character already is wrong. -/
def Step.ofLiteral (token : α → Token) : Except Fault (α × List Char) → Step
  | .ok (value, rest) => .more (token value) rest
  | .error fault => .last ⟨fault, fault, .malformed⟩

def Step.ofScanned : Scanned → Step
  | .closed pieces rest => .more (.text ((joinPieces pieces []).map String.ofList)) rest
  | .unclosed pieces fault =>
    let read := if joinable pieces then fault else .malformed
    .last ⟨read, fault, read⟩

/-- Scan one token from its first character on. -/
def step (char : Char) (rest : List Char) : Step :=
  if char = '[' then .more .listOpen rest
  else if char = ']' then .more .listClose rest
  else if char = '\x7b' then .more .recordOpen rest
  else if char = '\x7d' then .more .recordClose rest
  else if char = ':' then .more .colon rest
  else if char = ',' then .more .comma rest
  else if char = '\x22' then .ofScanned (scanString rest [])
  else if char = '-' then .ofLiteral .number (scanNumber true rest)
  else if isDigit char then .ofLiteral .number (scanNumber false (char :: rest))
  else if char = 'n' then .ofLiteral (fun _ => .null) ((scanName ['u', 'l', 'l'] rest).map ((), ·))
  else if char = 't' then .ofLiteral .bool ((scanName ['r', 'u', 'e'] rest).map (true, ·))
  else if char = 'f' then .ofLiteral .bool ((scanName ['a', 'l', 's', 'e'] rest).map (false, ·))
  else .last (.everywhere .malformed)

/-- Tokens of a text behind those already `done`, the last first. Each token takes at least one
character, so as much `fuel` as there are characters suffices. -/
def scanOnto : Nat → List Char → List Token → List Token
  | 0, _, done => done.reverse
  | fuel + 1, chars, done =>
    match chars.dropWhile isSpace with
    | [] => done.reverse
    | char :: rest =>
      match step char rest with
      | .more token rest => scanOnto fuel rest (token :: done)
      | .last fault => (.spoiled fault :: done).reverse

/-- All tokens of a text. -/
def scan (chars : List Char) : List Token := scanOnto (chars.length + 1) chars []

end Token

end MediaSession.Json
