import MediaSession.Json.Outline
import MediaSession.Text.Hex

/-!
Values that are written as interchange text, with the members of a record in the order given. The
compact form has no blanks; the spacious form puts every item and member on a line of its own.
-/
namespace MediaSession.Json

open Text

inductive Value where
  | null
  | bool (value : Bool)
  | integer (value : Int)
  | text (content : String)
  | list (items : List Value)
  | record (members : List (String × Value))

namespace Value

instance : Inhabited Value := ⟨.null⟩

def count (number : Nat) : Value := integer number

def option (write : α → Value) : Option α → Value
  | none => null
  | some value => write value

/-- A character within a string; only quotes, backslashes and controls are escaped. -/
def escape (char : Char) : List Char :=
  if char = '\x22' then ['\\', '\x22']
  else if char = '\\' then ['\\', '\\']
  else if char = '\x08' then ['\\', 'b']
  else if char = '\x0c' then ['\\', 'f']
  else if char = '\n' then ['\\', 'n']
  else if char = '\r' then ['\\', 'r']
  else if char = '\t' then ['\\', 't']
  else if char < ' ' then
    ['\\', 'u', '0', '0', Hex.digit (char.toNat / 16), Hex.digit (char.toNat % 16)]
  else [char]

/-- A string in quotes, in front of `rest`. -/
def quote (content : String) (rest : List Char) : List Char :=
  '\x22' :: content.toList.flatMap escape ++ '\x22' :: rest

/-- A value that is one token, in front of `rest`. -/
def integerText (value : Int) (rest : List Char) : List Char := (toString value).toList ++ rest

def boolText (value : Bool) (rest : List Char) : List Char :=
  (if value then ['t', 'r', 'u', 'e'] else ['f', 'a', 'l', 's', 'e']) ++ rest

def nullText (rest : List Char) : List Char := ['n', 'u', 'l', 'l'] ++ rest

mutual

/-- A value without blanks, in front of `rest`. -/
def compactTo : Value → List Char → List Char
  | null, rest => nullText rest
  | bool value, rest => boolText value rest
  | integer value, rest => integerText value rest
  | text content, rest => quote content rest
  | list items, rest => '[' :: compactItems items false (']' :: rest)
  | record members, rest => '\x7b' :: compactMembers members false ('\x7d' :: rest)

/-- Items in front of `rest`, each with a comma before it if one went ahead. -/
def compactItems : List Value → Bool → List Char → List Char
  | [], _, rest => rest
  | item :: items, behind, rest =>
    let shown := compactTo item (compactItems items true rest)
    if behind then ',' :: shown else shown

def compactMembers : List (String × Value) → Bool → List Char → List Char
  | [], _, rest => rest
  | (key, value) :: members, behind, rest =>
    let shown := quote key (':' :: compactTo value (compactMembers members true rest))
    if behind then ',' :: shown else shown

end

def compact (value : Value) : String := String.ofList (value.compactTo [])

/-- A line break and two blanks for every level. -/
def newLine (level : Nat) (rest : List Char) : List Char :=
  '\n' :: List.replicate (2 * level) ' ' ++ rest

mutual

/-- A value with its parts on lines of their own, in front of `rest`. -/
def spaciousTo : Value → Nat → List Char → List Char
  | null, _, rest => nullText rest
  | bool value, _, rest => boolText value rest
  | integer value, _, rest => integerText value rest
  | text content, _, rest => quote content rest
  | list [], _, rest => '[' :: ']' :: rest
  | list items, level, rest =>
    '[' :: spaciousItems items false (level + 1) (newLine level (']' :: rest))
  | record [], _, rest => '\x7b' :: '\x7d' :: rest
  | record members, level, rest =>
    '\x7b' :: spaciousMembers members false (level + 1) (newLine level ('\x7d' :: rest))

def spaciousItems : List Value → Bool → Nat → List Char → List Char
  | [], _, _, rest => rest
  | item :: items, behind, level, rest =>
    let shown := newLine level (spaciousTo item level (spaciousItems items true level rest))
    if behind then ',' :: shown else shown

def spaciousMembers : List (String × Value) → Bool → Nat → List Char → List Char
  | [], _, _, rest => rest
  | (key, value) :: members, behind, level, rest =>
    let inner := spaciousTo value level (spaciousMembers members true level rest)
    let shown := newLine level (quote key (':' :: ' ' :: inner))
    if behind then ',' :: shown else shown

end

def spacious (value : Value) : String := String.ofList (value.spaciousTo 0 [])

/-- A 16-bit unit spelled in hexadecimal. -/
def spellUnit (unit : Nat) : List Char :=
  ['\\', 'u', Hex.digit (unit / 4096), Hex.digit (unit / 256 % 16), Hex.digit (unit / 16 % 16),
    Hex.digit (unit % 16)]

/-- A character in visible ASCII; beyond the first 65536 code points it takes two units. -/
def spell (char : Char) : List Char :=
  let code := char.toNat
  if ' ' ≤ char ∧ char ≤ '~' then [char]
  else if code < 0x10000 then spellUnit code
  else
    let offset := code - 0x10000
    spellUnit (0xD800 + offset / 0x400) ++ spellUnit (0xDC00 + offset % 0x400)

/-- The compact form in visible ASCII. -/
def plain (value : Value) : String := String.ofList ((value.compactTo []).flatMap spell)

mutual

/-- Change all texts of a value, keys aside. -/
def mapTexts (change : String → String) : Value → Value
  | text content => text (change content)
  | list items => list (mapItems change items)
  | record members => record (mapMembers change members)
  | value => value

def mapItems (change : String → String) : List Value → List Value
  | [] => []
  | item :: items => mapTexts change item :: mapItems change items

def mapMembers (change : String → String) : List (String × Value) → List (String × Value)
  | [] => []
  | (key, value) :: members => (key, mapTexts change value) :: mapMembers change members

end

mutual

/-- The outline of a value's text. -/
def outline : Value → Outline
  | null => .null
  | bool value => .bool value
  | integer value => .number (.ofInt value)
  | text content => .text (some content)
  | list items => .list (outlines items) none
  | record members => .record (memberOutlines members) none

def outlines : List Value → List Outline
  | [] => []
  | item :: items => outline item :: outlines items

def memberOutlines : List (String × Value) → List (Outline × Outline)
  | [] => []
  | (key, value) :: members => (.text (some key), outline value) :: memberOutlines members

end

end Value

end MediaSession.Json
