import MediaSession.Json.Token
import Std.Data.TreeMap

/-!
The outline of a text: its value as far as it can be read, with the place where reading breaks off. A
reader of a type walks the outline from left to right and so meets a wrong value and a broken text in
the order in which they stand.
-/
namespace MediaSession.Json

/-- In a list or record, `stop` is the fault that keeps it from being closed. -/
inductive Outline where
  | spoiled (fault : Spoiled)
  | null
  | bool (value : Bool)
  | number (literal : Numeral)
  | text (content : Option String)
  | list (items : List Outline) (stop : Option Fault)
  | record (members : List (Outline × Outline)) (stop : Option Fault)

namespace Outline

instance : Inhabited Outline := ⟨.null⟩

/-- A place where nothing can be read. -/
def broken (fault : Fault) : Outline := spoiled (.everywhere fault)

/-- Fault met when the value is skipped unread. -/
def skipFault? : Outline → Option Fault
  | spoiled fault => some fault.skipped
  | list _ stop => stop
  | record _ stop => stop
  | _ => none

/-- A list or record that is not closed yet, its parts in reverse. -/
inductive Pending where
  | list (items : List Outline)
  | record (members : List (Outline × Outline)) (key : Outline)

/-- Put a value where it is pending, and leave the list or record open for good. -/
def Pending.leave (fault : Fault) (value : Outline) : Pending → Outline
  | .list items => Outline.list (value :: items).reverse (some fault)
  | .record members key => Outline.record ((key, value) :: members).reverse (some fault)

/-- Leave everything that is pending around a value behind which the text can not be read on. -/
def abandon (fault : Fault) (value : Outline) (pending : List Pending) : Outline × Bool :=
  (pending.foldl (fun inner outer => outer.leave fault inner) value, false)

/-- What may stand next; members are in reverse. -/
inductive Expected where
  | value
  /-- A value, or the end of the list just opened. -/
  | firstItem
  /-- A key, or the end of the record just opened. -/
  | firstKey
  /-- A key behind a comma. -/
  | key (members : List (Outline × Outline))
  | colon (members : List (Outline × Outline)) (key : Outline)
  /-- A comma or the end of what is pending, behind a value. -/
  | next (value : Outline)

/-- What stands at the place of a key without being a string. -/
def strayKey : Token → Outline
  | .null => null
  | .bool value => bool value
  | .number literal => number literal
  | .listOpen => list [] (some .malformed)
  | .recordOpen => record [] (some .malformed)
  | .spoiled fault => spoiled fault
  | _ => broken .malformed

/-- Fault met at a stray key when it is skipped: only an unclosed string is looked into. -/
def strayFault : Token → Fault
  | .spoiled fault => if fault.string = fault.value then fault.skipped else .malformed
  | _ => .malformed

/-- A record that breaks off at a stray key. -/
def abandonKey (members : List (Outline × Outline)) (token : Token) (pending : List Pending) :
    Outline × Bool :=
  let fault := strayFault token
  let unclosed := record ((strayKey token, broken .malformed) :: members).reverse (some fault)
  abandon fault unclosed pending

/-- A value of one token; `none` for punctuation and openings. -/
def leaf? : Token → Option Outline
  | .null => some null
  | .bool value => some (bool value)
  | .number literal => some (number literal)
  | .text content => some (text content)
  | _ => none

/-- A place for a value that holds none. -/
def abandonValue (token : Token) (pending : List Pending) : Outline × Bool :=
  match token with
  | .spoiled fault => abandon fault.skipped (spoiled fault) pending
  | _ => abandon .malformed (broken .malformed) pending

/-- Outline of the first value of a list of tokens, and whether more tokens follow it. -/
def build : List Token → Expected → List Pending → Outline × Bool
  | tokens, .next value, [] => (value, !tokens.isEmpty)
  | [], .next value, outer :: pending => abandon .ended (outer.leave .ended value) pending
  | [], .firstKey, pending => abandon .ended (record [] (some .ended)) pending
  | [], .key members, pending =>
    abandon .ended (record ((broken .ended, broken .ended) :: members).reverse (some .ended)) pending
  | [], .colon members key, pending =>
    abandon .ended (record ((key, broken .ended) :: members).reverse (some .ended)) pending
  | [], .firstItem, pending => abandon .ended (list [] (some .ended)) pending
  | [], .value, pending => abandon .ended (broken .ended) pending
  | token :: tokens, .value, pending =>
    match token with
    | .listOpen => build tokens .firstItem pending
    | .recordOpen => build tokens .firstKey pending
    | token =>
      match leaf? token with
      | some value => build tokens (.next value) pending
      | none => abandonValue token pending
  | token :: tokens, .firstItem, pending =>
    match token with
    | .listClose => build tokens (.next (list [] none)) pending
    | .listOpen => build tokens .firstItem (.list [] :: pending)
    | .recordOpen => build tokens .firstKey (.list [] :: pending)
    | token =>
      match leaf? token with
      | some value => build tokens (.next value) (.list [] :: pending)
      | none => abandonValue token (.list [] :: pending)
  | token :: tokens, .firstKey, pending =>
    match token with
    | .recordClose => build tokens (.next (record [] none)) pending
    | .text content => build tokens (.colon [] (text content)) pending
    | token => abandonKey [] token pending
  | token :: tokens, .key members, pending =>
    match token with
    | .text content => build tokens (.colon members (text content)) pending
    | token => abandonKey members token pending
  | token :: tokens, .colon members key, pending =>
    match token with
    | .colon => build tokens .value (.record members key :: pending)
    | _ => abandon .malformed
        (record ((key, broken .malformed) :: members).reverse (some .malformed)) pending
  | token :: tokens, .next value, .list items :: pending =>
    match token with
    | .comma => build tokens .value (.list (value :: items) :: pending)
    | .listClose => build tokens (.next (list (value :: items).reverse none)) pending
    | _ => abandon .malformed (list (value :: items).reverse (some .malformed)) pending
  | token :: tokens, .next value, .record members key :: pending =>
    match token with
    | .comma => build tokens (.key ((key, value) :: members)) pending
    | .recordClose => build tokens (.next (record ((key, value) :: members).reverse none)) pending
    | _ => abandon .malformed (record ((key, value) :: members).reverse (some .malformed)) pending

/-- Keep the last member of every key, in the order of the keys. -/
def sortMembers (members : List (String × Outline)) : List (Outline × Outline) :=
  let kept : Std.TreeMap String Outline :=
    members.foldl (fun kept member => kept.insert member.1 member.2) ∅
  kept.toList.map fun member => (text (some member.1), member.2)

mutual

/-- The tree of an outline, in which every record is sorted by its keys. -/
def sorted : Outline → Outline
  | list items stop => list (sortedItems items) stop
  | record members stop => record (sortMembers (sortedMembers members)) stop
  | node => node

def sortedItems : List Outline → List Outline
  | [] => []
  | item :: items => sorted item :: sortedItems items

/-- Members with their keys as strings. -/
def sortedMembers : List (Outline × Outline) → List (String × Outline)
  | [] => []
  | (text (some key), value) :: members => (key, sorted value) :: sortedMembers members
  | _ :: members => sortedMembers members

end

/-- Outline of a text, and whether anything but blanks follows its value. -/
def ofText (text : List Char) : Outline × Bool := build (Token.scan text) .value []

end Outline

end MediaSession.Json
