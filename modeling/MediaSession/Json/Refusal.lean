import MediaSession.Json.Token
import MediaSession.Text.Quoted

/-!
Why a text is no value of a type: it can not be read on, or what it holds is something else.
-/
namespace MediaSession.Json

open Text

/-- What stands where something else is expected. -/
inductive Found where
  | null
  | bool (value : Bool)
  | integer (value : Int)
  | double (literal : Numeral)
  | text (content : String)
  | list
  | record
deriving DecidableEq

namespace Found

def message : Found → String
  | null => "null"
  | bool value => s!"boolean `{value}`"
  | integer value => s!"integer `{value}`"
  | double literal => let shown := literal.doubleText; s!"floating point `{shown}`"
  | text content => let shown := Quoted.string content; s!"string {shown}"
  | list => "sequence"
  | record => "map"

end Found

inductive Mismatch where
  | wrongType (found : Found) (expected : String)
  | wrongValue (found : Found) (expected : String)
  | wrongLength (length : Nat) (expected : String)
  | missingField (name : String)
  | duplicateField (name : String)
  | unknownVariant (name : String) (choices : List String)
  /-- A string refused by the format it is written in. -/
  | refusedText (reason : String)
deriving DecidableEq

namespace Mismatch

private def choiceList (choices : List String) : String :=
  match choices.map fun choice => s!"`{choice}`" with
  | [only] => only
  | [first, second] => s!"{first} or {second}"
  | shown => let all := ", ".intercalate shown; s!"one of {all}"

def message : Mismatch → String
  | wrongType found expected => let shown := found.message; s!"invalid type: {shown}, expected {expected}"
  | wrongValue found expected => let shown := found.message; s!"invalid value: {shown}, expected {expected}"
  | wrongLength length expected => s!"invalid length {length}, expected {expected}"
  | missingField name => s!"missing field `{name}`"
  | duplicateField name => s!"duplicate field `{name}`"
  | unknownVariant name choices =>
    let shown := choiceList choices
    s!"unknown variant `{name}`, expected {shown}"
  | refusedText reason => reason

end Mismatch

inductive Refusal where
  | fault (fault : Fault)
  | mismatch (mismatch : Mismatch)
deriving DecidableEq

end MediaSession.Json
