import MediaSession.Json.Reader
import MediaSession.Json.Value
import MediaSession.Pin
import MediaSession.PlacementId

/-!
Interchange form of times, pins, positions and identities. A time is its microseconds, a pin a record
tagged by `pin`, and an identity its full text form.
-/
namespace MediaSession

open Json

namespace Time

def toValue (time : Time) : Value := .integer time.micros

def reader : Reader Time := fun origin node => do
  let micros ← Reader.integer (-0x8000000000000000) 0x7FFFFFFFFFFFFFFF "i64" origin node
  return clamp micros

end Time

namespace Pin

def toValue : Pin → Value
  | fixed start => .record [("pin", .text "fixed"), ("start", start.toValue)]
  | relative offset => .record [("pin", .text "relative"), ("offset", offset.toValue)]
  | wiring pipe => .record [("pin", .text "wiring"), ("pipe", .text pipe)]

/-- A variant with one field. -/
def oneField (label name : String) (read : Reader α) (build : α → Pin) : Reader Pin :=
  Reader.layout
    { label, start := none, fields := [.of name id (fun value _ => some value) read]
      finish := fun draft => return build (← Reader.required name draft) }

def reader : Reader Pin :=
  Reader.tagged "internally tagged enum Pin" "pin"
    [("fixed", oneField "struct variant Pin::Fixed" "start" Time.reader fixed),
     ("relative", oneField "struct variant Pin::Relative" "offset" Time.reader relative),
     ("wiring", oneField "struct variant Pin::Wiring" "pipe" Reader.text wiring)]

end Pin

namespace PinChain

def toValue (chain : PinChain) : Value := .record [("chain", .list (chain.pins.map Pin.toValue))]

def reader : Reader PinChain :=
  Reader.layout
    { label := "struct LocatingPin", start := none
      fields := [.of "chain" id (fun value _ => some value) (Reader.list Pin.reader)]
      finish := fun draft => return ⟨← Reader.required "chain" draft⟩ }

end PinChain

namespace Position

def toValue (position : Position) : Value :=
  .record [("start", position.start.toValue), ("pipe", .option .text position.pipe)]

structure Draft where
  start : Option Time := none
  pipe : Option (Option String) := none

def reader : Reader Position :=
  Reader.layout
    { label := "struct ExplicitPlacement", start := ({} : Draft)
      fields :=
        [.of "start" Draft.start (fun value draft => { draft with start := some value }) Time.reader,
         .of "pipe" Draft.pipe (fun value draft => { draft with pipe := some value })
          (Reader.option Reader.text)]
      finish := fun draft => return ⟨← Reader.required "start" draft.start, draft.pipe.getD none⟩ }

end Position

namespace PlacementId

def toValue (id : PlacementId) : Value := .text id.toHex

def reader : Reader PlacementId := fun origin node => do
  let text ← Reader.textAs "a 16-byte placement id as hex string or byte array" origin node
  match parse text with
  | .ok id => return id
  | .error error => .error (.mismatch (.refusedText error.message))

end PlacementId

end MediaSession
