import MediaSession.MediaObject
import MediaSession.Pin

/-!
Placements: an object at a position, under an identity of its own. Two placements of one object differ
in identity only as long as their pins agree.
-/
namespace MediaSession

open Text

structure Placement where
  id : PlacementId
  object : SharedObject
  pin : PinChain := .empty
deriving DecidableEq

namespace Placement

/-- A second placement of the same object, placed alike. -/
def duplicate (placement : Placement) (id : PlacementId) : Placement := { placement with id }

def edit (placement : Placement) (edits : List PinEdit) : Placement :=
  { placement with pin := placement.pin.edit edits }

/-- Whether both placements hold the very same object. -/
def sharesObject (a b : Placement) : Bool := a.object.identity = b.object.identity

/-- The same object, placed alike; identities aside. -/
def isSameDef (a b : Placement) : Bool := a.sharesObject b && a.pin = b.pin

def isValid (placement : Placement) : Bool := placement.object.content.isValid

/-- Whether the object can be viewed as this type. -/
def admits (view : ViewType) (placement : Placement) : Bool := view.admits placement.object.content

/-- A further share of the object, held under a type. -/
def share (view : ViewType) (placement : Placement) : Option SharedObject := view.share placement.object

theorem share_eq (view : ViewType) (placement : Placement) :
    placement.share view = if placement.admits view then some placement.object else none :=
  view.share_eq placement.object

def display (placement : Placement) : String :=
  let object := placement.object.content.shortId
  let short := placement.id.short
  s!"Placement<{object}>@{short}"

/-- Structural form of a pin. -/
def debugPin : Pin → String
  | .fixed start => let micros := start.micros; s!"Fixed \x7b start: Time({micros}) \x7d"
  | .relative offset => let micros := offset.micros; s!"Relative \x7b offset: Time({micros}) \x7d"
  | .wiring pipe => let shown := Quoted.string pipe; s!"Wiring \x7b pipe: {shown} \x7d"

/-- Structural form with all fields. -/
def debug (placement : Placement) : String :=
  let id := placement.id.debug
  let subject := placement.object.content.debug
  let pins := ", ".intercalate (placement.pin.pins.map debugPin)
  s!"Placement \x7b id: {id}, subject: {subject}, pin: LocatingPin \x7b chain: [{pins}] \x7d \x7d"

end Placement

end MediaSession
