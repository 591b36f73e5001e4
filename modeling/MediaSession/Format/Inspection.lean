import MediaSession.Format.Placing
import MediaSession.Workspace

/-!
What a workspace can tell about placements, references, paths and focus frames, as records.
-/
namespace MediaSession

open Json

def PlacementId.listValue (ids : List PlacementId) : Value := .list (ids.map toValue)

/-- Pins with the start and pipe they give. -/
def PinChain.describe (chain : PinChain) : List (String × Value) :=
  let position := chain.resolve
  [("pins", .list (chain.pins.map Pin.toValue)), ("start", position.start.toValue),
    ("pipe", .option .text position.pipe)]

namespace MediaObject

def length? : MediaObject → Option Time
  | clip _ length => some length
  | _ => none

/-- The fields of an object; seen as any object, it tells only whether it binds a scope. -/
def fieldsAs (view : ViewType) (content : MediaObject) : Value :=
  if view = .any then .bool content.attachedScope?.isSome
  else match content with
    | root name | fork name => .text name
    | clip media length => .list [.text media, length.toValue]
    | effect plugin => .text plugin
    | binding sequence => sequence.toValue
    | dummy tag => .count tag.toNat
    | sub1 label | sub2 label => .text label

def describe (view : ViewType) (content : MediaObject) : Value :=
  .record [("as", .text view.typeName), ("kind", .text content.kind),
    ("short_id", .text content.shortId), ("valid", .bool content.isValid),
    ("fields", content.fieldsAs view)]

end MediaObject

namespace Placement

/-- A placement as seen under one type. -/
def describeAs (view : ViewType) (placement : Placement) : Value :=
  .record [("id", placement.id.toValue),
    ("subject", placement.object.content.describe view),
    ("start", placement.pin.resolve.start.toValue)]

def describe (ledger : Ledger) (placement : Placement) : Value :=
  let content := placement.object.content
  let compatible := (ViewType.all.filter fun view => view.admits content).map ViewType.name
  .record ([("id", placement.id.toValue), ("display", .text placement.display),
    ("kind", .text content.kind), ("short_id", .text content.shortId),
    ("valid", .bool placement.isValid),
    ("attached", .option PlacementId.toValue content.attachedScope?),
    ("use_count", .count (ledger.owners placement.object)),
    ("compatible", .list (compatible.map .text)),
    ("length", .option Time.toValue content.length?)] ++ placement.pin.describe)

end Placement

/-- Owners are counted only if the reference leads to a placement. -/
def PlacementRef.describe (index : Index) (ledger : Ledger) (reference : PlacementRef) : Value :=
  let owners := match reference.resolve index with
    | .ok placement => ledger.owners placement.object
    | .error _ => 0
  .record [("bound", .bool reference.isBound), ("valid", .bool (reference.isValid index)),
    ("use_count", .count owners), ("id", .option PlacementId.toValue reference.id),
    ("display", .text reference.display), ("debug", .text reference.debug)]

def ObjectRef.describe (ledger : Ledger) (reference : ObjectRef) : Value :=
  .record [("active", .bool reference.isActive), ("use_count", .count (reference.useCount ledger)),
    ("id", .option PlacementId.toValue reference.id),
    ("pref", .text reference.placementRef.display), ("display", .text reference.display),
    ("debug", .text (reference.debug ledger)),
    ("shared", .option (fun shared => shared.content.describe reference.view) reference.object)]

def ScopePath.describe (path : ScopePath) : Value :=
  .record [("path", PlacementId.listValue path.anchors), ("display", .text path.display),
    ("len", .count path.length), ("valid", .bool path.isValid), ("empty", .bool path.isEmpty),
    ("root", .bool path.isRoot), ("up", PlacementId.listValue path.upward)]

/-- A stack with the handles attached to its two lowest frames. -/
def FocusStack.describe (desk : FocusDesk) (stack : FocusStack) : Value :=
  let attached (level : Nat) : Value := .option .count (stack.attachedAt? desk level)
  .record [("len", .count stack.depth), ("empty", .bool stack.isEmpty),
    ("refs", .list [attached 0, attached 1]), ("top", (stack.topPath desk).describe)]

/-- A registered placement with its scope and members; `sort` puts the members in order. -/
def Entry.describe (index : Index) (ledger : Ledger)
    (sort : List PlacementId → List PlacementId) (entry : Entry) : Value :=
  let id := entry.placement.id
  .record [("id", id.toValue), ("scope", entry.scope.toValue),
    ("subject", .text entry.placement.object.content.shortId),
    ("members", PlacementId.listValue (sort (index.members id))),
    ("use_count", .count (ledger.owners entry.placement.object))]

/-- All registered placements in the order of `sort`. -/
def Index.describe (ledger : Ledger) (sort : List PlacementId → List PlacementId) (index : Index) :
    Value :=
  .list ((sort index.ids).filterMap fun id =>
    (index.table.entry? id).map (Entry.describe index ledger sort))

end MediaSession
