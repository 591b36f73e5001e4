import MediaSession.Index

/-!
References to placements by identity. A reference owns nothing: every access looks the placement up, so
a reference to a removed placement dangles. Its type is checked when it is bound.
-/
namespace MediaSession

structure PlacementRef where
  view : ViewType := .any
  id : Option PlacementId := none
deriving DecidableEq

namespace PlacementRef

def unbound (view : ViewType) : PlacementRef := ⟨view, none⟩

/-- A reference of any type, to an identity that need not be registered. -/
def ofId (id : PlacementId) : PlacementRef := ⟨.any, some id⟩

def isBound (reference : PlacementRef) : Bool := reference.id.isSome

/-- Drop the binding. -/
def reset (reference : PlacementRef) : PlacementRef := { reference with id := none }

/-- Refer to a registered placement whose object can be viewed as `view`. -/
def bind (index : Index) (view : ViewType) (id : PlacementId) : Except SessionError PlacementRef := do
  let _ ← index.findAs view id
  return ⟨view, some id⟩

/-- Refer to a placement that need not be registered yet. -/
def ofPlacement (view : ViewType) (placement : Placement) : Except SessionError PlacementRef :=
  if placement.admits view then .ok ⟨view, some placement.id⟩
  else .error (.typeMismatch placement.id view placement.object.content)

/-- The identity referred to. -/
def locate (reference : PlacementRef) : Except SessionError PlacementId :=
  match reference.id with
  | some id => .ok id
  | none => .error .unboundReference

/-- Refer to the same placement under another type. -/
def recast (index : Index) (view : ViewType) (reference : PlacementRef) :
    Except SessionError PlacementRef := do
  bind index view (← reference.locate)

/-- The placement referred to, its type checked again. -/
def resolve (index : Index) (reference : PlacementRef) : Except SessionError Placement := do
  index.findAs reference.view (← reference.locate)

def isValid (index : Index) (reference : PlacementRef) : Bool := (reference.resolve index).isOk

/-- Edit the pin of the placement referred to. -/
def editPin (index : Index) (edits : List PinEdit) (reference : PlacementRef) :
    Except SessionError Index := do
  let placement ← reference.resolve index
  index.editPin placement.id edits

def display (reference : PlacementRef) : String :=
  match reference.id with
  | some id => let shown := id.short; s!"PRef({shown})"
  | none => "PRef-NIL"

def debugId : Option PlacementId → String
  | some id => let shown := id.debug; s!"Some({shown})"
  | none => "None"

/-- Structural form. -/
def debug (reference : PlacementRef) : String :=
  let shown := debugId reference.id
  s!"PlacementRef({shown})"

end PlacementRef

/-- Register a placement whose object can be viewed as `view`; also a reference to it. The type is checked
first. -/
def Index.insertAs (index : Index) (view : ViewType) (placement : Placement) (scope : PlacementId) :
    Except SessionError (Index × PlacementRef) :=
  if placement.admits view then do
    let (index, id) ← index.insert placement scope
    return (index, ⟨view, some id⟩)
  else .error (.typeMismatch placement.id view placement.object.content)

/-- The reference to the root handed out by an index, taken to be a model root. -/
def Index.rootRef (index : Index) : PlacementRef := ⟨.root, some index.rootId⟩

end MediaSession
