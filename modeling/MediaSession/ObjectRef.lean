import MediaSession.Ledger
import MediaSession.PlacementRef

/-!
References that own what they refer to. While active, a reference shares the placed object and keeps it
alive even after its placement has left the index; access through the index still asks whether the
placement is registered.
-/
namespace MediaSession

/-- A reference to a placement, and a share of its object. -/
structure ObjectRef where
  placementRef : PlacementRef := {}
  /-- The object shared, whether or not its placement is registered. -/
  object : Option SharedObject := none
  /-- An object is shared just while a placement is referred to. -/
  agree : placementRef.isBound = object.isSome := by rfl
deriving DecidableEq

/-- What an active reference holds. -/
structure Activation where
  id : PlacementId
  object : SharedObject
deriving DecidableEq

namespace ObjectRef

def inactive (view : ViewType) : ObjectRef := { placementRef := .unbound view }

/-- A reference that leads to a placement. -/
def active (view : ViewType) (id : PlacementId) (object : SharedObject) : ObjectRef :=
  { placementRef := ⟨view, some id⟩, object := some object }

/-- The type the object is held under. -/
def view (reference : ObjectRef) : ViewType := reference.placementRef.view

def isActive (reference : ObjectRef) : Bool := reference.object.isSome

/-- The identity referred to; none while inactive. -/
def id (reference : ObjectRef) : Option PlacementId :=
  reference.object.bind fun _ => reference.placementRef.id

/-- Placement and object together. -/
def held (reference : ObjectRef) : Option Activation :=
  match reference.id, reference.object with
  | some id, some object => some ⟨id, object⟩
  | _, _ => none

/-- Drop object and binding. -/
def close (reference : ObjectRef) : ObjectRef := { placementRef := reference.placementRef.reset }

/-- Number of owners of the object; none while inactive. -/
def useCount (ledger : Ledger) (reference : ObjectRef) : Nat :=
  match reference.object with
  | some object => ledger.owners object
  | none => 0

/-- The identity referred to. -/
def locate (reference : ObjectRef) : Except SessionError PlacementId :=
  match reference.id with
  | some id => .ok id
  | none => .error .inactiveReference

/-- The shared object, while its placement is registered. -/
def subject (index : Index) (reference : ObjectRef) : Except SessionError SharedObject :=
  match reference.object with
  | none => .error .inactiveReference
  | some object => do
    let id ← reference.placementRef.locate
    if index.contains id then return object else .error (.notInSession id)

/-- Refer to a registered placement; nothing changes if that placement is referred to already. -/
def activate (index : Index) (id : PlacementId) (reference : ObjectRef) :
    Except SessionError ObjectRef :=
  if reference.id = some id ∧ index.contains id then .ok reference
  else do
    let placement ← index.find id
    match placement.share reference.view with
    | some object => return active reference.view id object
    | none => .error (.invalidReference id reference.view)

/-- The placement referred to, looked up afresh. -/
def placement (index : Index) (reference : ObjectRef) : Except SessionError Placement :=
  if reference.isActive then reference.placementRef.resolve index else .error .inactiveReference

/-- Start of the placement referred to. -/
def startTime (index : Index) (reference : ObjectRef) : Except SessionError Time := do
  let placement ← reference.placement index
  return placement.pin.resolve.start

/-- Whether the object can also be viewed as `view`. -/
def isCompatible (index : Index) (view : ViewType) (reference : ObjectRef) : Bool :=
  match reference.placement index with
  | .ok placement => placement.admits view
  | .error _ => false

/-- Insert a placement into the scope of the placement referred to. The result is a reference to it, and
besides it comes the index as it is left in either case. -/
def attach (index : Index) (view : ViewType) (child : Placement) (reference : ObjectRef) :
    Except SessionError ObjectRef × Index :=
  match reference.id with
  | none => (.error .inactiveReference, index)
  | some scope =>
    if child.admits view then
      match index.insert child scope with
      | .error error => (.error error, index)
      | .ok (index, id) => ((inactive view).activate index id, index)
    else (.error (.invalidReference child.id view), index)

/-- Remove the placement referred to with everything below it, if it is registered; also what was removed,
and how many placements that counts for. -/
def purge (index : Index) (reference : ObjectRef) : Except SessionError (Index × List Placement × Nat) :=
  match reference.id with
  | some id => if index.contains id then index.clearScope id else .ok (index, [], 0)
  | none => .ok (index, [], 0)

/-- Both refer to the same placement; an inactive reference equals nothing. -/
def sameId (id other : Option PlacementId) : Bool := id.isSome && id = other

/-- Both share the same object. -/
def sharesObject (a b : ObjectRef) : Bool :=
  match a.object, b.object with
  | some x, some y => x.identity = y.identity
  | _, _ => false

/-- Both lead to placements of the same object, placed alike. -/
def isEquivalent (index : Index) (a b : ObjectRef) : Bool :=
  match a.placement index, b.placement index with
  | .ok x, .ok y => x.isSameDef y
  | _, _ => false

def display (reference : ObjectRef) : String :=
  match reference.id with
  | some id => let shown := id.short; s!"MRef({shown})"
  | none => "MRef-NIL"

/-- Structural form. -/
def debug (ledger : Ledger) (reference : ObjectRef) : String :=
  let id := PlacementRef.debugId reference.id
  let count := reference.useCount ledger
  s!"MObjectRef \x7b id: {id}, use_count: {count} \x7d"

/-- A reference leads nowhere and holds nothing, or leads to a placement and holds an object. -/
theorem eq_inactive_or_active (reference : ObjectRef) :
    reference = inactive reference.view ∨ ∃ id object, reference = active reference.view id object := by
  obtain ⟨⟨view, _ | id⟩, _ | object, agree⟩ := reference
  · exact .inl rfl
  · cases agree
  · cases agree
  · exact .inr ⟨id, object, rfl⟩

@[simp] theorem id_active (view : ViewType) (id : PlacementId) (object : SharedObject) :
    (active view id object).id = some id := rfl

theorem subject_active (index : Index) (view : ViewType) (id : PlacementId) (object : SharedObject) :
    (active view id object).subject index =
      if index.contains id then .ok object else .error (.notInSession id) := rfl

theorem id_eq_placementRef_id (reference : ObjectRef) : reference.id = reference.placementRef.id := by
  rcases reference.eq_inactive_or_active with same | ⟨_, _, same⟩ <;> rw [same] <;> rfl

theorem id_eq_map_held (reference : ObjectRef) : reference.id = reference.held.map Activation.id := by
  rcases reference.eq_inactive_or_active with same | ⟨_, _, same⟩ <;> rw [same] <;> rfl

theorem eq_active_of_held {reference : ObjectRef} {held : Activation} (holds : reference.held = some held) :
    reference = active reference.view held.id held.object := by
  rcases reference.eq_inactive_or_active with same | ⟨_, _, same⟩
  · rw [same] at holds
    cases holds
  · rw [same] at holds
    cases holds
    exact same

end ObjectRef

end MediaSession
