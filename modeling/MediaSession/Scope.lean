import MediaSession.PlacementRef

/-!
Scopes: the region of the model anchored at one placement, with everything registered below it. Scopes
are equal if their anchors are.
-/
namespace MediaSession

structure Scope where
  anchor : Option PlacementId := none
deriving DecidableEq

namespace Scope

/-- The scope anchored nowhere. -/
def invalid : Scope := ⟨none⟩

/-- The scope anchored at an identity. -/
def anchored (id : PlacementId) : Scope := ⟨some id⟩

/-- The scope anchored at a registered placement. -/
def ofRegistered (index : Index) (id : PlacementId) : Except SessionError Scope := do
  let _ ← index.find id
  return anchored id

/-- The scope that holds a placement. -/
def containing (index : Index) (id : PlacementId) : Except SessionError Scope := do
  return anchored (← index.scopeOf id)

def root (index : Index) : Scope := anchored index.rootId

def anchorRef (scope : Scope) : PlacementRef := ⟨.any, scope.anchor⟩

/-- The placement at the anchor. -/
def top (index : Index) (scope : Scope) : Except SessionError Placement := scope.anchorRef.resolve index

def isValid (index : Index) (scope : Scope) : Bool :=
  match scope.anchor with
  | some id => index.contains id
  | none => false

def isRoot (index : Index) (scope : Scope) : Bool := scope.anchor = some index.rootId

/-- The scope around this one. -/
def parent (index : Index) (scope : Scope) : Except SessionError Scope :=
  match scope.anchor with
  | none => .error (.invalidScope .unanchored)
  | some id => if id = index.rootId then .error (.noParentScope id) else containing index id

/-- Registered anchors from `id` up to the root, at most `steps` of them. -/
def ascendFrom (index : Index) : Nat → PlacementId → List PlacementId
  | 0, _ => []
  | steps + 1, id =>
    match index.table.entry? id with
    | none => []
    | some entry => if id = index.rootId then [id] else id :: ascendFrom index steps entry.scope

/-- This scope and those around it, up to the root or the depth limit. -/
def ascend (index : Index) (scope : Scope) : List PlacementId :=
  match scope.anchor with
  | some id => ascendFrom index index.maxPathDepth id
  | none => []

def display (scope : Scope) : String := scopeText scope.anchor

end Scope

end MediaSession
