import MediaSession.Placement

/-!
Failures of session operations, each with its cause. A failure is of at most one of three sorts:
dangling, navigation or type.
-/
namespace MediaSession

/-- Why a scope can not be used. -/
inductive ScopeFault where
  /-- A placement was to be inserted into a scope that is not registered. -/
  | noSuchScope (placement : Placement) (scope : PlacementId)
  /-- A path was to be led to an unregistered scope. -/
  | noSuchTarget (target : Option PlacementId)
  /-- The chain of scopes above does not reach the root within the depth limit. -/
  | disconnected (scope : PlacementId)
  | unanchored
deriving DecidableEq

/-- What was tried on an empty path. -/
inductive PathUse where
  | inspecting
  | navigating
  | popping
deriving DecidableEq, Repr

inductive SessionError where
  | notInSession (id : PlacementId)
  | typeMismatch (id : PlacementId) (expected : ViewType) (actual : MediaObject)
  | nonEmptyScope (id : PlacementId) (members : Nat)
  | unboundReference
  | inactiveReference
  | invalidReference (id : PlacementId) (expected : ViewType)
  | invalidScope (fault : ScopeFault)
  | emptyPath (use : PathUse)
  | noParentScope (id : PlacementId)
  | modelRoot (id : PlacementId)
deriving DecidableEq

/-- Classes of failures that a caller can tell apart. -/
inductive ErrorClass where
  | nonEmptyScope
  | rootRefused
  | dangling
  | navigation
  | type
deriving DecidableEq, Repr

def scopeText : Option PlacementId → String
  | some id => id.short
  | none => "?"

namespace ScopeFault

def message : ScopeFault → String
  | noSuchScope placement scope =>
    let shown := placement.display
    s!"can not attach {shown}: scope {scope} is not registered"
  | noSuchTarget target => let shown := scopeText target; s!"navigation target {shown} is not registered"
  | disconnected scope => let shown := scope.short; s!"scope {shown} is not connected to the model root"
  | unanchored => "unanchored scope has no parent"

end ScopeFault

def PathUse.message : PathUse → String
  | inspecting => "Inspecting"
  | navigating => "Navigating"
  | popping => "Popping"

namespace SessionError

def message : SessionError → String
  | notInSession id => s!"placement {id} is not registered within the session"
  | typeMismatch id expected actual =>
    let kind := actual.kind
    let name := expected.typeName
    s!"placement {id} holds a {kind}, which can not be viewed as {name}"
  | nonEmptyScope id members => s!"placement {id} constitutes a non-empty scope ({members} members)"
  | unboundReference => "placement reference is unbound"
  | inactiveReference => "MObject reference not activated"
  | invalidReference id expected =>
    let name := expected.typeName
    s!"placement {id} can not be referenced as {name}"
  | invalidScope fault => let shown := fault.message; s!"invalid scope: {shown}"
  | emptyPath use => let shown := use.message; s!"{shown} an empty scope path"
  | noParentScope id => s!"scope {id} is the model root and has no parent"
  | modelRoot id => s!"refusing to remove the model root {id}"

/-- The reference does not, or no longer, lead to a registered placement. -/
def isDangling : SessionError → Bool
  | notInSession _ | unboundReference | inactiveReference => true
  | _ => false

/-- Failure to find a scope or to lead a path to it. -/
def isNavigation : SessionError → Bool
  | invalidScope _ | emptyPath _ | noParentScope _ => true
  | _ => false

/-- Failure of a check of types. -/
def isTypeError : SessionError → Bool
  | typeMismatch _ _ _ | invalidReference _ _ => true
  | _ => false

def errorClass : SessionError → ErrorClass
  | nonEmptyScope _ _ => .nonEmptyScope
  | modelRoot _ => .rootRefused
  | notInSession _ | unboundReference | inactiveReference => .dangling
  | typeMismatch _ _ _ | invalidReference _ _ => .type
  | invalidScope _ | emptyPath _ | noParentScope _ => .navigation

end SessionError

end MediaSession
