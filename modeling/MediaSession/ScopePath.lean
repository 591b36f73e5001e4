import MediaSession.Scope

/-!
Scope paths: the route from the root down to a leaf. A sequence that is bound at several places can be
reached along different routes, and navigation keeps as much of the present route as is usable.
-/
namespace MediaSession

/-- Anchors of the scopes on a route, the root first. -/
structure ScopePath where
  anchors : List PlacementId := []
deriving DecidableEq

namespace ScopePath

/-- The empty path. -/
def invalid : ScopePath := ⟨[]⟩

def root (index : Index) : ScopePath := ⟨[index.rootId]⟩

/-- Whether the path leads below the root. -/
def isValid (path : ScopePath) : Bool := 1 < path.anchors.length

def isEmpty (path : ScopePath) : Bool := path.anchors.isEmpty

def isRoot (path : ScopePath) : Bool := path.anchors.length = 1

def length (path : ScopePath) : Nat := path.anchors.length

/-- Anchors from the leaf up to the root. -/
def upward (path : ScopePath) : List PlacementId := path.anchors.reverse

/-- The innermost scope. -/
def leaf (path : ScopePath) : Except SessionError Scope :=
  match path.anchors.getLast? with
  | some id => .ok (.anchored id)
  | none => .error (.emptyPath .inspecting)

def endsAt (path : ScopePath) (scope : Scope) : Except SessionError Bool := do
  return (← path.leaf) = scope

/-- Whether a scope lies on the path; the invalid scope lies on every path. -/
def contains (path : ScopePath) (scope : Scope) : Bool :=
  match scope.anchor with
  | none => true
  | some id => path.anchors.contains id

/-- Whether the path starts with another one. -/
def containsPath (path other : ScopePath) : Bool := other.anchors.isPrefixOf path.anchors

/-- Longest common start of two lists. -/
def sharedStart : List PlacementId → List PlacementId → List PlacementId
  | x :: xs, y :: ys => if x = y then x :: sharedStart xs ys else []
  | _, _ => []

/-- The longest route both paths start with. -/
def commonStart (a b : ScopePath) : ScopePath := ⟨sharedStart a.anchors b.anchors⟩

/-- Whether the paths part right below the root; an empty path is disjoint from every path. -/
def disjoint (a b : ScopePath) : Bool :=
  match a.anchors, b.anchors with
  | x :: xs, y :: ys =>
    x ≠ y || (match xs, ys with
      | x' :: _, y' :: _ => x' ≠ y'
      | _, _ => false)
  | _, _ => true

/-- Back to the root of an index. -/
def clear (index : Index) (_ : ScopePath) : ScopePath := root index

/-- Drop the innermost scope; also the new leaf, which is invalid once the path is empty. -/
def moveUp (path : ScopePath) : Except SessionError (Scope × ScopePath) :=
  if path.isEmpty then .error (.emptyPath .navigating)
  else
    let rest := path.anchors.dropLast
    .ok (⟨rest.getLast?⟩, ⟨rest⟩)

/-- Cut the path to its first scope. -/
def goRoot (path : ScopePath) : Except SessionError (Scope × ScopePath) :=
  match path.anchors with
  | [] => .error (.emptyPath .navigating)
  | first :: _ => .ok (.anchored first, ⟨[first]⟩)

/-- The plain chain of scopes from the root down to a target. -/
def discover (index : Index) (target : PlacementId) : Except SessionError (List PlacementId) :=
  let chain := ((Scope.anchored target).ascend index).reverse
  if chain.head? = some index.rootId then .ok chain else .error (.invalidScope (.disconnected target))

/-- The scope bound by the object placed at an anchor. -/
def attachedAt (index : Index) (id : PlacementId) : Option PlacementId :=
  (index.table.entry? id).bind fun entry => entry.placement.object.content.attachedScope?

/-- How `chain` goes on behind an anchor of the route: from the anchor itself if it lies on the chain,
else from the scope it binds. -/
def graft (index : Index) (chain : List PlacementId) (anchor : PlacementId) :
    Option (List PlacementId) :=
  if chain.contains anchor then some ((chain.dropWhile (· ≠ anchor)).drop 1)
  else do
    let bound ← attachedAt index anchor
    if chain.contains bound then some (chain.dropWhile (· ≠ bound)) else none

/-- A kept route and what is grafted onto its last scope: within the depth limit, and no scope twice. -/
def joined (index : Index) (chain kept : List PlacementId) : Option (List PlacementId) := do
  let last ← kept.getLast?
  let rest ← graft index chain last
  if index.maxPathDepth < kept.length + rest.length ∨ rest.any kept.contains then none
  else some (kept ++ rest)

/-- Starts of a list, the longest first and the empty one left out. -/
def startsDown (route : List PlacementId) : List (List PlacementId) :=
  (List.range route.length).reverse.map fun last => route.take (last + 1)

/-- Graft a chain onto the deepest usable scope of the intact part of the route. -/
def splice (index : Index) (chain : List PlacementId) (path : ScopePath) :
    Option (List PlacementId) :=
  (startsDown (path.anchors.takeWhile index.contains)).findSome? (joined index chain)

/-- Lead the path to a target: keep the deepest usable part of the route, else take the plain chain. -/
def navigate (index : Index) (target : Scope) (path : ScopePath) : Except SessionError ScopePath :=
  if path.isEmpty then .error (.emptyPath .navigating)
  else match target.anchor with
    | none => .error (.invalidScope (.noSuchTarget none))
    | some id =>
      if !index.contains id then .error (.invalidScope (.noSuchTarget (some id)))
      else if path.anchors.getLast? = some id then .ok path
      else do
        let chain ← discover index id
        return ⟨(splice index chain path).getD chain⟩

/-- The path from the root to a leaf; the invalid scope gives the empty path. -/
def toLeaf (index : Index) (leaf : Scope) : Except SessionError ScopePath :=
  if leaf = .invalid then .ok invalid else (root index).navigate index leaf

/-- The scopes below the root, each behind a slash. -/
def display (path : ScopePath) : String :=
  match path.anchors with
  | [] => "!"
  | [_] => "/"
  | _ :: rest => String.join (rest.map fun id => "/" ++ id.short)

end ScopePath

end MediaSession
