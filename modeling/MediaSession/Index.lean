import MediaSession.SessionError
import MediaSession.Table

/-!
The placement index: a registry of placements in nested scopes. Every registered placement but the root
is a member of one registered scope, and a placement with members is not removed on its own. Calls do not
check the index behind them: such a check changes nothing but a log.
-/
namespace MediaSession

structure Index where
  table : Table
  /-- Bound for chains of scopes walked upwards. -/
  maxPathDepth : Nat := 1024

namespace Index

def ofRoot (root : Placement) (maxPathDepth : Nat) : Index := ⟨.ofRoot root, maxPathDepth⟩

def rootId (index : Index) : PlacementId := index.table.root

/-- Number of registered placements, the root excluded. -/
def size (index : Index) : Nat := index.table.size - 1

def isEmpty (index : Index) : Bool := index.size = 0

def contains (index : Index) (id : PlacementId) : Bool := index.table.contains id

/-- All registered identities, the root included. -/
def ids (index : Index) : List PlacementId := index.table.entries.keys

def find (index : Index) (id : PlacementId) : Except SessionError Placement :=
  match index.table.entry? id with
  | some entry => .ok entry.placement
  | none => .error (.notInSession id)

/-- Find a placement whose object can be viewed as `view`. -/
def findAs (index : Index) (view : ViewType) (id : PlacementId) : Except SessionError Placement := do
  let placement ← index.find id
  if placement.admits view then return placement
  else .error (.typeMismatch id view placement.object.content)

/-- The scope that holds a placement; the root holds itself. -/
def scopeOf (index : Index) (id : PlacementId) : Except SessionError PlacementId :=
  match index.table.entry? id with
  | some entry => .ok entry.scope
  | none => .error (.notInSession id)

/-- The placement of the scope that holds a placement. -/
def scopePlacement (index : Index) (id : PlacementId) : Except SessionError Placement := do
  index.find (← index.scopeOf id)

/-- Identities listed directly within a scope; none where nothing is registered. -/
def members (index : Index) (id : PlacementId) : List PlacementId := index.table.members id

def memberCount (index : Index) (id : PlacementId) : Nat := (index.members id).length

/-- Placements directly within the scope of a registered placement. -/
def referrers (index : Index) (id : PlacementId) : Except SessionError (List Placement) :=
  if index.contains id then
    .ok ((index.members id).filterMap fun member => (index.table.entry? member).map Entry.placement)
  else .error (.notInSession id)

/-- Edit the pin of a registered placement. -/
def editPin (index : Index) (id : PlacementId) (edits : List PinEdit) :
    Except SessionError Index := do
  let _ ← index.find id
  return { index with table := index.table.editPin id edits }

/-- Register a placement as a member of `scope`; also the identity it is registered under. -/
def insert (index : Index) (placement : Placement) (scope : PlacementId) :
    Except SessionError (Index × PlacementId) :=
  if index.contains scope then
    .ok ({ index with table := index.table.add placement scope }, placement.id)
  else .error (.invalidScope (.noSuchScope placement scope))

/-- Remove one placement without members; also the placement, if it was registered. -/
def remove (index : Index) (id : PlacementId) : Except SessionError (Index × Option Placement) :=
  if id = index.rootId then .error (.modelRoot id)
  else match index.table.entry? id with
    | none => .ok (index, none)
    | some entry =>
      if 0 < index.memberCount id then .error (.nonEmptyScope id (index.memberCount id))
      else .ok ({ index with table := index.table.removeEntry id entry.scope }, some entry.placement)

/-- Remove everything but the root; also what was removed. -/
def clear (index : Index) : Index × List Placement :=
  let (table, removed) := index.table.removeBelow index.rootId
  ({ index with table }, removed)

/-- Remove a scope with everything below it, for the root only what is below; also what was removed, and
how many placements that counts for. -/
def clearScope (index : Index) (id : PlacementId) :
    Except SessionError (Index × List Placement × Nat) :=
  if id = index.rootId then
    let (index, removed) := index.clear
    .ok (index, removed, removed.length)
  else if index.contains id then
    let (table, removed, count) := index.table.removeAll id
    .ok ({ index with table }, removed, count)
  else .error (.notInSession id)

end Index

end MediaSession
