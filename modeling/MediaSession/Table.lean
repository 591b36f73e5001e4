import MediaSession.Placement
import Std.Data.TreeMap

/-!
The two tables of a placement index: registered placements with their scopes, and the members of every
scope that has some. The root names itself as its scope and is no member.
-/
namespace MediaSession

/-- A registered placement with the scope it belongs to. -/
structure Entry where
  placement : Placement
  scope : PlacementId

structure Table where
  entries : Std.TreeMap PlacementId Entry
  /-- Members by scope. -/
  contents : Std.TreeMap PlacementId (Array PlacementId)
  root : PlacementId

namespace Table

/-- Just the root. -/
def ofRoot (root : Placement) : Table where
  entries := (∅ : Std.TreeMap PlacementId Entry).insert root.id ⟨root, root.id⟩
  contents := ∅
  root := root.id

def contains (table : Table) (id : PlacementId) : Bool := table.entries.contains id

def entry? (table : Table) (id : PlacementId) : Option Entry := table.entries[id]?

/-- Number of entries, the root included. -/
def size (table : Table) : Nat := table.entries.size

/-- Members of a scope; none for leaves and unknown identities. -/
def members (table : Table) (scope : PlacementId) : List PlacementId := (table.contents.getD scope #[]).toList

/-- All members, scope by scope. -/
def listed (table : Table) : List PlacementId := table.contents.toList.flatMap fun scope => scope.2.toList

/-- Number of memberships. -/
def memberships (table : Table) : Nat := table.listed.length

/-- Register a placement as a member of a scope; its identity is new and the scope registered. -/
def add (table : Table) (placement : Placement) (scope : PlacementId) : Table :=
  { table with
    entries := table.entries.insert placement.id ⟨placement, scope⟩
    contents := table.contents.alter scope fun listed => some ((listed.getD #[]).push placement.id) }

/-- Edit the pin of a registered placement. -/
def editPin (table : Table) (id : PlacementId) (edits : List PinEdit) : Table :=
  match table.entry? id with
  | none => table
  | some entry =>
    { table with
      entries := table.entries.insert id { entry with placement := entry.placement.edit edits } }

/-- Take the first occurrence of an identity out; what was last moves into its place. -/
def swapRemove (listed : Array PlacementId) (id : PlacementId) : Array PlacementId :=
  match listed.toList.idxOf? id with
  | none => listed
  | some place => (listed.swapIfInBounds place (listed.size - 1)).pop

/-- Take an identity out of a member list; a list left empty is dropped. -/
def dropMember (table : Table) (scope id : PlacementId) : Table :=
  match table.contents[scope]? with
  | none => table
  | some listed =>
    let rest := swapRemove listed id
    if rest.isEmpty then { table with contents := table.contents.erase scope }
    else { table with contents := table.contents.insert scope rest }

/-- Remove one entry and its membership. -/
def removeEntry (table : Table) (id scope : PlacementId) : Table :=
  { table with entries := table.entries.erase id }.dropMember scope id

/-- Remove the pending identities and everything below them, the last member of a list first. Every member
list is taken at most once, so `fuel` for the pending identities and all listed members suffices. -/
def sweep : Nat → Table → List PlacementId → List Placement → Table × List Placement
  | _, table, [], removed => (table, removed)
  | 0, table, _, removed => (table, removed)
  | fuel + 1, table, id :: pending, removed =>
    let nested := table.members id
    let removed :=
      match table.entry? id with
      | some entry => entry.placement :: removed
      | none => removed
    let rest := { table with entries := table.entries.erase id, contents := table.contents.erase id }
    sweep fuel rest (nested.reverse ++ pending) removed

/-- Remove everything below a scope but not the scope itself; also what was removed. -/
def removeBelow (table : Table) (scope : PlacementId) : Table × List Placement :=
  let rest := { table with contents := table.contents.erase scope }
  sweep table.memberships rest (table.members scope).reverse []

/-- Remove a scope with everything below it; also what was removed, and how many placements that counts for.
The scope counts once more if it was met below itself. -/
def removeAll (table : Table) (scope : PlacementId) : Table × List Placement × Nat :=
  match table.entry? scope with
  | none => (table, [], 0)
  | some _ =>
    let (below, removed) := table.removeBelow scope
    match below.entry? scope with
    | none => (below, removed, removed.length + 1)
    | some entry => (below.removeEntry scope entry.scope, entry.placement :: removed, removed.length + 1)

end Table

end MediaSession
