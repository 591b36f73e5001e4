import MediaSession.Index

/-!
Regular trees of placements, and the drawing of an index as a tree of lines.
-/
namespace MediaSession.Tree

/-- The largest tree that is built. -/
def sizeLimit : Nat := 1000000

/-- Add the sizes of further levels; `none` beyond 64 bits. -/
def sizeFrom (width : Nat) : Nat → Nat → Nat → Option Nat
  | 0, _, total => some total
  | levels + 1, level, total =>
    if level * width < 0x10000000000000000 ∧ total + level * width < 0x10000000000000000 then
      sizeFrom width levels (level * width) (total + level * width)
    else none

/-- Placements of a regular tree below its root; `none` beyond 64 bits. -/
def size (depth width : Nat) : Option Nat :=
  if width = 0 then some 0
  else if width = 1 then some depth
  else sizeFrom width depth 1 0

inductive Error where
  | tooLarge (depth width : Nat)
  | session (error : SessionError)
deriving DecidableEq

def Error.message : Error → String
  | tooLarge depth width => s!"tree of depth {depth} and width {width} exceeds {sizeLimit} placements"
  | session error => error.message

/-- The object at a place of a level: a clip on the last one, else a fork. -/
def objectAt (level place : Nat) (last : Bool) : MediaObject :=
  if last then .clip s!"clip-{level}-{place}.mov" (.ofSeconds 5) else .fork s!"fork-{level}-{place}"

/-- A tree in the making; identities of the placements inserted so far in reverse. -/
structure Growth where
  index : Index
  inserted : List PlacementId := []
  count : Nat := 0

/-- Insert the next placement; `mint` makes the placement of a number. -/
def Growth.place (mint : Nat → MediaObject → Placement) (content : MediaObject)
    (scope : PlacementId) (growth : Growth) : Except SessionError Growth := do
  let (index, id) ← growth.index.insert (mint growth.count content) scope
  return ⟨index, id :: growth.inserted, growth.count + 1⟩

/-- Give every scope of a level its members. -/
def growLevel (mint : Nat → MediaObject → Placement) (level width : Nat) (last : Bool)
    (scopes : List PlacementId) (growth : Growth) : Except SessionError Growth :=
  scopes.foldlM (fun growth scope =>
    (List.range width).foldlM (fun growth place =>
      growth.place mint (objectAt level place last) scope) growth) growth

/-- Grow the levels that are left below the scopes of the last one. -/
def growFrom (mint : Nat → MediaObject → Placement) (width : Nat) :
    Nat → Nat → List PlacementId → Growth → Except SessionError Growth
  | 0, _, _, growth => .ok growth
  | left + 1, level, scopes, growth =>
    if scopes.isEmpty then .ok growth
    else do
      let grown ← growLevel mint level width (left = 0) scopes growth
      let placed := (grown.inserted.take (grown.count - growth.count)).reverse
      growFrom mint width left (level + 1) placed grown

/-- Build a regular tree below the root; also the identities inserted, parents first. -/
def build (mint : Nat → MediaObject → Placement) (depth width : Nat) (index : Index) :
    Except Error (Index × List PlacementId) :=
  match size depth width with
  | none => .error (.tooLarge depth width)
  | some total =>
    if sizeLimit < total then .error (.tooLarge depth width)
    else
      match growFrom mint width depth 1 [index.rootId] { index } with
      | .ok growth => .ok (growth.index, growth.inserted.reverse)
      | .error error => .error (.session error)

/-- Text of a placement, and its identity to tell equal texts apart. -/
abbrev Sibling := String × PlacementId

def Sibling.isBefore (a b : Sibling) : Bool :=
  a.1 < b.1 || a.1 = b.1 && (compare a.2 b.2).isLE

/-- Members of a scope in the order they are drawn. -/
def siblings (index : Index) (scope : PlacementId) : List Sibling :=
  match index.referrers scope with
  | .ok members =>
    (members.map fun member => (member.object.content.shortId, member.id)).mergeSort Sibling.isBefore
  | .error _ => []

/-- Draw some siblings in front of `rest`; `below` draws what is below one of them. -/
def drawSiblings (below : PlacementId → String → List String → List String) (indent : String)
    (rest : List String) : List Sibling → List String
  | [] => rest
  | (text, id) :: others =>
    let branch := if others.isEmpty then "└── " else "├── "
    let space := if others.isEmpty then "    " else "│   "
    (indent ++ branch ++ text) :: below id (indent ++ space) (drawSiblings below indent rest others)

/-- Lines of everything below a scope, in front of `rest`; `fuel` bounds the depth. -/
def drawBelow (index : Index) : Nat → PlacementId → String → List String → List String
  | 0, _, _, rest => rest
  | fuel + 1, scope, indent, rest =>
    drawSiblings (drawBelow index fuel) indent rest (siblings index scope)

/-- One line for every placement, each below its scope; siblings are ordered by their text. -/
def draw (index : Index) : String :=
  let root := match index.find index.rootId with
    | .ok placement => placement.object.content.shortId
    | .error _ => ""
  let lines := root :: drawBelow index index.table.size index.rootId "" []
  String.join (lines.map fun line => line ++ "\n")

end MediaSession.Tree
