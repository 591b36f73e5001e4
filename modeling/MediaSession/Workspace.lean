import MediaSession.ObjectRef
import MediaSession.Session
import MediaSession.StandardModel
import MediaSession.Tree

/-!
Workspaces: sessions and bare indexes, the placements not yet inserted, and named variables of all kinds.
A workspace works in one context at a time and keeps the others aside. Every step keeps the ledger in
line with the owners that exist; a placement that is to be inserted is lost if the insertion fails.
-/
namespace MediaSession

/-- A session, or an index on its own. -/
inductive Context where
  | inSession (session : Session)
  | bare (index : Index)

namespace Context

def index : Context → Index
  | inSession session => session.index
  | bare index => index

def withIndex (index : Index) : Context → Context
  | inSession session => inSession { session with index }
  | bare _ => bare index

def session? : Context → Option Session
  | inSession session => some session
  | bare _ => none

end Context

/-- A share of an object, held under a type. -/
structure Share where
  view : ViewType
  object : SharedObject
deriving DecidableEq

structure Workspace where
  /-- Name of the present context. -/
  name : String
  context : Context
  /-- The other contexts. -/
  aside : Std.TreeMap String Context := ∅
  ledger : Ledger := {}
  desk : FocusDesk := {}
  /-- Placements that are not inserted. -/
  pool : Std.TreeMap PlacementId Placement := ∅
  refs : Std.TreeMap String ObjectRef := ∅
  shares : Std.TreeMap String Share := ∅
  /-- Variables that own nothing. -/
  placementRefs : Std.TreeMap String PlacementRef := ∅
  scopes : Std.TreeMap String Scope := ∅
  paths : Std.TreeMap String ScopePath := ∅
  foci : Std.TreeMap String HandleId := ∅
  focusStacks : Std.TreeMap String FocusStack := ∅
  watched : Std.TreeMap String SharedObject := ∅

namespace Workspace

/-- Result of a step that may fail, and what it leaves behind in either case. -/
abbrev Outcome (α : Type) : Type := Except SessionError α × Workspace

def fail (ws : Workspace) (error : SessionError) : Outcome α := (.error error, ws)

def done (ws : Workspace) (value : α) : Outcome α := (.ok value, ws)

def index (ws : Workspace) : Index := ws.context.index

def withIndex (ws : Workspace) (index : Index) : Workspace :=
  { ws with context := ws.context.withIndex index }

def withSession (ws : Workspace) (session : Session) (desk : FocusDesk) : Workspace :=
  { ws with context := .inSession session, desk }

/-- Go on in another context. -/
def enter (ws : Workspace) (name : String) (context : Context) : Workspace :=
  { ws with name, context, aside := ws.aside.insert ws.name ws.context }

/-- Go on in a context kept aside. -/
def switch (ws : Workspace) (name : String) : Option Workspace :=
  if name = ws.name then some ws
  else (ws.aside[name]?).map fun context =>
    { ws with name, context, aside := (ws.aside.erase name).insert ws.name ws.context }

/-- A session around a root object named by its configuration. -/
def sessionContext (config : SessionConfig) (rootId : PlacementId) (ledger : Ledger)
    (desk : FocusDesk) : Context × Ledger × FocusDesk :=
  let (object, ledger) := ledger.create (.root config.rootName)
  let (session, desk) := Session.start config { id := rootId, object } desk
  (.inSession session, ledger, desk)

/-- An index around any root object. -/
def bareContext (maxPathDepth : Nat) (rootId : PlacementId) (root : MediaObject) (ledger : Ledger) :
    Context × Ledger :=
  let (object, ledger) := ledger.create root
  (.bare (.ofRoot { id := rootId, object } maxPathDepth), ledger)

/-- A workspace with one session. -/
def ofSession (name : String) (config : SessionConfig) (rootId : PlacementId) : Workspace :=
  let (context, ledger, desk) := sessionContext config rootId {} {}
  { name, context, ledger, desk }

/-- A workspace with one index. -/
def ofIndex (name : String) (maxPathDepth : Nat) (rootId : PlacementId) (root : MediaObject) :
    Workspace :=
  let (context, ledger) := bareContext maxPathDepth rootId root {}
  { name, context, ledger }

/-- Open a further session and go on in it. -/
def openSession (ws : Workspace) (name : String) (config : SessionConfig) (rootId : PlacementId) :
    Workspace :=
  let (context, ledger, desk) := sessionContext config rootId ws.ledger ws.desk
  { ws with ledger, desk }.enter name context

/-- Open a further index and go on in it. -/
def openIndex (ws : Workspace) (name : String) (maxPathDepth : Nat) (rootId : PlacementId)
    (root : MediaObject) : Workspace :=
  let (context, ledger) := bareContext maxPathDepth rootId root ws.ledger
  { ws with ledger }.enter name context

/-- Keep a placement whose object is counted already. -/
def keep (ws : Workspace) (placement : Placement) : Workspace :=
  { ws with pool := ws.pool.insert placement.id placement }

/-- A new placement of a new object. -/
def create (ws : Workspace) (id : PlacementId) (content : MediaObject) (edits : List PinEdit) :
    Workspace :=
  let (object, ledger) := ws.ledger.create content
  { ws with ledger }.keep { id, object, pin := PinChain.empty.edit edits }

/-- A new placement of an object that has owners already. -/
def place (ws : Workspace) (placement : Placement) : Workspace :=
  { ws with ledger := ws.ledger.retain placement.object }.keep placement

/-- The placement of the pool, else the one in the index. -/
def placement (ws : Workspace) (id : PlacementId) : Except SessionError Placement :=
  match ws.pool[id]? with
  | some placement => .ok placement
  | none => ws.index.find id

/-- A second placement of the same object. -/
def duplicate (ws : Workspace) (id copy : PlacementId) : Outcome Unit :=
  match ws.placement id with
  | .ok placement => (ws.place (placement.duplicate copy)).done ()
  | .error error => ws.fail error

/-- Give up a placement of the pool. -/
def discard (ws : Workspace) (id : PlacementId) : Workspace :=
  match ws.pool[id]? with
  | some placement =>
    { ws with ledger := ws.ledger.release placement.object, pool := ws.pool.erase id }
  | none => ws

/-- Edit the pin of a placement of the pool, else of one in the index. -/
def editPin (ws : Workspace) (id : PlacementId) (edits : List PinEdit) : Outcome Unit :=
  match ws.pool[id]? with
  | some placement => (ws.keep (placement.edit edits)).done ()
  | none =>
    match ws.index.editPin id edits with
    | .ok index => (ws.withIndex index).done ()
    | .error error => ws.fail error

/-- Take a placement out of the pool and try to insert it; on failure its share is released. -/
def settle (ws : Workspace) (placement : Placement) (insertion : Except SessionError (Index × α)) :
    Outcome Unit :=
  let ws := { ws with pool := ws.pool.erase placement.id }
  match insertion with
  | .ok (index, _) => (ws.withIndex index).done ()
  | .error error => { ws with ledger := ws.ledger.release placement.object }.fail error

/-- Insert a placement of the pool. -/
def insert (ws : Workspace) (placement : Placement) (scope : PlacementId) : Outcome Unit :=
  ws.settle placement (ws.index.insert placement scope)

/-- Insert a placement of the pool whose object can be viewed as `view`. -/
def insertAs (ws : Workspace) (view : ViewType) (placement : Placement) (scope : PlacementId) :
    Outcome Unit :=
  ws.settle placement (ws.index.insertAs view placement scope)

/-- Go on with an index after some placements were removed from it. -/
def withRemoved (ws : Workspace) (index : Index) (removed : List Placement) : Workspace :=
  { ws.withIndex index with ledger := ws.ledger.releaseAll (removed.map Placement.object) }

/-- Remove one placement; whether it was registered. -/
def remove (ws : Workspace) (id : PlacementId) : Outcome Bool :=
  match ws.index.remove id with
  | .error error => ws.fail error
  | .ok (index, removed) => (ws.withRemoved index removed.toList).done removed.isSome

/-- Remove a scope with everything below it; how many placements it was. -/
def clearScope (ws : Workspace) (id : PlacementId) : Outcome Nat :=
  match ws.index.clearScope id with
  | .error error => ws.fail error
  | .ok (index, removed, count) => (ws.withRemoved index removed).done count

/-- Remove everything but the root; how many placements it was. -/
def clear (ws : Workspace) : Nat × Workspace :=
  let (index, removed) := ws.index.clear
  (removed.length, ws.withRemoved index removed)

/-- Clear a session together with its focus; how many placements it was. -/
def clearSession (ws : Workspace) (session : Session) : Nat × Workspace :=
  let (session, desk, removed) := session.clear ws.desk
  (removed.length, (ws.withSession session desk).withRemoved session.index removed)

/-- Insert the standard model below the root, up to the first failure. -/
def addStandardModel (ws : Workspace) (model : StandardModel) : Outcome Unit :=
  (model.layout ws.index.rootId).foldl (fun outcome item =>
    match outcome with
    | (.error error, ws) => ws.fail error
    | (.ok _, ws) =>
      let (object, ledger) := ws.ledger.create item.2.1
      let placement : Placement := { id := item.1, object }
      { ws with ledger }.insert placement item.2.2) (ws.done ())

/-- Build a regular tree; `supply` gives every placement its identity. -/
def buildTree (ws : Workspace) (supply : Nat → PlacementId) (depth width : Nat) :
    Except Tree.Error (List PlacementId) × Workspace :=
  let mint (number : Nat) (content : MediaObject) : Placement :=
    { id := supply number, object := ⟨ws.ledger.next + number, content⟩ }
  match Tree.build mint depth width ws.index with
  | .error error => (.error error, ws)
  | .ok (index, inserted) =>
    (.ok inserted, { ws.withIndex index with ledger := ws.ledger.advanceBy inserted.length })

def ref (ws : Workspace) (name : String) : ObjectRef := ws.refs.getD name {}

/-- Count what a reference is to hold, and release what it held before. -/
def setRef (ws : Workspace) (name : String) (reference : ObjectRef) : Workspace :=
  let retained := match reference.object with
    | some object => ws.ledger.retain object
    | none => ws.ledger
  let ledger := match (ws.ref name).object with
    | some object => retained.release object
    | none => retained
  { ws with ledger, refs := ws.refs.insert name reference }

/-- Lead a reference to the placement that a source names; on failure it stays as it was. -/
def activate (ws : Workspace) (name : String) (source : Except SessionError PlacementId) :
    Outcome Unit :=
  match source with
  | .error error => ws.fail error
  | .ok id =>
    match (ws.ref name).activate ws.index id with
    | .ok reference => (ws.setRef name reference).done ()
    | .error error => ws.fail error

/-- Close a reference and release what it held. -/
def close (ws : Workspace) (name : String) : Workspace := ws.setRef name (ws.ref name).close

/-- Insert a placement of the pool below the one a reference leads to; `child` then leads to it. -/
def attach (ws : Workspace) (name child : String) (view : ViewType) (placement : Placement) :
    Outcome Unit :=
  let ws := { ws with pool := ws.pool.erase placement.id }
  match (ws.ref name).attach ws.index view placement with
  | (.ok attached, index) => ((ws.withIndex index).setRef child attached).done ()
  | (.error error, index) =>
    { ws.withIndex index with ledger := ws.ledger.release placement.object }.fail error

/-- Remove the placement a reference leads to with everything below it, and close the reference. -/
def purge (ws : Workspace) (name : String) : Outcome Nat :=
  match (ws.ref name).purge ws.index with
  | .error error => ws.fail error
  | .ok (index, removed, count) => ((ws.withRemoved index removed).close name).done count

/-- Forget a reference. -/
def dropRef (ws : Workspace) (name : String) : Workspace :=
  let ws := ws.close name
  { ws with refs := ws.refs.erase name }

/-- Hold a share of a placement's object under a type it can be viewed as. -/
def share (ws : Workspace) (name : String) (view : ViewType) (placement : Placement) :
    Option Workspace :=
  (placement.share view).map fun object =>
    { ws with ledger := ws.ledger.retain object, shares := ws.shares.insert name ⟨view, object⟩ }

/-- A new placement of the object of a held share. -/
def placeShare (ws : Workspace) (name : String) (id : PlacementId) : Option Workspace :=
  (ws.shares[name]?).map fun held => ws.place { id, object := held.object }

/-- Give up a held share. -/
def dropShare (ws : Workspace) (name : String) : Workspace :=
  match ws.shares[name]? with
  | some held =>
    { ws with ledger := ws.ledger.release held.object, shares := ws.shares.erase name }
  | none => ws

/-- Number of variables of a name, watched objects aside. -/
def variableCount (ws : Workspace) (name : String) : Nat :=
  [ws.refs.contains name, ws.shares.contains name, ws.placementRefs.contains name,
    ws.scopes.contains name, ws.paths.contains name, ws.foci.contains name,
    ws.focusStacks.contains name].count true

/-- Release a focus handle. -/
def dropFocus (ws : Workspace) (name : String) : Workspace :=
  match ws.foci[name]? with
  | some handle => { ws with desk := ws.desk.drop handle, foci := ws.foci.erase name }
  | none => ws

/-- Drop all variables of a name, watched objects aside. -/
def drop (ws : Workspace) (name : String) : Workspace :=
  let ws := ((ws.dropRef name).dropShare name).dropFocus name
  { ws with
    placementRefs := ws.placementRefs.erase name
    scopes := ws.scopes.erase name
    paths := ws.paths.erase name
    focusStacks := ws.focusStacks.erase name }

end Workspace

end MediaSession
