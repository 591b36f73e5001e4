import MediaSession.ObjectRef
import MediaSession.RandomStream.Words
import MediaSession.Session
import MediaSession.Simulator.Report

/-!
The world of a simulation: a session, the identities handed out so far, references held on to, and focus
handles. Operations are drawn at random, their outcome is predicted from the model, and carrying them out
gives the actual outcome with a complaint if the result is wrong. Identities come from a supply, which gives
one for every object made.
-/
namespace MediaSession.Simulator

open RandomStream

/-- References held at most. -/
def heldLimit : Nat := 64

structure World where
  session : Session
  desk : FocusDesk
  ledger : Ledger
  root : PlacementId
  /-- Identities of all placements inserted so far, in order, behind the root. -/
  known : Array PlacementId
  refs : Array ObjectRef := #[]
  /-- Handle on the bottom of the focus. -/
  focus : HandleId
  /-- Handles pushed and not yet popped, the latest first. -/
  pushed : List HandleId := []

namespace World

/-- The placement of a new object. -/
def placementOf (supply : Nat → PlacementId) (object : SharedObject) (edits : List PinEdit) : Placement :=
  { id := supply object.identity, object, pin := PinChain.empty.edit edits }

/-- An empty session with a handle on its focus. -/
def start (supply : Nat → PlacementId) (config : SessionConfig) : World :=
  let (object, ledger) := Ledger.create {} (.root config.rootName)
  let root := placementOf supply object []
  let (session, desk) := Session.start config root {}
  let (focus, session, desk) := session.queryFocus desk
  { session, desk, ledger, root := root.id, known := #[root.id], focus }

def index (world : World) : Index := world.session.index

def withIndex (world : World) (index : Index) : World :=
  { world with session := { world.session with index } }

/-- The identity in a slot; slots beyond the last one start over. -/
def pick (world : World) (slot : Nat) : PlacementId :=
  world.known.getD (slot % world.known.size) world.root

/-- Count the pending identities with everything below them. -/
def countBelow (index : Index) : Nat → List PlacementId → Nat → Nat
  | 0, _, count => count
  | _, [], count => count
  | fuel + 1, id :: pending, count =>
    let nested := match index.referrers id with
      | .ok members => members.map Placement.id
      | .error _ => []
    countBelow index fuel (nested.reverse ++ pending) (count + 1)

/-- Number of placements in a scope, the scope included. -/
def subtreeSize (world : World) (id : PlacementId) : Nat :=
  countBelow world.index (world.index.table.size + 1) [id] 0

end World

variable {σ : Type} [WordSource σ]

def drawKind (source : σ) : PlacedKind × σ :=
  let (draw, source) := below 4 source
  (match draw with
    | 0 => .fork
    | 1 => .clip
    | 2 => .effect
    | _ => .binding, source)

/-- Draw the next operation. -/
def drawOperation (world : World) (source : σ) : Operation × σ :=
  let (slot, source) := below (2 * world.known.size) source
  let (sort, source) := below 20 source
  if sort ≤ 6 then
    let (kind, source) := drawKind source
    (.insert slot kind, source)
  else if sort ≤ 9 then (.remove slot, source)
  else if sort = 10 then (.clearScope slot, source)
  else if sort ≤ 12 then (.activate slot, source)
  else if sort ≤ 14 then
    let (reference, source) := below (max world.refs.size 1) source
    (.resolve reference, source)
  else if sort ≤ 16 then (.navigate slot, source)
  else if sort ≤ 18 then (.pushFocus slot, source)
  else (.popFocus, source)

/-- Draw the content of a placement. -/
def drawContent (world : World) (kind : PlacedKind) (source : σ) : MediaObject × σ :=
  let number := world.known.size
  match kind with
  | .fork => (.fork s!"fork-{number}", source)
  | .clip =>
    let (seconds, source) := between 1 120 source
    (.clip s!"clip-{number}.mov" (.ofSeconds seconds), source)
  | .effect => (.effect s!"effect-{number}", source)
  | .binding =>
    let (slot, source) := below number source
    (.binding (world.pick slot), source)

/-- Draw a placement of a new object, with its start. -/
def drawPlacement (supply : Nat → PlacementId) (world : World) (kind : PlacedKind) (source : σ) :
    Placement × World × σ :=
  let (content, source) := drawContent world kind source
  let (start, source) := between 0 3600 source
  let (object, ledger) := world.ledger.create content
  (World.placementOf supply object [.push (.fixed (.ofSeconds start))], { world with ledger }, source)

/-- The outcome the session has to give. -/
def predict (world : World) (operation : Operation) : Outcome :=
  let index := world.index
  let orFail (error : ErrorClass) (registered : Bool) : Outcome :=
    if registered then .success else .failure error
  match operation with
  | .insert parent _ => orFail .navigation (index.contains (world.pick parent))
  | .remove target =>
    let id := world.pick target
    if id = index.rootId then .failure .rootRefused
    else if 0 < index.memberCount id then .failure .nonEmptyScope
    else .success
  | .clearScope target | .activate target | .navigate target | .pushFocus target =>
    orFail .dangling (index.contains (world.pick target))
  | .resolve reference =>
    match world.refs[reference]? with
    | some held => orFail .dangling (held.id.any index.contains)
    | none => .skipped
  | .popFocus => if world.pushed.isEmpty then .skipped else .success

/-- What came of an operation. -/
@[ext]
structure Effect where
  outcome : Outcome
  /-- What is wrong with the result. -/
  complaint : Option String := none
  inserted : Nat := 0
  removed : Nat := 0
deriving DecidableEq

/-- A complaint that depends on a condition. -/
def complainIf (wrong : Bool) (complaint : String) : Option String :=
  if wrong then some complaint else none

/-- Whether a focus ends where it was led. -/
def checkLeaf (path : ScopePath) (id : PlacementId) : Option String :=
  match path.leaf with
  | .error error => some error.message
  | .ok leaf =>
    let found := leaf.display
    let wanted := id.short
    complainIf (leaf.anchor ≠ some id) s!"focus ended at {found}, expected {wanted}"

/-- Release the shares of removed placements. -/
def World.releaseAll (world : World) (removed : List Placement) : World :=
  { world with ledger := world.ledger.releaseAll (removed.map Placement.object) }

def executeInsert (supply : Nat → PlacementId) (world : World) (parent : Nat) (kind : PlacedKind)
    (source : σ) : Effect × World × σ :=
  let scope := world.pick parent
  let (placement, world, source) := drawPlacement supply world kind source
  match world.index.insert placement scope with
  | .error error =>
    ({ outcome := .failure error.errorClass }, world.releaseAll [placement], source)
  | .ok (index, id) =>
    let complaint := complainIf (id ≠ placement.id) s!"insert changed identity to {id}"
    ({ outcome := .success, complaint, inserted := 1 },
      { world.withIndex index with known := world.known.push id }, source)

def executeRemove (world : World) (target : Nat) : Effect × World :=
  let id := world.pick target
  let registered := world.index.contains id
  match world.index.remove id with
  | .error error => ({ outcome := .failure error.errorClass }, world)
  | .ok (index, removed) =>
    let world := (world.withIndex index).releaseAll removed.toList
    if removed.isSome = registered then
      ({ outcome := .success, removed := removed.toList.length }, world)
    else
      let reported := removed.isSome
      ({ outcome := .success, complaint := some s!"remove reported {reported} for {id}" }, world)

def executeClear (world : World) (target : Nat) : Effect × World :=
  let id := world.pick target
  let expected := if id = world.index.rootId then world.index.size else world.subtreeSize id
  match world.index.clearScope id with
  | .error error => ({ outcome := .failure error.errorClass }, world)
  | .ok (index, removed, count) =>
    let complaint := complainIf (count ≠ expected) s!"cleared {count} placements, expected {expected}"
    ({ outcome := .success, complaint, removed := count },
      (world.withIndex index).releaseAll removed)

/-- Hold on to a reference; once there are too many, one drawn at random is let go. -/
def holdRef (world : World) (reference : ObjectRef) (source : σ) : World × σ :=
  if world.refs.size < heldLimit then ({ world with refs := world.refs.push reference }, source)
  else
    let (slot, source) := below world.refs.size source
    let replaced := (world.refs[slot]?).bind ObjectRef.object
    ({ world with
      refs := world.refs.setIfInBounds slot reference
      ledger := world.ledger.releaseAll replaced.toList }, source)

def executeActivate (world : World) (target : Nat) (source : σ) : Effect × World × σ :=
  let id := world.pick target
  match (ObjectRef.inactive .any).activate world.index id with
  | .error error => ({ outcome := .failure error.errorClass }, world, source)
  | .ok reference =>
    let ledger := match reference.object with
      | some object => world.ledger.retain object
      | none => world.ledger
    let world := { world with ledger }
    let owners := match world.index.find id with
      | .ok placement => ledger.owners placement.object
      | .error _ => 0
    let counted := reference.useCount ledger
    let complaint := complainIf (counted ≠ owners)
      s!"reference counts {counted} owners, placement {owners}"
    let (world, source) :=
      if reference.isActive then holdRef world reference source else (world, source)
    ({ outcome := .success, complaint }, world, source)

def executeResolve (world : World) (reference : Nat) : Effect :=
  match world.refs[reference]? with
  | some held => { outcome := .ofResult (held.subject world.index) }
  | none => { outcome := .skipped }

def executeNavigate (world : World) (target : Nat) : Effect × World :=
  let id := world.pick target
  let shifted := do
    let scope ← Scope.ofRegistered world.index id
    world.desk.shift world.index world.focus scope
  match shifted with
  | .error error => ({ outcome := .failure error.errorClass }, world)
  | .ok desk =>
    ({ outcome := .success, complaint := checkLeaf (desk.pathOf world.focus) id }, { world with desk })

def executePush (world : World) (target : Nat) : Effect × World :=
  let id := world.pick target
  match Scope.ofRegistered world.index id with
  | .error error => ({ outcome := .failure error.errorClass }, world)
  | .ok scope =>
    match world.session.pushFocus world.desk scope with
    | (.error error, session, desk) =>
      ({ outcome := .failure error.errorClass }, { world with session, desk })
    | (.ok handle, session, desk) =>
      ({ outcome := .success, complaint := checkLeaf (desk.pathOf handle) id },
        { world with session, desk, pushed := handle :: world.pushed })

def executePop (world : World) : Effect × World :=
  match world.pushed with
  | [] => ({ outcome := .skipped }, world)
  | handle :: pushed =>
    let (session, desk) := world.session.pruneFocus (world.desk.drop handle)
    let before := world.session.focusDepth
    let after := session.focusDepth
    let complaint := complainIf (pushed.length + 1 < after || before < after)
      s!"focus stack kept {after} frames"
    ({ outcome := .success, complaint }, { world with session, desk, pushed })

/-- Carry out an operation; what it draws comes after what drawing the operation took. -/
def execute (supply : Nat → PlacementId) (world : World) (operation : Operation) (source : σ) :
    Effect × World × σ :=
  match operation with
  | .insert parent kind => executeInsert supply world parent kind source
  | .remove target => let (effect, world) := executeRemove world target; (effect, world, source)
  | .clearScope target => let (effect, world) := executeClear world target; (effect, world, source)
  | .activate target => executeActivate world target source
  | .resolve reference => (executeResolve world reference, world, source)
  | .navigate target => let (effect, world) := executeNavigate world target; (effect, world, source)
  | .pushFocus target => let (effect, world) := executePush world target; (effect, world, source)
  | .popFocus => let (effect, world) := executePop world; (effect, world, source)

end MediaSession.Simulator
