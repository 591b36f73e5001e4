import MediaSession.Proofs.Workspace.Accounts
import MediaSession.Proofs.Workspace.Stock
import MediaSession.Workspace

/-!
Calls on a workspace with one index, the placements that wait to be inserted, and any number of owning references.
Whoever makes the calls keeps no object on the side.
-/
namespace MediaSession

/-- One call. Names are those of variables for owning references; new placements come with their identity. -/
inductive WorkspaceCall where
  | create (id : PlacementId) (content : MediaObject) (edits : List PinEdit)
  | duplicate (id copy : PlacementId)
  | discard (id : PlacementId)
  | editPin (id : PlacementId) (edits : List PinEdit)
  | editPinThrough (reference : PlacementRef) (edits : List PinEdit)
  | insert (id scope : PlacementId)
  | insertAs (view : ViewType) (id scope : PlacementId)
  | remove (id : PlacementId)
  | clearScope (id : PlacementId)
  | clear
  | newRef (name : String) (view : ViewType)
  | cloneRef (name copy : String)
  | activate (name : String) (source : Except SessionError PlacementId)
  | attach (name child : String) (view : ViewType) (id : PlacementId)
  | close (name : String)
  | purge (name : String)
  | dropRef (name : String)

namespace WorkspaceCall

/-- Identities of the placements made by a call. -/
def offered : WorkspaceCall → List PlacementId
  | create id _ _ => [id]
  | duplicate _ copy => [copy]
  | _ => []

end WorkspaceCall

namespace Workspace
variable {ws : Workspace}

/-- Go on with a placement of the pool, if there is one. -/
def withPooled (ws : Workspace) (id : PlacementId) (act : Placement → Outcome Unit) : Workspace :=
  match ws.pool[id]? with
  | some placement => (act placement).2
  | none => ws

/-- What a call leaves behind, whether or not it succeeds. -/
def step (ws : Workspace) : WorkspaceCall → Workspace
  | .create id content edits => ws.create id content edits
  | .duplicate id copy => (ws.duplicate id copy).2
  | .discard id => ws.discard id
  | .editPin id edits => (ws.editPin id edits).2
  | .editPinThrough reference edits =>
    match reference.editPin ws.index edits with
    | .ok index => ws.withIndex index
    | .error _ => ws
  | .insert id scope => ws.withPooled id fun placement => ws.insert placement scope
  | .insertAs view id scope => ws.withPooled id fun placement => ws.insertAs view placement scope
  | .remove id => (ws.remove id).2
  | .clearScope id => (ws.clearScope id).2
  | .clear => ws.clear.2
  | .newRef name view => ws.setRef name (.inactive view)
  | .cloneRef name copy => ws.setRef copy (ws.ref name)
  | .activate name source => (ws.activate name source).2
  | .attach name child view id => ws.withPooled id fun placement => ws.attach name child view placement
  | .close name => ws.close name
  | .purge name => (ws.purge name).2
  | .dropRef name => ws.dropRef name

/-- The outcome of some calls on a new index. -/
def run (maxPathDepth : Nat) (rootId : PlacementId) (root : MediaObject) (calls : List WorkspaceCall) : Workspace :=
  calls.foldl step (ofIndex "index" maxPathDepth rootId root)

theorem run_append (maxPathDepth : Nat) (rootId : PlacementId) (root : MediaObject)
    (before after : List WorkspaceCall) :
    run maxPathDepth rootId root (before ++ after) = after.foldl step (run maxPathDepth rootId root before) :=
  List.foldl_append

/-- Where the placements are. -/
def stock (ws : Workspace) : Stock := ⟨ws.index, ws.pool⟩

/-- What active references hold. -/
def heldObjects (ws : Workspace) : List SharedObject := (valuesOf ws.refs).filterMap ObjectRef.object

/-- The objects of all placements, and those that active references hold. -/
def owned (ws : Workspace) : List SharedObject := ws.stock.objects ++ ws.heldObjects

theorem index_withIndex (ws : Workspace) (index : Index) : (ws.withIndex index).index = index := by
  unfold Workspace.index withIndex
  cases ws.context <;> rfl

theorem stock_withIndex (ws : Workspace) (index : Index) :
    (ws.withIndex index).stock = { ws.stock with index } := by
  rw [stock, index_withIndex]
  rfl

theorem withIndex_self (ws : Workspace) : ws.withIndex ws.index = ws := by
  unfold Workspace.index withIndex
  cases present : ws.context <;> simp only [Context.index, Context.withIndex, ← present]

theorem ref_insert (refs : Std.TreeMap String ObjectRef) (name other : String) (reference : ObjectRef) :
    (refs.insert name reference).getD other {} = if name = other then reference else refs.getD other {} := by
  simp [Std.TreeMap.getD_insert]

theorem ref_setRef (ws : Workspace) (name other : String) (reference : ObjectRef) :
    (ws.setRef name reference).ref other = if name = other then reference else ws.ref other :=
  ref_insert ws.refs name other reference

theorem ref_dropRef (ws : Workspace) (name other : String) :
    (ws.dropRef name).ref other = if name = other then {} else (ws.close name).ref other := by
  simp [dropRef, ref, Std.TreeMap.getD_erase]

theorem mem_heldObjects {name : String} {object : SharedObject} (held : (ws.ref name).object = some object) :
    object ∈ ws.heldObjects := by
  refine List.mem_filterMap.mpr ⟨ws.ref name, ?_, held⟩
  rw [ref, Std.TreeMap.getD_eq_getD_getElem?] at held ⊢
  cases found : ws.refs[name]? with
  | none =>
    rw [found] at held
    cases held
  | some reference => exact mem_valuesOf_iff.mpr ⟨name, found⟩

/-- What the references hold, that of one name put first. -/
theorem heldObjects_perm (ws : Workspace) (name : String) :
    ws.heldObjects.Perm
      ((ws.ref name).object.toList ++ (valuesOf (ws.refs.erase name)).filterMap ObjectRef.object) := by
  have split := (valuesOf_perm_erase ws.refs name).filterMap ObjectRef.object
  rw [ref, Std.TreeMap.getD_eq_getD_getElem?]
  rw [List.filterMap_append] at split
  cases found : ws.refs[name]? with
  | none =>
    rw [found] at split
    exact split
  | some reference =>
    rw [found] at split
    cases held : reference.object <;> simpa [heldObjects, held] using split

theorem heldObjects_setRef (ws : Workspace) (name : String) (reference : ObjectRef) :
    (ws.setRef name reference).heldObjects.Perm
      (reference.object.toList ++ (valuesOf (ws.refs.erase name)).filterMap ObjectRef.object) := by
  have split := (valuesOf_insert_perm ws.refs name reference).filterMap ObjectRef.object
  cases held : reference.object <;> simpa [heldObjects, setRef, held] using split

end Workspace

namespace ObjectRef
variable {index after : Index} {reference next : ObjectRef} {id : PlacementId}

/-- A reference leads to a placement that it led to before, or whose object it has just taken up. -/
theorem activate_ok (success : reference.activate index id = .ok next) :
    (next = reference ∧ reference.id = some id ∧ index.contains id = true) ∨
      reference.id ≠ some id ∧ ∃ placement, index.find id = .ok placement ∧
        placement.admits reference.view = true ∧ next = active reference.view id placement.object := by
  by_cases already : reference.id = some id ∧ index.contains id = true
  · rw [activate, if_pos already] at success
    exact .inl ⟨(Except.ok.inj success).symm, already⟩
  · cases found : index.find id with
    | error =>
      rw [activate, if_neg already, found] at success
      cases success
    | ok placement =>
      obtain ⟨entry, present, _⟩ := Index.find_ok found
      have away : reference.id ≠ some id := fun same =>
        already ⟨same, (Table.contains_iff _ id).mpr ⟨entry, present⟩⟩
      rw [activate_found already found] at success
      split at success
      · rename_i fits
        exact .inr ⟨away, placement, rfl, fits, (Except.ok.inj success).symm⟩
      · cases success

end ObjectRef

namespace Workspace

/-- The workspace without a placement of the pool that was given up. -/
def without (ws : Workspace) (placement : Placement) : Workspace :=
  { ws with ledger := ws.ledger.release placement.object, pool := ws.pool.erase placement.id }

/-- Either a reference is set to what activation made of it, or nothing happens. -/
theorem activate_cases (ws : Workspace) (name : String) (source : Except SessionError PlacementId) :
    (∃ id led, source = .ok id ∧ (ws.ref name).activate ws.index id = .ok led ∧
      ws.activate name source = (ws.setRef name led).done ()) ∨
    ∃ error, ws.activate name source = ws.fail error := by
  cases source with
  | error error => exact .inr ⟨error, rfl⟩
  | ok id =>
    unfold activate
    dsimp only
    split
    · rename_i led result
      exact .inl ⟨id, led, rfl, result, rfl⟩
    · rename_i error _
      exact .inr ⟨error, rfl⟩

/-- Either a placement of the pool is inserted and a reference set to lead to it, or it is given up. -/
theorem attach_cases (ws : Workspace) (name child : String) (view : ViewType) (placement : Placement) :
    (∃ scope after, (ws.ref name).id = some scope ∧ ws.index.insert placement scope = .ok (after, placement.id) ∧
      placement.admits view = true ∧ ws.attach name child view placement =
        ((ws.settle placement (.ok (after, placement.id))).2.setRef child
          (.active view placement.id placement.object)).done ()) ∨
    ∃ error, ws.attach name child view placement = (ws.without placement).fail error := by
  unfold attach
  dsimp only
  split
  · rename_i attached after result
    have reached := congrArg Prod.snd result
    obtain ⟨scope, bound, inserted, admits, rfl⟩ := ObjectRef.attach_ok (congrArg Prod.fst result)
    rw [reached] at inserted
    exact .inl ⟨scope, after, bound, inserted, admits, rfl⟩
  · rename_i error after result
    have unchanged : after = ws.index := by
      have still := ObjectRef.attach_failed (congrArg Prod.fst result)
      rw [result] at still
      exact still
    refine .inr ⟨error, ?_⟩
    rw [unchanged]
    exact congrArg (fun whole : Workspace => (whole.without placement).fail error) ws.withIndex_self

end Workspace

end MediaSession
