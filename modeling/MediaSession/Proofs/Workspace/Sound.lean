import MediaSession.Proofs.Workspace.Calls

/-!
What every call on a workspace keeps: identities are never used twice, the ledger counts the owners that there are,
and an active reference holds the object of the placement it leads to as long as there is one.
-/
namespace MediaSession
open scoped List
namespace Workspace
variable {ws next : Workspace} {used more : List PlacementId} {id : PlacementId} {name : String}
  {reference : ObjectRef} {gone : List SharedObject}

/-- A reference under a type, if active, holds an object of this type, and no other one is placed under the
identity it leads to. -/
def Vouches (ws : Workspace) (used : List PlacementId) (reference : ObjectRef) : Prop :=
  ∀ held, reference.held = some held → held.id ∈ used ∧ reference.view.admits held.object.content = true ∧
    ∀ object, ws.stock.Places held.id object → object = held.object

structure Sound (used : List PlacementId) (ws : Workspace) : Prop where
  stocked : ws.stock.Sound used
  accounts : ws.ledger.Accounts ws.owned
  vouched : ∀ name, ws.Vouches used (ws.ref name)

/-- A step that may use more identities: the invariant holds after it, and what is placed under an identity in
use was placed there before. -/
structure Keeps (used more : List PlacementId) (ws next : Workspace) : Prop where
  sound : next.Sound (used ++ more)
  since : Stock.Since used ws.stock next.stock

theorem Vouches.since (vouches : ws.Vouches used reference) (since : Stock.Since used ws.stock next.stock) :
    next.Vouches (used ++ more) reference := by
  intro held active
  obtain ⟨known, admits, only⟩ := vouches held active
  exact ⟨List.mem_append_left _ known, admits, fun object placed => only object (since placed known)⟩

theorem vouches_inactive (view : ViewType) : ws.Vouches used (.inactive view) :=
  fun _ active => nomatch active

/-- The stock evolves and the ledger follows; references stay as they are. -/
theorem Sound.restocked (sound : ws.Sound used) {new : List SharedObject}
    (evolves : Stock.Evolves used more ws.stock next.stock gone new) (refs : next.refs = ws.refs)
    (accounts : next.ledger.Accounts (next.stock.objects ++ ws.heldObjects)) : Keeps used more ws next where
  sound :=
    { stocked := evolves.sound
      accounts := by
        rw [owned, heldObjects, refs]
        exact accounts
      vouched := fun name => by
        rw [ref, refs]
        exact (sound.vouched name).since evolves.since }
  since := evolves.since

/-- Placements are given up and released, or only moved. -/
theorem Sound.released (sound : ws.Sound used) (evolves : Stock.Evolves used more ws.stock next.stock gone [])
    (refs : next.refs = ws.refs) (ledger : next.ledger = ws.ledger.releaseAll gone) : Keeps used more ws next := by
  refine sound.restocked evolves refs ?_
  have before := sound.accounts.perm (evolves.objects.symm.append_right ws.heldObjects)
  rw [List.append_assoc] at before
  exact ledger ▸ before.releaseAll

theorem Sound.stays (sound : ws.Sound used) (more : List PlacementId) : Keeps used more ws ws :=
  sound.released (sound.stocked.evolves_refl more) rfl rfl

/-- A new placement is pooled, its share counted beforehand. -/
theorem Sound.pooled (sound : ws.Sound used) (placement : Placement) (fresh : placement.id ∉ used) {ledger : Ledger}
    (accounts : ledger.Accounts (placement.object :: ws.owned)) :
    Keeps used [placement.id] ws ({ ws with ledger }.keep placement) := by
  have evolves := sound.stocked.evolves_put fresh
  exact sound.restocked evolves rfl (accounts.perm (evolves.objects.symm.append_right ws.heldObjects))

theorem Sound.placed (sound : ws.Sound used) (placement : Placement) (fresh : placement.id ∉ used)
    (shared : placement.object ∈ ws.owned) : Keeps used [placement.id] ws (ws.place placement) :=
  sound.pooled placement fresh (sound.accounts.retain (sound.accounts.issued shared))

/-- A placement of the pool is dropped. -/
theorem Sound.discarded (sound : ws.Sound used) {placement : Placement}
    (found : ws.pool[placement.id]? = some placement) :
    Keeps used more ws (ws.without placement) :=
  sound.released (sound.stocked.evolves_take found) rfl rfl

/-- A placement of the pool is inserted, or dropped if that fails. -/
theorem Sound.settled (sound : ws.Sound used) {placement : Placement}
    (found : ws.pool[placement.id]? = some placement) {α : Type} {insertion : Except SessionError (Index × α)}
    (inserts : ∀ {after told}, insertion = .ok (after, told) →
      ∃ scope id, ws.index.insert placement scope = .ok (after, id)) :
    Keeps used more ws (ws.settle placement insertion).2 := by
  unfold settle
  dsimp only
  split
  · rename_i after told
    obtain ⟨scope, id, inserted⟩ := inserts rfl
    let next := { ws with pool := ws.pool.erase placement.id }.withIndex after
    have evolves : Stock.Evolves used more ws.stock next.stock [] [] := by
      rw [stock_withIndex]
      exact sound.stocked.evolves_insert found inserted
    exact sound.released evolves rfl rfl
  · exact sound.discarded found

theorem places_settled {placement : Placement} {scope : PlacementId} {after : Index}
    (inserted : ws.index.insert placement scope = .ok (after, id)) :
    (ws.settle placement (.ok (after, id))).2.stock.Places placement.id placement.object := by
  obtain ⟨_, _, rfl⟩ := Index.insert_ok inserted
  refine .inr ⟨⟨placement, scope⟩, ?_, rfl⟩
  rw [settle, done, stock_withIndex]
  exact (Table.entry?_add ..).trans (if_pos rfl)

/-- A call on the index that inserts nothing, and hands out what it removed. -/
theorem Sound.affected (sound : ws.Sound used) {event : Option Event} {after : Index}
    (effect : Table.Effect ws.index.table event after.table)
    (none_new : ∀ {placement scope}, event ≠ some (.inserted placement scope)) (removed : List Placement)
    (handed : (removed.map Placement.object ++ after.table.placements.map Placement.object).Perm
      (ws.index.table.placements.map Placement.object)) :
    Keeps used more ws (ws.withRemoved after removed) := by
  have evolves : Stock.Evolves used more ws.stock (ws.withRemoved after removed).stock
      (removed.map Placement.object) [] := by
    change Stock.Evolves used more ws.stock (ws.withIndex after).stock _ []
    rw [stock_withIndex]
    exact sound.stocked.evolves_effect effect none_new handed
  exact sound.released evolves rfl rfl

/-- A reference is led elsewhere: what it is to hold is counted, and what it held is released. -/
theorem Sound.setRef (sound : ws.Sound used) (vouches : ws.Vouches used reference)
    (known : ∀ object, reference.object = some object → object ∈ ws.owned) :
    (ws.setRef name reference).Sound used where
  stocked := sound.stocked
  vouched other := by
    rw [ref_setRef]
    split
    · exact vouches
    · exact sound.vouched other
  accounts := by
    have gained := Ledger.Accounts.gain reference.object sound.accounts fun object held =>
      sound.accounts.issued (known object held)
    let others := (valuesOf (ws.refs.erase name)).filterMap ObjectRef.object
    have before :=
      calc reference.object.toList ++ ws.owned
        _ ~ reference.object.toList ++ (ws.stock.objects ++ ((ws.ref name).object.toList ++ others)) :=
          ((heldObjects_perm ws name).append_left _).append_left _
        _ ~ reference.object.toList ++ ((ws.ref name).object.toList ++ (ws.stock.objects ++ others)) :=
          (List.perm_append_comm_assoc _ _ _).append_left _
        _ ~ (ws.ref name).object.toList ++ (reference.object.toList ++ (ws.stock.objects ++ others)) :=
          List.perm_append_comm_assoc _ _ _
        _ ~ (ws.ref name).object.toList ++ (ws.stock.objects ++ (reference.object.toList ++ others)) :=
          (List.perm_append_comm_assoc _ _ _).append_left _
    have lost := Ledger.Accounts.lose (ws.ref name).object (gained.perm before)
    exact lost.perm ((heldObjects_setRef ws name reference).symm.append_left _)

theorem Keeps.setRef (keeps : Keeps used more ws next) (vouches : next.Vouches (used ++ more) reference)
    (known : ∀ object, reference.object = some object → object ∈ next.owned) :
    Keeps used more ws (next.setRef name reference) where
  sound := keeps.sound.setRef vouches known
  since := keeps.since

theorem Keeps.close (keeps : Keeps used more ws next) (name : String) : Keeps used more ws (next.close name) :=
  keeps.setRef (vouches_inactive (next.ref name).view) fun _ held => nomatch held

theorem Keeps.dropRef (keeps : Keeps used more ws next) (name : String) : Keeps used more ws (next.dropRef name) := by
  have closed := keeps.close name
  have inactive : ((next.close name).ref name).object = none := by
    rw [Workspace.close, ref_setRef, if_pos rfl]
    rfl
  have held := heldObjects_perm (next.close name) name
  rw [inactive] at held
  refine ⟨⟨closed.sound.stocked, closed.sound.accounts.perm (held.append_left _), fun other => ?_⟩, closed.since⟩
  rw [ref_dropRef]
  split
  · exact vouches_inactive .any
  · exact closed.sound.vouched other

/-- A reference under a type vouches for a placement whose object is of this type. -/
theorem vouches_of_places (sound : ws.stock.Sound used) {view : ViewType} {object : SharedObject}
    (placed : ws.stock.Places id object) (admits : view.admits object.content = true) :
    ws.Vouches used (.active view id object) := by
  intro held same
  cases same
  exact ⟨sound.known_of_places placed, admits, fun other also => sound.unique also placed⟩

theorem places_of_find {placement : Placement} (found : ws.index.find id = .ok placement) :
    ws.stock.Places id placement.object := by
  obtain ⟨entry, present, rfl⟩ := Index.find_ok found
  exact .inr ⟨entry, present, rfl⟩

/-- After a reference was led to a placement it holds its object, also if it led there before. -/
theorem Sound.activated (sound : ws.Sound used) {led : ObjectRef}
    (success : (ws.ref name).activate ws.index id = .ok led) :
    ∃ placement, ws.index.find id = .ok placement ∧ led = .active (ws.ref name).view id placement.object ∧
      ws.Vouches used led := by
  rcases ObjectRef.activate_ok success with ⟨rfl, bound, registered⟩ | ⟨_, placement, found, admits, rfl⟩
  · rw [ObjectRef.id_eq_map_held] at bound
    obtain ⟨held, active, rfl⟩ := Option.map_eq_some_iff.mp bound
    obtain ⟨entry, present⟩ := (Table.contains_iff _ held.id).mp registered
    have same := (sound.vouched name held active).2.2 entry.placement.object (.inr ⟨entry, present, rfl⟩)
    refine ⟨entry.placement, ?_, ?_, sound.vouched name⟩
    · rw [Index.find, present]
    · rw [same]
      exact ObjectRef.eq_active_of_held active
  · exact ⟨placement, found, rfl, vouches_of_places sound.stocked (places_of_find found) admits⟩

theorem Sound.duplicate (sound : ws.Sound used) (id : PlacementId) {copy : PlacementId} (fresh : copy ∉ used) :
    Keeps used [copy] ws (ws.duplicate id copy).2 := by
  unfold Workspace.duplicate
  split
  · rename_i placement success
    have shared : ws.stock.Places id placement.object := by
      unfold Workspace.placement at success
      split at success
      · rename_i waiting pooled
        cases success
        exact .inl ⟨placement, pooled, rfl⟩
      · exact places_of_find success
    have known : placement.object ∈ ws.owned := List.mem_append_left _ shared.mem_objects
    exact sound.placed (placement.duplicate copy) fresh known
  · exact sound.stays [copy]

theorem Sound.discard (sound : ws.Sound used) (id : PlacementId) : Keeps used more ws (ws.discard id) := by
  unfold Workspace.discard
  split
  · rename_i placement found
    have key : placement.id = id := sound.stocked.keyed found
    subst key
    exact sound.discarded found
  · exact sound.stays more

/-- A registered placement is edited. -/
theorem Sound.repinned (sound : ws.Sound used) {edits : List PinEdit} {after : Index}
    (success : ws.index.editPin id edits = .ok after) : Keeps used more ws (ws.withIndex after) := by
  obtain ⟨registered, rfl⟩ := Index.editPin_ok success
  have effect : Table.Effect ws.index.table (some (.pinned id edits)) _ := .pinned registered
  have handed := Table.objects_editPin ws.index.table id edits
  exact sound.affected effect (fun same => by cases same) [] handed

theorem Sound.editPin (sound : ws.Sound used) (id : PlacementId) (edits : List PinEdit) :
    Keeps used more ws (ws.editPin id edits).2 := by
  unfold Workspace.editPin
  split
  · rename_i placement found
    have key : placement.id = id := sound.stocked.keyed found
    exact sound.released (sound.stocked.evolves_edit (key ▸ found) edits) rfl rfl
  · split
    · rename_i success
      exact sound.repinned success
    · exact sound.stays more

/-- A call with a placement of the pool, if there is one. -/
theorem Sound.withPooled (sound : ws.Sound used) (id : PlacementId) {act : Placement → Outcome Unit}
    (keeps : ∀ {placement}, ws.pool[placement.id]? = some placement → Keeps used more ws (act placement).2) :
    Keeps used more ws (ws.withPooled id act) := by
  unfold Workspace.withPooled
  split
  · rename_i placement found
    have key : placement.id = id := sound.stocked.keyed found
    exact keeps (key ▸ found)
  · exact sound.stays more

/-- Placements are removed from the index. -/
theorem Sound.removed (sound : ws.Sound used) {event : Option Event} {after : Index}
    (effect : Table.Effect ws.index.table event after.table)
    (none_new : ∀ {placement scope}, event ≠ some (.inserted placement scope)) {removed : List Placement}
    (handed : (removed ++ after.table.placements).Perm ws.index.table.placements) :
    Keeps used more ws (ws.withRemoved after removed) :=
  sound.affected effect none_new removed
    ((List.Perm.of_eq List.map_append.symm).trans (handed.map Placement.object))

theorem Sound.remove (sound : ws.Sound used) (id : PlacementId) : Keeps used more ws (ws.remove id).2 := by
  unfold Workspace.remove
  split
  · exact sound.stays more
  · rename_i after removed success
    have applied : (Mutation.remove id).apply ws.index = .ok (after, removed.map fun _ => .removed id) :=
      bind_ok_iff.mpr ⟨_, success, rfl⟩
    have effect := (Mutation.apply_effect sound.stocked.indexed.consistent applied).2
    refine sound.removed effect ?_ (Index.placements_remove success)
    cases removed <;> nofun

theorem Sound.clearScope (sound : ws.Sound used) (id : PlacementId) :
    Keeps used more ws (ws.clearScope id).2 := by
  unfold Workspace.clearScope
  split
  · exact sound.stays more
  · rename_i success
    have effect := (Index.clearScope_effect sound.stocked.indexed.consistent success).2
    exact sound.removed effect nofun (Index.placements_clearScope success)

theorem Sound.clear (sound : ws.Sound used) : Keeps used more ws ws.clear.2 :=
  sound.removed (Index.clear_effect sound.stocked.indexed.consistent) nofun (Index.placements_clear ws.index)

theorem Sound.purge (sound : ws.Sound used) (name : String) : Keeps used more ws (ws.purge name).2 := by
  unfold Workspace.purge
  split
  · exact sound.stays more
  · rename_i success
    have effect := (ObjectRef.purge_effect sound.stocked.indexed.consistent success).2
    refine (sound.removed effect ?_ (ObjectRef.placements_purge success)).close name
    cases (ws.ref name).id <;> nofun

theorem Sound.activate (sound : ws.Sound used) (name : String) (source : Except SessionError PlacementId) :
    Keeps used more ws (ws.activate name source).2 := by
  rcases ws.activate_cases name source with ⟨id, led, _, success, done⟩ | ⟨error, failed⟩
  · obtain ⟨placement, found, rfl, vouches⟩ := sound.activated success
    rw [done]
    refine (sound.stays more).setRef (vouches.since fun placed _ => placed) fun object same => ?_
    cases same
    exact List.mem_append_left _ (places_of_find found).mem_objects
  · rw [failed]
    exact sound.stays more

theorem Sound.attach (sound : ws.Sound used) {placement : Placement}
    (found : ws.pool[placement.id]? = some placement) (name child : String) (view : ViewType) :
    Keeps used more ws (ws.attach name child view placement).2 := by
  rcases ws.attach_cases name child view placement with ⟨scope, after, _, inserted, admits, done⟩ | ⟨error, failed⟩
  · have settled : Keeps used more ws (ws.settle placement (.ok (after, placement.id))).2 := by
      refine sound.settled found fun same => ⟨scope, placement.id, ?_⟩
      cases same
      exact inserted
    have placed := places_settled inserted
    rw [done]
    refine settled.setRef (vouches_of_places settled.sound.stocked placed admits) fun object same => ?_
    cases same
    exact List.mem_append_left _ placed.mem_objects
  · rw [failed]
    exact sound.discarded found

theorem step_keeps (sound : ws.Sound used) (call : WorkspaceCall) (fresh : (used ++ call.offered).Nodup) :
    Keeps used call.offered ws (ws.step call) := by
  have unused {id : PlacementId} (offered : id ∈ call.offered) : id ∉ used := fun known =>
    (List.nodup_append.mp fresh).2.2 id known id offered rfl
  cases call with
  | create id content edits =>
    let placement : Placement := { id, object := ⟨ws.ledger.next, content⟩, pin := PinChain.empty.edit edits }
    exact sound.pooled placement (unused (List.mem_singleton_self _)) (sound.accounts.advance content)
  | duplicate id copy => exact sound.duplicate id (unused (List.mem_singleton_self _))
  | discard id => exact sound.discard id
  | editPin id edits => exact sound.editPin id edits
  | editPinThrough reference edits =>
    unfold step
    dsimp only
    split
    · rename_i success
      obtain ⟨id, _, edited⟩ := PlacementRef.editPin_ok sound.stocked.indexed.consistent success
      exact sound.repinned edited
    · exact sound.stays []
  | insert id scope =>
    exact sound.withPooled id fun found => sound.settled found fun inserted => ⟨scope, _, inserted⟩
  | insertAs view id scope =>
    exact sound.withPooled id fun found =>
      sound.settled found fun inserted => ⟨scope, _, (Index.insertAs_ok inserted).1⟩
  | remove id => exact sound.remove id
  | clearScope id => exact sound.clearScope id
  | clear => exact sound.clear
  | newRef name view => exact (sound.stays []).setRef (vouches_inactive view) fun _ held => nomatch held
  | cloneRef name copy =>
    exact (sound.stays []).setRef ((sound.stays []).sound.vouched name) fun _ held =>
      List.mem_append_right _ (mem_heldObjects held)
  | activate name source => exact sound.activate name source
  | attach name child view id => exact sound.withPooled id fun found => sound.attach found name child view
  | close name => exact (sound.stays []).close name
  | purge name => exact sound.purge name
  | dropRef name => exact (sound.stays []).dropRef name

theorem Keeps.trans {further : List PlacementId} {last : Workspace} (first : Keeps used more ws next)
    (second : Keeps (used ++ more) further next last) : Keeps used (more ++ further) ws last where
  sound := List.append_assoc used more further ▸ second.sound
  since placed known := first.since (second.since placed (List.mem_append_left _ known)) known

theorem foldl_keeps (sound : ws.Sound used) (calls : List WorkspaceCall)
    (fresh : (used ++ calls.flatMap WorkspaceCall.offered).Nodup) :
    Keeps used (calls.flatMap WorkspaceCall.offered) ws (calls.foldl step ws) := by
  induction calls generalizing used ws with
  | nil => exact sound.stays []
  | cons call rest ih =>
    rw [List.flatMap_cons] at fresh ⊢
    rw [← List.append_assoc] at fresh
    have first := step_keeps sound call (List.nodup_append.mp fresh).1
    exact first.trans (ih first.sound fresh)

theorem ofIndex_sound (maxPathDepth : Nat) (rootId : PlacementId) (root : MediaObject) :
    (ofIndex "index" maxPathDepth rootId root).Sound [rootId] where
  stocked :=
    { indexed := Index.ofRoot_sound ⟨rootId, ⟨0, root⟩, .empty⟩ maxPathDepth
      keyed := fun pooled => nomatch pooled
      known := fun pooled => nomatch pooled
      apart := fun pooled => nomatch pooled }
  accounts := by
    have empty : ({} : Ledger).Accounts [] := ⟨fun identity => rfl, nofun⟩
    exact empty.advance root
  vouched name := by
    have none : (ofIndex "index" maxPathDepth rootId root).ref name = .inactive .any := rfl
    rw [none]
    exact vouches_inactive .any

end Workspace

/-- No identity is given to two placements. -/
def WorkspaceCall.Fresh (rootId : PlacementId) (calls : List WorkspaceCall) : Prop :=
  (rootId :: calls.flatMap offered).Nodup

instance (rootId : PlacementId) (calls : List WorkspaceCall) : Decidable (WorkspaceCall.Fresh rootId calls) :=
  inferInstanceAs (Decidable (List.Nodup _))

theorem Workspace.run_sound (maxPathDepth : Nat) (rootId : PlacementId) (root : MediaObject)
    (calls : List WorkspaceCall) (fresh : WorkspaceCall.Fresh rootId calls) :
    (run maxPathDepth rootId root calls).Sound (rootId :: calls.flatMap WorkspaceCall.offered) :=
  (foldl_keeps (ofIndex_sound maxPathDepth rootId root) calls fresh).sound

namespace Trial

/-- Two placements of one object, the first of them inserted. -/
def stocking : List WorkspaceCall :=
  [.create track.id (.fork "track") [], .duplicate track.id part.id, .insert track.id root.id]

end Trial

end MediaSession
