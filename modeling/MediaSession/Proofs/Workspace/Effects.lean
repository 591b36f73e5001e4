import MediaSession.Proofs.Index.Independence
import MediaSession.Proofs.Workspace.Accounting

/-!
What calls on a workspace leave behind if they succeed: the index changed by one call on it, the pool without the
placement handed over, and one reference led elsewhere.
-/
namespace MediaSession

namespace IndexCall
variable {index after : Index} {id scope : PlacementId}

theorem performs_of_insert {placement : Placement} (success : index.insert placement scope = .ok (after, id)) :
    Performs index (.insert placement scope) after := by
  have performs := performs_insert index placement scope
  obtain ⟨registered, _, rfl⟩ := Index.insert_ok success
  have registered : index.contains scope = true := registered
  rw [perform_insert, if_pos registered] at performs
  exact performs

/-- To purge a reference is to clear the scope it leads to, which does nothing if that is not registered. -/
theorem performs_of_purge (valid : index.table.Consistent) {reference : ObjectRef} {removed : List Placement}
    {count : Nat} (bound : reference.id = some id) (success : reference.purge index = .ok (after, removed, count)) :
    Performs index (.clearScope id) after := by
  have performs := performs_clearScope valid id
  rw [ObjectRef.purge, bound] at success
  dsimp only at success
  split at success
  · rw [perform_clearScope_ok success] at performs
    exact performs
  · rename_i missing
    cases success
    rw [perform_clearScope_error (clearScope_missing valid missing)] at performs
    exact performs

end IndexCall

theorem ObjectRef.purge_ok (reference : ObjectRef) (index : Index) :
    ∃ after removed count, reference.purge index = .ok (after, removed, count) := by
  unfold purge
  split
  · split
    · rename_i registered
      exact Index.clearScope_registered registered
    · exact ⟨_, _, _, rfl⟩
  · exact ⟨_, _, _, rfl⟩

namespace Workspace
variable {α : Type} {ws next : Workspace} {used : List PlacementId} {after : Index} {change : Option IndexCall}
  {taken : Option Placement} {led : Option (String × ObjectRef)} {placement : Placement}
  {id scope : PlacementId} {name : String}

/-- A call that succeeds, with what it does to the index, the placement handed over in it, and the reference it sets. -/
inductive Succeeds (ws : Workspace) :
    WorkspaceCall → Option IndexCall → Option Placement → Option (String × ObjectRef) → Prop where
  | insert {id scope : PlacementId} {placement : Placement} (pooled : ws.pool[id]? = some placement)
      (success : (ws.insert placement scope).1 = .ok ()) :
      Succeeds ws (.insert id scope) (some (.insert placement scope)) (some placement) none
  | insertAs {view : ViewType} {id scope : PlacementId} {placement : Placement} (pooled : ws.pool[id]? = some placement)
      (success : (ws.insertAs view placement scope).1 = .ok ()) :
      Succeeds ws (.insertAs view id scope) (some (.insert placement scope)) (some placement) none
  | remove {id : PlacementId} {present : Bool} (success : (ws.remove id).1 = .ok present) :
      Succeeds ws (.remove id) (some (.remove id)) none none
  | clearScope {id : PlacementId} {count : Nat} (success : (ws.clearScope id).1 = .ok count) :
      Succeeds ws (.clearScope id) (some (.clearScope id)) none none
  | activate {name : String} {id : PlacementId} {placement : Placement} (found : ws.index.find id = .ok placement)
      (success : (ws.activate name (.ok id)).1 = .ok ()) :
      Succeeds ws (.activate name (.ok id)) none none (some (name, .active (ws.ref name).view id placement.object))
  | attach {name child : String} {view : ViewType} {id scope : PlacementId} {placement : Placement}
      (pooled : ws.pool[id]? = some placement) (bound : (ws.ref name).id = some scope)
      (success : (ws.attach name child view placement).1 = .ok ()) :
      Succeeds ws (.attach name child view id) (some (.insert placement scope)) (some placement)
        (some (child, .active view placement.id placement.object))
  | purge {name : String} {id : PlacementId} (bound : (ws.ref name).id = some id) :
      Succeeds ws (.purge name) (some (.clearScope id)) none (some (name, .inactive (ws.ref name).view))
  | purgeInactive {name : String} (unbound : (ws.ref name).id = none) :
      Succeeds ws (.purge name) none none (some (name, .inactive (ws.ref name).view))

/-- Nothing is different but what a call on the index changes, a placement that waits no longer, and a reference. -/
structure Becomes (ws next : Workspace) (change : Option IndexCall) (taken : Option Placement)
    (led : Option (String × ObjectRef)) : Prop where
  performs : ∀ call, change = some call → IndexCall.Performs ws.index call next.index
  unchanged : change = none → next.context = ws.context
  pool : ∀ id : PlacementId, next.pool[id]? = if taken.any (·.id = id) then none else ws.pool[id]?
  leads : ∀ name reference, led = some (name, reference) → next.ref name = reference
  others : ∀ name, (∀ reference, led ≠ some (name, reference)) → next.ref name = ws.ref name

theorem Becomes.setRef (becomes : ws.Becomes next change taken none) (name : String) (reference : ObjectRef) :
    ws.Becomes (next.setRef name reference) change taken (some (name, reference)) where
  performs := becomes.performs
  unchanged := becomes.unchanged
  pool := becomes.pool
  leads other set same := by
    cases same
    exact (ref_setRef ..).trans (if_pos rfl)
  others other apart := by
    have elsewhere : name ≠ other := by
      rintro rfl
      exact apart reference rfl
    rw [ref_setRef, if_neg elsewhere]
    exact becomes.others other fun _ same => by cases same

theorem becomes_self (ws : Workspace) : ws.Becomes ws none none none where
  performs _ same := by cases same
  unchanged _ := rfl
  pool _ := rfl
  leads _ _ same := by cases same
  others _ _ := rfl

theorem becomes_settled {told : α} (inserted : ws.index.insert placement scope = .ok (after, id)) :
    ws.Becomes (ws.settle placement (.ok (after, told))).2 (some (.insert placement scope)) (some placement) none where
  performs call same := by
    cases same
    rw [settle, done, index_withIndex]
    exact IndexCall.performs_of_insert inserted
  unchanged same := by cases same
  pool other := by simp [settle, done, withIndex, Std.TreeMap.getElem?_erase]
  leads _ _ same := by cases same
  others _ _ := rfl

theorem becomes_removed {call : IndexCall} {removed : List Placement}
    (performs : IndexCall.Performs ws.index call after) :
    ws.Becomes (ws.withRemoved after removed) (some call) none none where
  performs other same := by
    cases same
    have behind : (ws.withRemoved after removed).index = after := index_withIndex ws after
    rw [behind]
    exact performs
  unchanged same := by cases same
  pool _ := rfl
  leads _ _ same := by cases same
  others _ _ := rfl

theorem becomes_inserted {insertion : Except SessionError (Index × α)}
    (inserts : ∀ {after told}, insertion = .ok (after, told) →
      ∃ id, ws.index.insert placement scope = .ok (after, id)) (success : (ws.settle placement insertion).1 = .ok ()) :
    ws.Becomes (ws.settle placement insertion).2 (some (.insert placement scope)) (some placement) none := by
  cases insertion with
  | error => cases success
  | ok outcome =>
    obtain ⟨id, inserted⟩ := inserts rfl
    exact becomes_settled inserted

theorem Sound.becomes_remove (sound : ws.Sound used) {present : Bool} (success : (ws.remove id).1 = .ok present) :
    ws.Becomes (ws.remove id).2 (some (.remove id)) none none := by
  unfold Workspace.remove at success ⊢
  split at success
  · cases success
  · rename_i removed
    have valid : ws.index.table.Consistent := sound.stocked.indexed.consistent
    have performs := IndexCall.performs_remove valid id
    rw [IndexCall.perform_remove_ok removed] at performs
    exact becomes_removed performs

theorem Sound.becomes_clearScope (sound : ws.Sound used) {count : Nat} (success : (ws.clearScope id).1 = .ok count) :
    ws.Becomes (ws.clearScope id).2 (some (.clearScope id)) none none := by
  unfold Workspace.clearScope at success ⊢
  split at success
  · cases success
  · rename_i cleared
    have valid : ws.index.table.Consistent := sound.stocked.indexed.consistent
    have performs := IndexCall.performs_clearScope valid id
    rw [IndexCall.perform_clearScope_ok cleared] at performs
    exact becomes_removed performs

theorem Sound.becomes_activate (sound : ws.Sound used) (found : ws.index.find id = .ok placement)
    (success : (ws.activate name (.ok id)).1 = .ok ()) :
    ws.Becomes (ws.activate name (.ok id)).2 none none
      (some (name, .active (ws.ref name).view id placement.object)) := by
  rcases ws.activate_cases name (.ok id) with ⟨_, led, asked, result, done⟩ | ⟨error, failed⟩
  · cases asked
    obtain ⟨other, present, rfl, _⟩ := sound.activated result
    cases found.symm.trans present
    rw [done]
    exact ws.becomes_self.setRef name (.active (ws.ref name).view id placement.object)
  · rw [failed] at success
    cases success

theorem becomes_attach {child : String} {view : ViewType} (bound : (ws.ref name).id = some scope)
    (success : (ws.attach name child view placement).1 = .ok ()) :
    ws.Becomes (ws.attach name child view placement).2 (some (.insert placement scope)) (some placement)
      (some (child, .active view placement.id placement.object)) := by
  rcases ws.attach_cases name child view placement with ⟨_, after, led, inserted, _, done⟩ | ⟨error, failed⟩
  · cases bound.symm.trans led
    rw [done]
    exact (becomes_settled inserted).setRef child (.active view placement.id placement.object)
  · rw [failed] at success
    cases success

theorem Sound.becomes_purge (sound : ws.Sound used) (bound : (ws.ref name).id = some id) :
    ws.Becomes (ws.purge name).2 (some (.clearScope id)) none (some (name, .inactive (ws.ref name).view)) := by
  obtain ⟨after, removed, count, success⟩ := (ws.ref name).purge_ok ws.index
  have valid : ws.index.table.Consistent := sound.stocked.indexed.consistent
  rw [Workspace.purge, success]
  exact (becomes_removed (IndexCall.performs_of_purge valid bound success)).setRef name (.inactive (ws.ref name).view)

theorem becomes_purgeInactive (unbound : (ws.ref name).id = none) :
    ws.Becomes (ws.purge name).2 none none (some (name, .inactive (ws.ref name).view)) := by
  have nothing : ws.withRemoved ws.index [] = ws := ws.withIndex_self
  rw [Workspace.purge, ObjectRef.purge, unbound]
  dsimp only
  rw [nothing]
  exact ws.becomes_self.setRef name (.inactive (ws.ref name).view)

theorem Sound.becomes_step (sound : ws.Sound used) {call : WorkspaceCall}
    (succeeds : ws.Succeeds call change taken led) : ws.Becomes (ws.step call) change taken led := by
  cases succeeds with
  | insert pooled success =>
    rw [step, Workspace.withPooled, pooled]
    exact becomes_inserted (fun inserted => ⟨_, inserted⟩) success
  | insertAs pooled success =>
    rw [step, Workspace.withPooled, pooled]
    exact becomes_inserted (fun inserted => ⟨_, (Index.insertAs_ok inserted).1⟩) success
  | remove success => exact sound.becomes_remove success
  | clearScope success => exact sound.becomes_clearScope success
  | activate found success => exact sound.becomes_activate found success
  | attach pooled bound success =>
    rw [step, Workspace.withPooled, pooled]
    exact becomes_attach bound success
  | purge bound => exact sound.becomes_purge bound
  | purgeInactive unbound => exact becomes_purgeInactive unbound

end Workspace

end MediaSession
