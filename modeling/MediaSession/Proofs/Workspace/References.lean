import MediaSession.Proofs.Index.History
import MediaSession.Proofs.Workspace.Sound

/-!
References whose type was checked once, over everything that happens to the index later. Such a reference is good
exactly while its identity is registered, and then shows the object it was checked against.
-/
namespace MediaSession

/-- What a reference to an identity does on an index, given the object it is to show. -/
structure PlacementRef.Follows (reference : PlacementRef) (index : Index) (id : PlacementId)
    (object : SharedObject) : Prop where
  bound : reference.id = some id
  shows : index.contains id = true →
    ∃ placement, reference.resolve index = .ok placement ∧ placement.id = id ∧ placement.object = object
  edits : index.contains id = true → ∀ edits, ∃ placement after, reference.resolve index = .ok placement ∧
    reference.editPin index edits = .ok after ∧ reference.resolve after = .ok (placement.repinned edits)
  dangles : index.contains id ≠ true → reference.resolve index = .error (.notInSession id) ∧
    ∀ edits, reference.editPin index edits = .error (.notInSession id)

namespace Index
variable {index : Index} {view : ViewType} {id : PlacementId}

theorem findAs_admitted {placement : Placement} (found : index.find id = .ok placement)
    (admits : placement.admits view = true) : index.findAs view id = .ok placement := by
  refine bind_ok_iff.mpr ⟨placement, found, ?_⟩
  rw [if_pos admits]
  rfl

theorem findAs_ok_iff {placement : Placement} :
    index.findAs view id = .ok placement ↔ index.find id = .ok placement ∧ placement.admits view = true := by
  refine ⟨fun success => ⟨findAs_ok success, ?_⟩, fun ⟨found, admits⟩ => findAs_admitted found admits⟩
  obtain ⟨present, _, admitted⟩ := bind_ok_iff.mp success
  split at admitted
  · rename_i admits
    cases admitted
    exact admits
  · cases admitted

theorem findAs_missing (missing : index.contains id ≠ true) :
    index.findAs view id = .error (.notInSession id) := by
  rw [findAs, find_missing missing]
  rfl

theorem findAs_editPin {placement : Placement} (found : index.findAs view id = .ok placement) (edits : List PinEdit) :
    findAs { index with table := index.table.editPin id edits } view id = .ok (placement.repinned edits) := by
  obtain ⟨here, admits⟩ := findAs_ok_iff.mp found
  obtain ⟨entry, present, rfl⟩ := find_ok here
  refine findAs_ok_iff.mpr ⟨?_, admits⟩
  rw [find, Table.entry?_editPin, if_pos rfl, present, Option.map_some, Placement.edit_eq]

end Index

namespace Workspace
variable {ws next : Workspace} {used : List PlacementId} {reference : PlacementRef} {object : SharedObject}
  {view : ViewType} {id : PlacementId}

/-- With nothing but the object placed under the identity, and a type that admits the object, a reference follows
its placement. -/
theorem Sound.follows (sound : ws.Sound used) (vouches : ws.Vouches used (.active view id object)) :
    PlacementRef.Follows ⟨view, some id⟩ ws.index id object := by
  obtain ⟨_, admits, only⟩ := vouches _ rfl
  have found (registered : ws.index.contains id = true) :
      ∃ placement, ws.index.findAs view id = .ok placement ∧ placement.id = id ∧ placement.object = object := by
    obtain ⟨entry, present⟩ := (Table.contains_iff _ id).mp registered
    have same := only entry.placement.object (.inr ⟨entry, present, rfl⟩)
    have key := sound.stocked.indexed.consistent.keyed present
    have here : ws.index.find id = .ok entry.placement := by rw [Index.find, present]
    refine ⟨entry.placement, Index.findAs_admitted here ?_, key, same⟩
    rw [Placement.admits, same]
    exact admits
  refine ⟨rfl, found, fun registered edits => ?_, fun missing => ⟨Index.findAs_missing missing, fun edits => ?_⟩⟩
  · obtain ⟨placement, resolved, key, _⟩ := found registered
    have present := Index.findAs_ok resolved
    refine ⟨placement, { ws.index with table := ws.index.table.editPin id edits }, resolved, ?_, ?_⟩
    · refine bind_ok_iff.mpr ⟨placement, resolved, ?_⟩
      rw [key]
      exact bind_ok_iff.mpr ⟨placement, present, rfl⟩
    · exact Index.findAs_editPin resolved edits
  · have dangles : PlacementRef.resolve ws.index ⟨view, some id⟩ = .error (.notInSession id) :=
      Index.findAs_missing missing
    rw [PlacementRef.editPin, dangles]
    rfl

/-- A reference obtained from a workspace, the object it was checked against, and the workspace afterwards. -/
inductive Obtained (ws : Workspace) : PlacementRef → SharedObject → Workspace → Prop where
  | bind {view : ViewType} {id : PlacementId} {reference : PlacementRef} {placement : Placement}
      (checked : PlacementRef.bind ws.index view id = .ok reference) (found : ws.index.find id = .ok placement) :
      Obtained ws reference placement.object ws
  | ofPlacement {view : ViewType} {placement : Placement} {reference : PlacementRef}
      (placed : placement ∈ ws.stock.placements)
      (checked : PlacementRef.ofPlacement view placement = .ok reference) :
      Obtained ws reference placement.object ws
  | recast {view : ViewType} {given reference : PlacementRef} {id : PlacementId} {placement : Placement}
      (checked : given.recast ws.index view = .ok reference) (asked : given.id = some id)
      (found : ws.index.find id = .ok placement) : Obtained ws reference placement.object ws
  | insertAs {view : ViewType} {placement : Placement} {scope : PlacementId}
      (pooled : ws.pool[placement.id]? = some placement)
      (success : (ws.insertAs view placement scope).1 = .ok ()) :
      Obtained ws ⟨view, some placement.id⟩ placement.object (ws.insertAs view placement scope).2
  | ofOwner {name : String} {held : Activation} (active : (ws.ref name).held = some held) :
      Obtained ws (ws.ref name).placementRef held.object ws

/-- Whatever way it came, a checked reference has an identity, and its type admits the one object placed there. -/
def Checked (ws : Workspace) (used : List PlacementId) (reference : PlacementRef) (object : SharedObject) : Prop :=
  ∃ id, reference.id = some id ∧ ws.Vouches used (.active reference.view id object)

theorem Sound.checked_of_bind (sound : ws.Sound used) {placement : Placement}
    (checked : PlacementRef.bind ws.index view id = .ok reference) (found : ws.index.find id = .ok placement) :
    ws.Checked used reference placement.object := by
  obtain ⟨present, resolved, same⟩ := bind_ok_iff.mp checked
  cases same
  obtain ⟨here, admits⟩ := Index.findAs_ok_iff.mp resolved
  cases here.symm.trans found
  exact ⟨id, rfl, vouches_of_places sound.stocked (places_of_find found) admits⟩

theorem Sound.vouches_held (sound : ws.Sound used) {name : String} {held : Activation}
    (active : (ws.ref name).held = some held) : ws.Vouches used (.active (ws.ref name).view held.id held.object) := by
  rw [← ObjectRef.eq_active_of_held active]
  exact sound.vouched name

theorem Sound.checked (sound : ws.Sound used) (obtained : ws.Obtained reference object next) :
    next.Sound used ∧ next.Checked used reference object := by
  cases obtained with
  | bind checked found => exact ⟨sound, sound.checked_of_bind checked found⟩
  | @ofPlacement view placement reference placed checked =>
    unfold PlacementRef.ofPlacement at checked
    split at checked
    · rename_i admits
      cases checked
      exact ⟨sound, placement.id, rfl, vouches_of_places sound.stocked (sound.stocked.places_of_mem placed) admits⟩
    · cases checked
  | recast checked asked found =>
    obtain ⟨id, located, bound⟩ := bind_ok_iff.mp checked
    rw [PlacementRef.locate, asked] at located
    cases located
    exact ⟨sound, sound.checked_of_bind bound found⟩
  | @insertAs view placement scope pooled success =>
    cases inserted : ws.index.insertAs view placement scope with
    | error =>
      rw [insertAs, inserted] at success
      cases success
    | ok told =>
      obtain ⟨after, reference⟩ := told
      have plain := (Index.insertAs_ok inserted).1
      have settled : Keeps used [] ws (ws.settle placement (.ok (after, reference))).2 := by
        refine sound.settled pooled fun same => ⟨scope, placement.id, ?_⟩
        cases same
        exact plain
      have kept := settled.sound
      rw [List.append_nil] at kept
      have admits : placement.admits view = true := by
        unfold Index.insertAs at inserted
        split at inserted
        · assumption
        · cases inserted
      rw [insertAs, inserted]
      exact ⟨kept, placement.id, rfl, vouches_of_places kept.stocked (places_settled plain) admits⟩
  | @ofOwner name held active =>
    refine ⟨sound, held.id, ?_, sound.vouches_held active⟩
    rw [ObjectRef.eq_active_of_held active]
    rfl

end Workspace

namespace Trial

/-- The scope of a placement goes, and with it what was inserted there under a type. -/
def later : List WorkspaceCall :=
  [.insertAs .fork part.id track.id, .editPin part.id [.push (.wiring "left")], .clearScope track.id]

end Trial

end MediaSession
