import MediaSession.Proofs.Focus.Run

/-!
The root of an index and the reference to it. No call takes the root out or puts another object there, whatever becomes
of the rest of the tables. So the reference that an index hands out for its root is worth at any time what it was worth
at first, and that lies in the object the index was made around.
-/
namespace MediaSession

namespace Table

/-- The root is the placement the tables were made around, but for its pin, and no member list names it. -/
structure HasRoot (table : Table) (root : Placement) : Prop where
  root_eq : table.root = root.id
  placed : ∃ entry, table.entry? root.id = some entry ∧ entry.placement.id = root.id ∧
    entry.placement.object = root.object
  unlisted : ∀ scope, root.id ∉ table.members scope

variable {table : Table} {root : Placement}

theorem ofRoot_hasRoot (root : Placement) : (ofRoot root).HasRoot root where
  root_eq := rfl
  placed := ⟨_, by rw [entry?_ofRoot, if_pos rfl], rfl, rfl⟩
  unlisted scope := by simp

namespace HasRoot

theorem add (holds : table.HasRoot root) {placement : Placement} (other : placement.id ≠ root.id)
    (scope : PlacementId) : (table.add placement scope).HasRoot root where
  root_eq := holds.root_eq
  placed := by
    rw [entry?_add, if_neg other]
    exact holds.placed
  unlisted within := by
    rw [members_add]
    split
    · intro listed
      rcases List.mem_append.mp listed with before | last
      · exact holds.unlisted scope before
      · exact other (List.mem_singleton.mp last).symm
    · exact holds.unlisted within

theorem editPin (holds : table.HasRoot root) (id : PlacementId) (edits : List PinEdit) :
    (table.editPin id edits).HasRoot root where
  root_eq := by simpa using holds.root_eq
  placed := by
    obtain ⟨entry, found, key, same⟩ := holds.placed
    rw [entry?_editPin, found]
    split
    · exact ⟨_, rfl, key, same⟩
    · exact ⟨entry, rfl, key, same⟩
  unlisted scope := by simpa using holds.unlisted scope

theorem removeEntry (holds : table.HasRoot root) {id : PlacementId} (other : id ≠ root.id) (scope : PlacementId) :
    (table.removeEntry id scope).HasRoot root where
  root_eq := by simpa using holds.root_eq
  placed := by
    rw [entry?_removeEntry, if_neg other]
    exact holds.placed
  unlisted within := by
    by_cases here : scope = within
    · subst here
      rw [(members_removeEntry_perm ..).mem_iff]
      exact fun listed => holds.unlisted scope (List.mem_of_mem_erase listed)
    · rw [members_removeEntry_of_ne table here]
      exact holds.unlisted within

/-- What no list names is below no scope. -/
theorem not_below (holds : table.HasRoot root) (scope : PlacementId) : ¬ table.Below scope root.id := by
  intro below
  obtain ⟨last, _, listed⟩ := Relation.TransGen.tail'_iff.mp below
  exact holds.unlisted last listed

theorem removeBelow (holds : table.HasRoot root) (scope : PlacementId) :
    (table.removeBelow scope).1.HasRoot root := by
  obtain ⟨cut, lost, sameEntries, sameRoot, swept⟩ := table.removeBelow_swept scope
  refine ⟨swept.root_eq.trans (sameRoot.trans holds.root_eq), ?_, fun within listed => ?_⟩
  · rw [swept.entry_kept (holds.not_below scope), entry?, sameEntries]
    exact holds.placed
  · rw [members_eq] at listed
    by_cases below : table.Below scope within
    · rw [swept.contents_gone below] at listed
      cases listed
    · rw [swept.contents_kept below, ← members_eq] at listed
      exact holds.unlisted within (lost.lists listed)

theorem removeAll (holds : table.HasRoot root) {scope : PlacementId} (other : scope ≠ root.id) :
    (table.removeAll scope).1.HasRoot root := by
  unfold Table.removeAll
  split
  · exact holds
  · dsimp only
    split
    · exact holds.removeBelow scope
    · exact (holds.removeBelow scope).removeEntry other _

end HasRoot

end Table

section Calls
variable {index after : Index} {root : Placement}

theorem Index.clearScope_hasRoot (holds : index.table.HasRoot root) {id : PlacementId} {removed : List Placement}
    {count : Nat} (success : index.clearScope id = .ok (after, removed, count)) : after.table.HasRoot root := by
  unfold clearScope at success
  split at success
  · have result : after = index.clear.1 := congrArg Prod.fst (Except.ok.inj success).symm
    rw [result]
    exact holds.removeBelow index.rootId
  · rename_i inner
    split at success
    · cases success
      exact holds.removeAll (holds.root_eq ▸ inner)
    · cases success

/-- A call that hands over no placement under the identity of the root leaves the root where it is. -/
theorem Mutation.apply_hasRoot {mutation : Mutation} {event : Option Event} (holds : index.table.HasRoot root)
    (apart : root.id ∉ mutation.offered) (success : mutation.apply index = .ok (after, event)) :
    after.table.HasRoot root := by
  have added {placement : Placement} {scope : PlacementId} (offers : placement.id ∈ mutation.offered)
      (inserted : index.insert placement scope = .ok (after, placement.id)) : after.table.HasRoot root := by
    obtain ⟨_, _, rfl⟩ := Index.insert_ok inserted
    exact holds.add (fun same => apart (same ▸ offers)) scope
  have edited {id : PlacementId} {edits : List PinEdit} (edited : index.editPin id edits = .ok after) :
      after.table.HasRoot root := by
    obtain ⟨_, rfl⟩ := Index.editPin_ok edited
    exact holds.editPin id edits
  cases mutation with
  | insert placement scope =>
    obtain ⟨⟨next, id⟩, inserted, same⟩ := bind_ok_iff.mp success
    cases same
    obtain ⟨_, rfl, _⟩ := Index.insert_ok inserted
    exact added (List.mem_singleton_self _) inserted
  | insertAs view placement scope =>
    obtain ⟨⟨next, reference⟩, inserted, same⟩ := bind_ok_iff.mp success
    cases same
    exact added (List.mem_singleton_self _) (Index.insertAs_ok inserted).1
  | attach reference view placement =>
    obtain ⟨child, attached, same⟩ := bind_ok_iff.mp success
    cases same
    obtain ⟨scope, _, inserted, _⟩ := ObjectRef.attach_ok attached
    exact added (List.mem_singleton_self _) inserted
  | remove id =>
    obtain ⟨⟨next, removed⟩, succeeded, same⟩ := bind_ok_iff.mp success
    cases same
    obtain ⟨inner, ⟨rfl, _⟩ | ⟨entry, _, _, _, rfl⟩⟩ := Index.remove_ok succeeded
    · exact holds
    · exact holds.removeEntry (holds.root_eq ▸ inner) entry.scope
  | clearScope id =>
    obtain ⟨⟨next, removed, count⟩, cleared, same⟩ := bind_ok_iff.mp success
    cases same
    exact Index.clearScope_hasRoot holds cleared
  | purge reference =>
    obtain ⟨⟨next, removed, count⟩, purged, same⟩ := bind_ok_iff.mp success
    cases same
    unfold ObjectRef.purge at purged
    split at purged
    · split at purged
      · exact Index.clearScope_hasRoot holds purged
      · cases purged
        exact holds
    · cases purged
      exact holds
  | clear =>
    cases success
    exact holds.removeBelow index.rootId
  | editPin id edits =>
    obtain ⟨next, changed, same⟩ := bind_ok_iff.mp success
    cases same
    exact edited changed
  | editPinThrough reference edits =>
    obtain ⟨next, changed, same⟩ := bind_ok_iff.mp success
    cases same
    obtain ⟨placement, _, changed⟩ := bind_ok_iff.mp changed
    exact edited changed

end Calls

/-- What an index hands out for its root shows the root exactly if that can be viewed as a model root. -/
theorem Index.resolve_rootRef {index : Index} {root : Placement} (holds : index.table.HasRoot root) :
    ∃ placement, index.find index.rootId = .ok placement ∧ placement.id = root.id ∧ placement.object = root.object ∧
      index.rootRef.resolve index =
        if root.admits .root then .ok placement
        else .error (.typeMismatch root.id .root root.object.content) := by
  obtain ⟨entry, found, key, same⟩ := holds.placed
  have rooted : index.rootId = root.id := holds.root_eq
  have here : index.find index.rootId = .ok entry.placement := by rw [rooted, find, found]
  have admits : entry.placement.admits .root = root.admits .root := by rw [Placement.admits, same, Placement.admits]
  refine ⟨entry.placement, here, key, same, ?_⟩
  change index.findAs .root index.rootId = _
  rw [findAs, here]
  simp only [bind, Except.bind, admits, same, rooted]
  rfl

theorem Recorded.run_hasRoot (root : Placement) (maxPathDepth : Nat) (mutations : List Mutation)
    (apart : root.id ∉ mutations.flatMap Mutation.offered) :
    (run root maxPathDepth mutations).index.table.HasRoot root := by
  have initial : (Recorded.mk (.ofRoot root maxPathDepth) []).index.table.HasRoot root := Table.ofRoot_hasRoot root
  refine List.foldlRecOn (motive := fun state => state.index.table.HasRoot root) mutations step initial ?_
  intro state holds mutation member
  have other : root.id ∉ mutation.offered := fun offers => apart (List.mem_flatMap.mpr ⟨mutation, member, offers⟩)
  unfold step
  split
  · rename_i success
    exact mutation.apply_hasRoot holds other success
  · exact holds

theorem LiveSession.run_hasRoot (config : SessionConfig) (root : Placement) (calls : List SessionCall)
    (apart : root.id ∉ calls.flatMap SessionCall.offered) :
    (calls.foldl step (start config root)).index.table.HasRoot root := by
  have initial : (start config root).index.table.HasRoot root := Table.ofRoot_hasRoot root
  refine List.foldlRecOn (motive := fun live => live.index.table.HasRoot root) calls step initial ?_
  intro live holds call member
  have other : root.id ∉ call.offered := fun offers => apart (List.mem_flatMap.mpr ⟨call, member, offers⟩)
  rcases live.index_step call with same | ⟨mutation, event, offers, success⟩
  · rw [same]
    exact holds
  · exact mutation.apply_hasRoot holds (offers ▸ other) success

/-- Whatever was done to an index, its root is where it was, and the reference handed out for it resolves to it exactly
if the index was made around a model root, as that of a session is. -/
theorem run_resolves_root (root : Placement) :
    (∀ (maxPathDepth : Nat) (mutations : List Mutation), root.id ∉ mutations.flatMap Mutation.offered →
      let index := (Recorded.run root maxPathDepth mutations).index
      ∃ placement, index.find index.rootId = .ok placement ∧ placement.id = root.id ∧ placement.object = root.object ∧
        index.rootRef.resolve index =
          if root.admits .root then .ok placement
          else .error (.typeMismatch root.id .root root.object.content)) ∧
    ∀ (config : SessionConfig) (calls : List SessionCall), root.object.content = .root config.rootName →
      root.id ∉ calls.flatMap SessionCall.offered →
      let index := (calls.foldl LiveSession.step (.start config root)).index
      ∃ placement, index.rootRef.resolve index = .ok placement ∧ placement.id = root.id ∧
        placement.object = root.object := by
  constructor
  · intro maxPathDepth mutations apart
    exact Index.resolve_rootRef (Recorded.run_hasRoot root maxPathDepth mutations apart)
  · intro config calls named apart index
    obtain ⟨placement, _, key, same, resolved⟩ :=
      Index.resolve_rootRef (LiveSession.run_hasRoot config root calls apart)
    have admits : root.admits .root = true := by
      rw [Placement.admits, named]
      rfl
    rw [if_pos admits] at resolved
    exact ⟨placement, resolved, key, same⟩

namespace Trial

/-- The root of a session with the default configuration. -/
def sessionRoot : Placement := { id := track.id, object := ⟨0, .root "model-root"⟩ }

end Trial

/-- A fork and a model root at the root, each after a run that tries to take the root out. -/
theorem run_resolves_root_trial :
    let calls : List Mutation :=
      [.insert Trial.part Trial.track.id, .remove Trial.track.id, .clearScope Trial.track.id, .clear]
    let forked := (Recorded.run Trial.track 8 calls).index
    let session := ((calls.map SessionCall.mutate).foldl LiveSession.step (.start {} Trial.sessionRoot)).index
    forked.rootRef.resolve forked = .error (.typeMismatch Trial.track.id .root (.fork "track")) ∧
      ∃ placement, session.rootRef.resolve session = .ok placement ∧
        placement.object = ⟨0, .root "model-root"⟩ := by
  intro calls forked session
  obtain ⟨_, _, _, _, refused⟩ := (run_resolves_root Trial.track).1 8 calls (by decide)
  obtain ⟨placement, resolved, _, same⟩ :=
    (run_resolves_root Trial.sessionRoot).2 {} (calls.map .mutate) rfl (by decide)
  exact ⟨refused, placement, resolved, same⟩

/-- An index around a fork hands out a reference to a model root that does not resolve. -/
theorem root_of_fork_refused :
    let index := (Recorded.run Trial.track 8 []).index
    index.rootRef = ⟨.root, some Trial.track.id⟩ ∧ index.contains Trial.track.id = true ∧
      index.rootRef.resolve index = .error (.typeMismatch Trial.track.id .root (.fork "track")) := by
  refine ⟨rfl, by decide +kernel, rfl⟩

end MediaSession
