import MediaSession.Proofs.Index.Calls
import MediaSession.Proofs.Table.Values

/-!
No registered placement is lost or doubled. Whatever a removal hands out together with what it leaves is what was
registered before, on any tables.
-/
namespace MediaSession
namespace Table
variable {table : Table} {id : PlacementId}

/-- All that is registered, the root included. -/
def placements (table : Table) : List Placement := (valuesOf table.entries).map Entry.placement

theorem mem_placements_iff {placement : Placement} :
    placement ∈ table.placements ↔ ∃ id entry, table.entry? id = some entry ∧ entry.placement = placement := by
  simp only [placements, List.mem_map, mem_valuesOf_iff, Table.entry?]
  constructor
  · rintro ⟨entry, ⟨id, found⟩, same⟩
    exact ⟨id, entry, found, same⟩
  · rintro ⟨id, entry, found, same⟩
    exact ⟨entry, ⟨id, found⟩, same⟩

theorem length_placements (table : Table) : table.placements.length = table.size := by
  simp [placements, valuesOf, Std.TreeMap.length_toList, size]

/-- What is registered under one identity, and what under the others. -/
theorem placements_perm_erase (rest : Table) (left : rest.entries = table.entries.erase id) :
    table.placements.Perm ((table.entry? id).toList.map Entry.placement ++ rest.placements) := by
  have split := (valuesOf_perm_erase table.entries id).map Entry.placement
  rw [List.map_append, ← left] at split
  exact split

theorem placements_add {placement : Placement} (fresh : table.contains placement.id ≠ true) (scope : PlacementId) :
    (table.add placement scope).placements.Perm (placement :: table.placements) := by
  have before := placements_perm_erase { table with entries := table.entries.erase placement.id } rfl
  rw [entry?_eq_none fresh] at before
  have after := (valuesOf_insert_perm table.entries placement.id ⟨placement, scope⟩).map Entry.placement
  exact after.trans (before.symm.cons placement)

/-- An edit of a pin leaves every placement its object. -/
theorem objects_editPin (table : Table) (id : PlacementId) (edits : List PinEdit) :
    ((table.editPin id edits).placements.map Placement.object).Perm (table.placements.map Placement.object) := by
  unfold editPin
  split
  · rfl
  · rename_i entry found
    have before := placements_perm_erase { table with entries := table.entries.erase id } rfl
    rw [found] at before
    have after := (valuesOf_insert_perm table.entries id
      { entry with placement := entry.placement.edit edits }).map Entry.placement
    exact (after.map Placement.object).trans (before.map Placement.object).symm

theorem entries_dropMember (table : Table) (scope id : PlacementId) :
    (table.dropMember scope id).entries = table.entries := by
  unfold dropMember
  split
  · rfl
  · dsimp only
    split <;> rfl

theorem placements_removeEntry {entry : Entry} (found : table.entry? id = some entry) (scope : PlacementId) :
    (entry.placement :: (table.removeEntry id scope).placements).Perm table.placements := by
  have left := entries_dropMember { table with entries := table.entries.erase id } scope id
  have split := placements_perm_erase (table.removeEntry id scope) left
  rw [found] at split
  exact split.symm

/-- Induction over the fuel; what was removed so far and what is still registered stay the same together. -/
theorem placements_sweep (fuel : Nat) (table : Table) (pending : List PlacementId) (removed : List Placement) :
    ((sweep fuel table pending removed).2 ++ (sweep fuel table pending removed).1.placements).Perm
      (removed ++ table.placements) := by
  induction fuel generalizing table pending removed with
  | zero => cases pending <;> exact .refl _
  | succ fuel ih =>
    cases pending with
    | nil => exact .refl _
    | cons id pending =>
      rw [sweep]
      refine (ih _ _ _).trans ?_
      have split := placements_perm_erase (table.takeOut id) rfl
      cases found : table.entry? id with
      | none =>
        rw [found] at split
        exact split.symm.append_left removed
      | some entry =>
        rw [found] at split
        exact List.perm_middle.symm.trans (split.symm.append_left removed)

theorem placements_removeBelow (table : Table) (scope : PlacementId) :
    ((table.removeBelow scope).2 ++ (table.removeBelow scope).1.placements).Perm table.placements :=
  placements_sweep table.memberships { table with contents := table.contents.erase scope }
    (table.members scope).reverse []

theorem placements_removeAll (table : Table) (scope : PlacementId) :
    ((table.removeAll scope).2.1 ++ (table.removeAll scope).1.placements).Perm table.placements := by
  have below := placements_removeBelow table scope
  unfold removeAll
  split
  · rfl
  · dsimp only
    split
    · exact below
    · rename_i entry found
      have last := placements_removeEntry found entry.scope
      refine List.Perm.trans ?_ below
      exact List.perm_middle.symm.trans (last.append_left _)

end Table

namespace Index
variable {index after : Index}

theorem placements_remove {id : PlacementId} {removed : Option Placement}
    (success : index.remove id = .ok (after, removed)) :
    (removed.toList ++ after.table.placements).Perm index.table.placements := by
  obtain ⟨_, ⟨rfl, rfl, _⟩ | ⟨entry, found, _, rfl, rfl⟩⟩ := remove_ok success
  · exact .refl _
  · exact Table.placements_removeEntry found entry.scope

theorem placements_clear (index : Index) :
    (index.clear.2 ++ index.clear.1.table.placements).Perm index.table.placements :=
  Table.placements_removeBelow index.table index.rootId

theorem placements_clearScope {id : PlacementId} {removed : List Placement} {count : Nat}
    (success : index.clearScope id = .ok (after, removed, count)) :
    (removed ++ after.table.placements).Perm index.table.placements := by
  unfold clearScope at success
  split at success
  · cases success
    exact placements_clear index
  · split at success
    · cases success
      exact Table.placements_removeAll index.table id
    · cases success

end Index

theorem ObjectRef.placements_purge {index after : Index} {reference : ObjectRef} {removed : List Placement}
    {count : Nat} (success : reference.purge index = .ok (after, removed, count)) :
    (removed ++ after.table.placements).Perm index.table.placements := by
  unfold purge at success
  split at success
  · split at success
    · exact Index.placements_clearScope success
    · cases success
      exact .refl _
  · cases success
    exact .refl _

end MediaSession
