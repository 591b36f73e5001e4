import MediaSession.Table
import Std.Data.TreeMap.Lemmas

/-!
What every update of the two tables does to a look-up: one equation for the entries, one for the member
lists that are kept, and one for the members of a scope.
-/
namespace MediaSession.Table

/-- The scope a registered placement belongs to. -/
def scope? (table : Table) (id : PlacementId) : Option PlacementId := (table.entry? id).map Entry.scope

theorem contains_iff (table : Table) (id : PlacementId) :
    table.contains id = true ↔ ∃ entry, table.entry? id = some entry := by
  rw [contains, Std.TreeMap.contains_eq_isSome_getElem?, Option.isSome_iff_exists]
  rfl

theorem contains_iff_scope? (table : Table) (id : PlacementId) :
    table.contains id = true ↔ ∃ scope, table.scope? id = some scope := by
  rw [contains_iff, scope?]
  cases table.entry? id <;> simp

theorem contains_of_scope? {table : Table} {id scope : PlacementId} (inside : table.scope? id = some scope) :
    table.contains id = true := (table.contains_iff_scope? id).mpr ⟨scope, inside⟩

theorem scope?_of_found {table : Table} {id : PlacementId} {entry : Entry} (found : table.entry? id = some entry) :
    table.scope? id = some entry.scope := congrArg (Option.map Entry.scope) found

theorem entry?_eq_none {table : Table} {id : PlacementId} (missing : table.contains id ≠ true) :
    table.entry? id = none := by
  rw [Option.eq_none_iff_forall_ne_some]
  exact fun entry found => missing ((table.contains_iff id).mpr ⟨entry, found⟩)

theorem members_eq (table : Table) (scope : PlacementId) :
    table.members scope = ((table.contents[scope]?).getD #[]).toList := by
  rw [members, Std.TreeMap.getD_eq_getD_getElem?]

theorem members_of_found {table : Table} {scope : PlacementId} {listed : Array PlacementId}
    (found : table.contents[scope]? = some listed) : table.members scope = listed.toList := by
  rw [members_eq, found, Option.getD_some]

@[simp] theorem root_ofRoot (root : Placement) : (ofRoot root).root = root.id := rfl

theorem entry?_ofRoot (root : Placement) (id : PlacementId) :
    entry? (ofRoot root) id = if root.id = id then some ⟨root, root.id⟩ else none := by
  simp [ofRoot, entry?, Std.TreeMap.getElem?_insert]

theorem contains_ofRoot_iff (root : Placement) (id : PlacementId) :
    contains (ofRoot root) id = true ↔ root.id = id := by
  rw [contains_iff, entry?_ofRoot]
  split <;> simp [*]

theorem scope?_ofRoot_iff (root : Placement) (id scope : PlacementId) :
    scope? (ofRoot root) id = some scope ↔ root.id = id ∧ root.id = scope := by
  rw [scope?, entry?_ofRoot]
  split <;> simp [*]

@[simp] theorem contents_ofRoot (root : Placement) (scope : PlacementId) :
    (ofRoot root).contents[scope]? = none := by simp [ofRoot]

@[simp] theorem members_ofRoot (root : Placement) (scope : PlacementId) :
    (ofRoot root).members scope = [] := by simp [members_eq]

@[simp] theorem root_add (table : Table) (placement : Placement) (scope : PlacementId) :
    (table.add placement scope).root = table.root := rfl

theorem entry?_add (table : Table) (placement : Placement) (scope id : PlacementId) :
    entry? (table.add placement scope) id =
      if placement.id = id then some ⟨placement, scope⟩ else table.entry? id := by
  simp [add, entry?, Std.TreeMap.getElem?_insert]

theorem scope?_add (table : Table) (placement : Placement) (scope id : PlacementId) :
    (table.add placement scope).scope? id =
      if placement.id = id then some scope else table.scope? id := by
  rw [scope?, entry?_add]
  split <;> rfl

theorem contents_add (table : Table) (placement : Placement) (scope id : PlacementId) :
    (table.add placement scope).contents[id]? =
      if scope = id then some ((table.contents.getD scope #[]).push placement.id) else table.contents[id]? := by
  simp [add, Std.TreeMap.getElem?_alter, Std.TreeMap.getD_eq_getD_getElem?]

theorem members_add (table : Table) (placement : Placement) (scope id : PlacementId) :
    (table.add placement scope).members id =
      if scope = id then table.members scope ++ [placement.id] else table.members id := by
  rw [members_eq, contents_add]
  split
  · exact Array.toList_push
  · rw [members_eq]

@[simp] theorem root_editPin (table : Table) (id : PlacementId) (edits : List PinEdit) :
    (table.editPin id edits).root = table.root := by
  unfold editPin; split <;> rfl

@[simp] theorem contents_editPin (table : Table) (id : PlacementId) (edits : List PinEdit) :
    (table.editPin id edits).contents = table.contents := by
  unfold editPin; split <;> rfl

@[simp] theorem members_editPin (table : Table) (id : PlacementId) (edits : List PinEdit) :
    (table.editPin id edits).members = table.members := by
  funext scope
  rw [members_eq, members_eq, contents_editPin]

theorem entry?_editPin (table : Table) (id : PlacementId) (edits : List PinEdit) (other : PlacementId) :
    entry? (table.editPin id edits) other =
      if id = other then
        (table.entry? other).map fun entry => { entry with placement := entry.placement.edit edits }
      else table.entry? other := by
  unfold editPin
  split
  · rename_i missing
    by_cases same : id = other
    · subst same; simp [missing]
    · simp [same]
  · rename_i entry found
    by_cases same : id = other
    · subst same; rw [if_pos rfl, found]; simp [Table.entry?]
    · simp [Table.entry?, same, Std.TreeMap.getElem?_insert]

@[simp] theorem scope?_editPin (table : Table) (id : PlacementId) (edits : List PinEdit) :
    (table.editPin id edits).scope? = table.scope? := by
  funext other
  rw [scope?, entry?_editPin, scope?]
  split
  · cases table.entry? other <;> rfl
  · rfl

theorem swapRemove_perm (listed : Array PlacementId) (id : PlacementId) :
    (swapRemove listed id).toList.Perm (listed.toList.erase id) := by
  unfold swapRemove
  split
  · rename_i missing
    rw [List.erase_of_not_mem (List.idxOf?_eq_none_iff.mp missing)]
  · rename_i place found
    obtain ⟨inside, here, _⟩ := List.findIdx?_eq_some_iff_getElem.mp found
    replace inside : place < listed.size := inside
    have last : listed.size - 1 < listed.size := by omega
    have swapped : listed.swapIfInBounds place (listed.size - 1) = listed.swap place (listed.size - 1) := by
      rw [Array.swapIfInBounds, dif_pos inside, dif_pos last]
    have ends : (listed.swap place (listed.size - 1)).pop.push id = listed.swap place (listed.size - 1) := by
      refine Array.ext (by simp; omega) fun i before within => ?_
      rw [Array.getElem_push]
      split
      · exact Array.getElem_pop ..
      · obtain rfl : i = listed.size - 1 := by simp at *; omega
        exact (eq_of_beq here).symm.trans (Array.getElem_swap_right ..).symm
    have kept := (Array.swap_perm inside last).toList
    rw [← ends, Array.toList_push] at kept
    have rest := ((List.perm_append_singleton id _).symm.trans kept).erase id
    rw [swapped]
    rwa [List.erase_cons_head] at rest

@[simp] theorem root_dropMember (table : Table) (scope id : PlacementId) :
    (table.dropMember scope id).root = table.root := by
  unfold dropMember
  split
  · rfl
  · dsimp only
    split <;> rfl

@[simp] theorem entry?_dropMember (table : Table) (scope id : PlacementId) :
    entry? (table.dropMember scope id) = table.entry? := by
  unfold dropMember
  split
  · rfl
  · dsimp only
    split <;> rfl

/-- A list left empty is not kept. -/
theorem contents_dropMember_ne_empty (table : Table) (scope id : PlacementId) :
    (table.dropMember scope id).contents[scope]? ≠ some #[] := by
  unfold dropMember
  split
  · rename_i missing
    simp [missing]
  · dsimp only
    split
    · simp
    · rename_i nonempty
      simpa using nonempty

theorem contents_dropMember_of_ne (table : Table) {scope other : PlacementId} (different : scope ≠ other)
    (id : PlacementId) : (table.dropMember scope id).contents[other]? = table.contents[other]? := by
  unfold dropMember
  split
  · rfl
  · dsimp only
    split
    · simp [Std.TreeMap.getElem?_erase, different]
    · simp [Std.TreeMap.getElem?_insert, different]

theorem members_dropMember_perm (table : Table) (scope id : PlacementId) :
    ((table.dropMember scope id).members scope).Perm ((table.members scope).erase id) := by
  unfold dropMember
  split
  · rename_i missing
    simp [members_eq, missing]
  · rename_i listed found
    have rest := swapRemove_perm listed id
    rw [members_of_found found]
    dsimp only
    split
    · rename_i empty
      rw [Array.isEmpty_iff.mp empty] at rest
      simpa [members_eq] using rest
    · simpa [members_eq] using rest

theorem entry?_removeEntry (table : Table) (id scope other : PlacementId) :
    entry? (table.removeEntry id scope) other = if id = other then none else table.entry? other := by
  rw [removeEntry, entry?_dropMember]
  simp [Table.entry?, Std.TreeMap.getElem?_erase]

@[simp] theorem root_removeEntry (table : Table) (id scope : PlacementId) :
    (table.removeEntry id scope).root = table.root := by simp [removeEntry]

theorem members_removeEntry_perm (table : Table) (id scope : PlacementId) :
    ((table.removeEntry id scope).members scope).Perm ((table.members scope).erase id) :=
  members_dropMember_perm { table with entries := table.entries.erase id } scope id

theorem contents_removeEntry_of_ne (table : Table) {scope other : PlacementId} (different : scope ≠ other)
    (id : PlacementId) : (table.removeEntry id scope).contents[other]? = table.contents[other]? :=
  contents_dropMember_of_ne { table with entries := table.entries.erase id } different id

theorem members_removeEntry_of_ne (table : Table) {scope other : PlacementId} (different : scope ≠ other)
    (id : PlacementId) : (table.removeEntry id scope).members other = table.members other := by
  rw [members_eq, contents_removeEntry_of_ne table different, members_eq]

theorem contents_removeEntry_ne_empty (table : Table) (id scope : PlacementId) :
    (table.removeEntry id scope).contents[scope]? ≠ some #[] :=
  contents_dropMember_ne_empty { table with entries := table.entries.erase id } scope id

end MediaSession.Table
