import Mathlib.Algebra.GroupWithZero.Nat
import Mathlib.Data.List.Nodup
import MediaSession.Proofs.Index.Run

/-!
The shape of an index. After every run of calls the registered placements and the member lists describe one
and the same tree, and the number of placements agrees with the number of memberships.
-/
namespace MediaSession

namespace Table
variable {table : Table}

theorem mem_keys_iff (table : Table) (id : PlacementId) :
    id ∈ table.entries.keys ↔ table.contains id = true := by
  rw [Std.TreeMap.mem_keys, contains, Std.TreeMap.mem_iff_contains]

theorem size_eq_length_keys (table : Table) : table.size = table.entries.keys.length :=
  Std.TreeMap.length_keys.symm

theorem mem_contents_iff (table : Table) (scope : PlacementId) :
    scope ∈ table.contents ↔ ∃ listed, table.contents[scope]? = some listed := by
  rw [Std.TreeMap.mem_iff_contains, Std.TreeMap.contains_eq_isSome_getElem?, Option.isSome_iff_exists]

theorem listed_eq (table : Table) : table.listed = table.contents.keys.flatMap table.members := by
  rw [listed, ← Std.TreeMap.map_fst_toList_eq_keys, List.flatMap_map]
  apply List.flatMap_congr
  rintro ⟨scope, recorded⟩ present
  exact (members_of_found (Std.TreeMap.mem_toList_iff_getElem?_eq_some.mp present)).symm

/-- The members of all scopes together are the registered identities without the root. -/
theorem Consistent.flatMap_members_perm (valid : table.Consistent) {scopes : List PlacementId}
    (distinct : scopes.Nodup) (complete : ∀ scope, table.members scope ≠ [] → scope ∈ scopes) :
    (scopes.flatMap table.members).Perm (table.entries.keys.erase table.root) := by
  have apart : (scopes.flatMap table.members).Nodup := by
    refine List.nodup_flatMap.mpr ⟨fun scope _ => valid.nodup_members scope, ?_⟩
    refine distinct.imp fun {first second} different => ?_
    intro id one other
    have same := (valid.mem_members_iff.mp one).2.symm.trans (valid.mem_members_iff.mp other).2
    exact different (Option.some.inj same)
  rw [List.perm_ext_iff_of_nodup apart (Std.TreeMap.nodup_keys.erase _)]
  intro id
  rw [List.mem_flatMap, Std.TreeMap.nodup_keys.mem_erase_iff, mem_keys_iff, contains_iff_scope?]
  constructor
  · rintro ⟨scope, _, listed⟩
    obtain ⟨inner, inside⟩ := valid.mem_members_iff.mp listed
    exact ⟨inner, scope, inside⟩
  · rintro ⟨inner, scope, inside⟩
    have listed := valid.mem_members_iff.mpr ⟨inner, inside⟩
    exact ⟨scope, complete scope (List.ne_nil_of_mem listed), listed⟩

theorem Consistent.length_flatMap_members (valid : table.Consistent) {scopes : List PlacementId}
    (distinct : scopes.Nodup) (complete : ∀ scope, table.members scope ≠ [] → scope ∈ scopes) :
    (scopes.flatMap table.members).length = table.size - 1 := by
  have rooted : table.root ∈ table.entries.keys := (mem_keys_iff ..).mpr valid.contains_root
  rw [(valid.flatMap_members_perm distinct complete).length_eq, List.length_erase_of_mem rooted,
    ← size_eq_length_keys]

theorem Consistent.mem_contents (valid : table.Consistent) {scope : PlacementId}
    (present : scope ∈ table.contents) : table.contains scope = true ∧ table.members scope ≠ [] := by
  obtain ⟨recorded, found⟩ := (table.mem_contents_iff scope).mp present
  have nonempty : table.members scope ≠ [] := by
    rw [members_of_found found, Ne, Array.toList_eq_nil_iff]
    exact fun empty => valid.no_empty_list scope (empty ▸ found)
  obtain ⟨member, listed⟩ := List.exists_mem_of_ne_nil _ nonempty
  exact ⟨valid.contains_scope (valid.mem_members_iff.mp listed).2, nonempty⟩

theorem Consistent.memberships_eq (valid : table.Consistent) : table.memberships = table.size - 1 := by
  rw [memberships, listed_eq]
  refine valid.length_flatMap_members Std.TreeMap.nodup_keys fun scope nonempty => ?_
  rw [Std.TreeMap.mem_keys, mem_contents_iff]
  cases found : table.contents[scope]? with
  | none => simp [members_eq, found] at nonempty
  | some recorded => exact ⟨recorded, rfl⟩

end Table

namespace Index

/-- What the look-ups of an index say together: one tree around the root. -/
structure DescribesTree (index : Index) : Prop where
  root_scope : index.scopeOf index.rootId = .ok index.rootId
  root_unlisted : ∀ scope, index.rootId ∉ index.members scope
  scope_registered : ∀ id scope, index.scopeOf id = .ok scope → index.contains scope = true
  listed_once : ∀ scope id, (index.members scope).count id =
    if id ≠ index.rootId ∧ index.scopeOf id = .ok scope then 1 else 0
  list_of_registered : ∀ scope ∈ index.table.contents,
    index.contains scope = true ∧ index.members scope ≠ []
  ascends : ∀ id, index.contains id = true →
    ∃ chain, index.table.Ascent id chain ∧ chain.getLast? = some index.rootId ∧ chain.Nodup
  size_eq_memberships : index.size = index.table.memberships
  size_eq_sum : index.size = (index.ids.map index.memberCount).sum

theorem describesTree_of_consistent {index : Index} (valid : index.table.Consistent) :
    index.DescribesTree where
  root_scope := (index.scopeOf_ok_iff ..).mpr valid.root_scope
  root_unlisted scope listed := (valid.mem_members_iff.mp listed).1 rfl
  scope_registered id scope inside := valid.contains_scope ((index.scopeOf_ok_iff id scope).mp inside)
  listed_once scope id := by
    simp only [scopeOf_ok_iff]
    exact valid.count_members scope id
  list_of_registered scope present := valid.mem_contents present
  ascends id registered := by
    obtain ⟨chain, ascent⟩ := valid.ascent registered
    exact ⟨chain, ascent, ascent.getLast, ascent.nodup⟩
  size_eq_memberships := valid.memberships_eq.symm
  size_eq_sum := by
    have whole := valid.length_flatMap_members Std.TreeMap.nodup_keys fun scope nonempty => by
      rw [Table.mem_keys_iff]
      by_contra missing
      exact nonempty (valid.members_eq_nil missing)
    rw [List.length_flatMap] at whole
    exact whole.symm

end Index

/-- Every run of calls on an index leaves one tree behind. -/
theorem run_describesTree (root : Placement) (maxPathDepth : Nat) (mutations : List Mutation)
    (fresh : FreshIds root.id mutations) : (Recorded.run root maxPathDepth mutations).index.DescribesTree :=
  Index.describesTree_of_consistent (Recorded.run_sound root maxPathDepth mutations fresh).consistent

theorem run_describesTree_trial : FreshIds Trial.root.id Trial.mutations ∧
    (Recorded.run Trial.root 5 Trial.mutations).index.size = 1 ∧
    (Recorded.run Trial.root 5 Trial.mutations).index.DescribesTree :=
  ⟨by decide, by decide +kernel, run_describesTree Trial.root 5 Trial.mutations (by decide)⟩

end MediaSession
