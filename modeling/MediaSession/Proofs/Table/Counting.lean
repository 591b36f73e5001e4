import MediaSession.Proofs.Index.TreeShape
import MediaSession.Proofs.Table.Conservation

/-!
How many placements a removal takes out: as many as it hands out, and as many as satisfied beforehand what tells them
apart from the ones that are kept.
-/
namespace MediaSession

open Classical in
/-- How many registered identities satisfy a property. -/
noncomputable def Table.countWhere (table : Table) (holds : PlacementId → Prop) : Nat :=
  table.entries.keys.countP fun id => holds id

namespace Table
variable {table rest : Table} {id : PlacementId}

theorem countWhere_congr {holds other : PlacementId → Prop}
    (same : ∀ id, table.contains id = true → (holds id ↔ other id)) :
    table.countWhere holds = table.countWhere other :=
  List.countP_congr fun id present => by simpa using same id ((mem_keys_iff ..).mp present)

/-- One identity set apart. -/
theorem countWhere_insert {holds : PlacementId → Prop} (registered : table.contains id = true)
    (apart : ¬ holds id) : table.countWhere (fun other => other = id ∨ holds other) = table.countWhere holds + 1 := by
  have split := List.perm_cons_erase ((mem_keys_iff ..).mpr registered)
  have others (other : PlacementId) (member : other ∈ table.entries.keys.erase id) : other ≠ id :=
    (Std.TreeMap.nodup_keys.mem_erase_iff.mp member).1
  rw [countWhere, countWhere, split.countP_eq, split.countP_eq, List.countP_cons, List.countP_cons]
  simp only [apart, true_or, decide_true, decide_false, if_true, Bool.false_eq_true, if_false, Nat.add_zero]
  refine congrArg (· + 1) (List.countP_congr fun other member => ?_)
  simp [others other member]

theorem length_eq_countWhere {holds : PlacementId → Prop} {order : List PlacementId} (distinct : order.Nodup)
    (all : ∀ id, id ∈ order ↔ table.contains id = true ∧ holds id) : order.length = table.countWhere holds := by
  classical
  rw [countWhere, List.countP_eq_length_filter]
  refine List.Perm.length_eq ((List.perm_ext_iff_of_nodup distinct (Std.TreeMap.nodup_keys.filter _)).mpr fun id => ?_)
  rw [all, List.mem_filter, mem_keys_iff, decide_eq_true_eq]

theorem size_eq_countWhere (table : Table) (holds : PlacementId → Prop) :
    table.size = table.countWhere holds + table.countWhere fun id => ¬ holds id := by
  classical
  rw [size_eq_length_keys, countWhere, countWhere, List.length_eq_countP_add_countP fun id => decide (holds id)]
  refine congrArg _ (List.countP_congr fun id _ => ?_)
  simp

/-- A removal hands out as many placements as are gone after it. -/
theorem length_removed {gone : PlacementId → Prop} {removed : List Placement} (pruned : Prunes table rest gone)
    (handed : (removed ++ rest.placements).Perm table.placements) : removed.length = table.countWhere gone := by
  have total := handed.length_eq
  have left : rest.entries.keys.length = table.countWhere fun id => ¬ gone id :=
    length_eq_countWhere Std.TreeMap.nodup_keys fun id => (mem_keys_iff ..).trans pruned.contains_iff
  rw [List.length_append, length_placements, length_placements, rest.size_eq_length_keys, left,
    table.size_eq_countWhere gone] at total
  exact Nat.add_right_cancel total

/-- What is reached from any scope but the root is not the root. -/
theorem Consistent.inner_of_reached (valid : table.Consistent) {target : PlacementId} (inner : id ≠ table.root)
    (route : Relation.ReflTransGen table.Lists id target) : target ≠ table.root := by
  rcases Relation.reflTransGen_iff_eq_or_transGen.mp route with same | below
  · exact same ▸ inner
  · exact (valid.scope_of_below below).1

/-- Scopes further up reach whatever ascends to them. -/
theorem Consistent.reached_of_ascent (valid : table.Consistent) {chain : List PlacementId} {scope : PlacementId}
    (ascent : table.Ascent id chain) (above : scope ∈ chain) : Relation.ReflTransGen table.Lists scope id := by
  induction ascent with
  | root => exact List.mem_singleton.mp above ▸ .refl
  | @scope id within chain inside inner _ ih =>
    rcases List.mem_cons.mp above with same | higher
    · exact same ▸ .refl
    · exact (ih higher).tail (valid.mem_members_iff.mpr ⟨inner, inside⟩)

/-- Clearing the root takes out everything else. -/
theorem Consistent.countWhere_cleared_root (valid : table.Consistent) :
    table.countWhere (table.Cleared table.root) = table.size - 1 := by
  have all : table.countWhere (fun id => id = table.root ∨ table.Cleared table.root id) = table.size := by
    rw [size_eq_length_keys, countWhere, List.countP_eq_length]
    intro id present
    obtain ⟨chain, ascent⟩ := valid.ascent ((mem_keys_iff ..).mp present)
    have reached := valid.reached_of_ascent ascent (List.mem_of_getLast? ascent.getLast)
    by_cases rooted : id = table.root
    · simp [rooted]
    · simp [rooted, Cleared, reached]
  rw [countWhere_insert valid.contains_root fun out => out.1 rfl] at all
  omega

end Table

/-- Clearing a scope hands out all that lies within it, and counts it. -/
theorem Index.length_clearScope {index after : Index} {id : PlacementId} {removed : List Placement} {count : Nat}
    (valid : index.table.Consistent) (success : index.clearScope id = .ok (after, removed, count)) :
    removed.length = index.table.countWhere (index.table.Cleared id) ∧ count = removed.length := by
  refine ⟨?_, ?_⟩
  · obtain ⟨_, effect⟩ := clearScope_effect valid success
    cases effect with
    | cleared pruned => exact Table.length_removed pruned (placements_clearScope success)
  · unfold clearScope at success
    split at success
    · cases success
      rfl
    · split at success
      · rename_i registered
        obtain ⟨entry, found⟩ := (Table.contains_iff ..).mp registered
        rw [Table.removeAll_eq valid found] at success
        cases success
        rfl
      · cases success

end MediaSession
