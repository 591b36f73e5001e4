import MediaSession.Proofs.Index.TreeShape
import MediaSession.Proofs.Navigation.Navigate

/-!
How deep placements lie below the root. The depth of a placement stays the same while it is registered, and the
depth limit of an index decides which placements a path can be led to.
-/
namespace MediaSession
namespace Table
variable {table rest : Table} {id : PlacementId} {chain : List PlacementId} {limit : Nat}

/-- As many scopes lie around the placement, the root at depth zero. -/
def AtDepth (table : Table) (id : PlacementId) (depth : Nat) : Prop :=
  ∃ chain, table.Ascent id chain ∧ chain.length = depth + 1

/-- Registered below the root at the limit or deeper. -/
def LiesBeyond (table : Table) (limit : Nat) (id : PlacementId) : Prop :=
  table.contains id = true ∧ id ≠ table.root ∧ ∃ depth, table.AtDepth id depth ∧ limit ≤ depth

theorem Ascent.atDepth (ascent : table.Ascent id chain) : table.AtDepth id (chain.length - 1) :=
  ⟨chain, ascent, (Nat.sub_add_cancel ascent.length_pos).symm⟩

theorem liesBeyond_iff (valid : table.Consistent) (ascent : table.Ascent id chain) :
    table.LiesBeyond limit id ↔ id ≠ table.root ∧ limit < chain.length := by
  constructor
  · rintro ⟨_, inner, depth, ⟨other, same, length⟩, deep⟩
    rw [ascent.unique same, length]
    exact ⟨inner, Nat.lt_succ_of_le deep⟩
  · rintro ⟨inner, deep⟩
    exact ⟨valid.contains_of_ascent ascent, inner, _, ascent.atDepth, Nat.le_sub_one_of_lt deep⟩

/-- An ascent names registered placements once each. -/
theorem Ascent.length_le_size (ascent : table.Ascent id chain) (valid : table.Consistent) :
    chain.length ≤ table.size := by
  have within : chain ⊆ table.entries.keys := by
    intro other member
    obtain ⟨tail, higher, _⟩ := ascent.suffix member
    exact (mem_keys_iff ..).mpr (valid.contains_of_ascent higher)
  rw [size_eq_length_keys]
  exact ascent.nodup.length_le_of_subset within

/-- A placement as deep as the limit has that many others around it. -/
theorem LiesBeyond.lt_size (beyond : table.LiesBeyond limit id) (valid : table.Consistent) :
    limit < table.size := by
  obtain ⟨chain, ascent⟩ := valid.ascent beyond.1
  exact Nat.lt_of_lt_of_le ((liesBeyond_iff valid ascent).mp beyond).2 (ascent.length_le_size valid)

theorem Effect.ascent_kept {event : Option Event} (effect : Effect table event rest) (valid : table.Consistent)
    (fresh : ∀ {placement scope}, event = some (.inserted placement scope) →
      table.contains placement.id ≠ true)
    (ascent : table.Ascent id chain) (stays : rest.contains id = true) : rest.Ascent id chain := by
  cases effect with
  | nothing => exact ascent
  | inserted registered => exact ascent.add (fresh rfl)
  | pinned registered => exact ascent.editPin _
  | removed inner leaf pruned =>
    refine pruned.ascent valid ?_ ascent (pruned.contains_iff.mp stays).2
    intro scope other same listed
    rw [same, leaf] at listed
    cases listed
  | cleared pruned =>
    exact pruned.ascent valid (cleared_closed valid _) ascent (pruned.contains_iff.mp stays).2

/-- What lies beyond the limit after an event did so before it, unless it has just been inserted. -/
theorem Effect.liesBeyond_before {event : Option Event} (effect : Effect table event rest)
    (valid : table.Consistent)
    (fresh : ∀ {placement scope}, event = some (.inserted placement scope) →
      table.contains placement.id ≠ true)
    (old : ∀ {placement scope}, event = some (.inserted placement scope) → placement.id ≠ id)
    (beyond : rest.LiesBeyond limit id) : table.LiesBeyond limit id := by
  rcases Index.contains_of_effect effect beyond.1 with before | ⟨placement, scope, same, here⟩
  · obtain ⟨chain, ascent⟩ := valid.ascent before
    have still := effect.ascent_kept valid fresh ascent beyond.1
    rw [liesBeyond_iff (effect.consistent valid fresh) still, effect.root_eq] at beyond
    exact (liesBeyond_iff valid ascent).mpr beyond
  · exact absurd here (old same)

end Table

namespace ScopePath
variable {index : Index} {id : PlacementId} {up : List PlacementId} {path : ScopePath}

theorem discover_eq (valid : index.table.Consistent) (ascent : index.table.Ascent id up) :
    discover index id =
      if up.length ≤ index.maxPathDepth then .ok up.reverse else .error (.invalidScope (.disconnected id)) := by
  split
  · rename_i near
    exact (discover_ok_iff valid ascent).mpr ⟨rfl, near⟩
  · rename_i far
    cases found : discover index id with
    | ok chain => exact absurd ((discover_ok_iff valid ascent).mp found).2 far
    | error error =>
      simp only [discover] at found
      split at found
      · cases found
      · exact found.symm

/-- A path is led to any placement it ends at or that lies within the depth limit, and to no other. -/
theorem navigate_eq (valid : index.table.Consistent) (ascent : index.table.Ascent id up)
    (nonempty : path.anchors ≠ []) :
    path.navigate index (.anchored id) =
      if path.anchors.getLast? = some id then .ok path
      else if up.length ≤ index.maxPathDepth then .ok ⟨(splice index up.reverse path).getD up.reverse⟩
      else .error (.invalidScope (.disconnected id)) := by
  have registered : index.contains id = true := valid.contains_of_ascent ascent
  have started : path.isEmpty = false := by simpa [isEmpty] using nonempty
  simp only [navigate, started, Scope.anchored, registered, discover_eq valid ascent]
  by_cases near : up.length ≤ index.maxPathDepth
  · simp [near]
  · simp [near]

end ScopePath

end MediaSession
