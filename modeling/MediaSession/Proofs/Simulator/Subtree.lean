import MediaSession.Proofs.Table.Counting
import MediaSession.Simulator.World

/-!
Two ways of counting a subtree: what the removal of a scope hands out, and what a walk over the members meets that
takes nothing out and so relies on the tables describing a tree.
-/
namespace MediaSession

namespace Table
variable {table : Table} {id : PlacementId} {pending : List PlacementId}

/-- No identity of a list is reached from another one of it. -/
def Apart (table : Table) (pending : List PlacementId) : Prop :=
  pending.Pairwise fun one other =>
    ¬ Relation.ReflTransGen table.Lists one other ∧ ¬ Relation.ReflTransGen table.Lists other one

theorem Apart.perm {other : List PlacementId} (apart : table.Apart pending) (same : pending.Perm other) :
    table.Apart other :=
  (same.pairwise_iff fun {_ _} away => away.symm).mp apart

theorem countWhere_reached_perm (table : Table) {other : List PlacementId} (same : pending.Perm other) :
    table.countWhere (table.Reached pending) = table.countWhere (table.Reached other) :=
  countWhere_congr fun _ _ => exists_congr fun _ => and_congr_left' same.mem_iff

/-- Whatever reaches a member of a scope without being it reaches the scope. -/
theorem Consistent.reaches_scope (valid : table.Consistent) {scope member start : PlacementId}
    (listed : member ∈ table.members scope) (route : Relation.ReflTransGen table.Lists start member) :
    start = member ∨ Relation.ReflTransGen table.Lists start scope := by
  rcases Relation.ReflTransGen.cases_tail route with same | ⟨above, higher, last⟩
  · exact .inl same.symm
  · have one := (valid.mem_members_iff.mp last).2.symm.trans (valid.mem_members_iff.mp listed).2
    exact .inr (Option.some.inj one ▸ higher)

theorem Consistent.not_reaches_up (valid : table.Consistent) {scope member : PlacementId}
    (listed : member ∈ table.members scope) : ¬ Relation.ReflTransGen table.Lists member scope := fun route =>
  valid.not_below_self scope (Relation.TransGen.head' listed route)

/-- A scope may be replaced by its members. -/
theorem Consistent.apart_expand (valid : table.Consistent) (apart : table.Apart (id :: pending)) :
    table.Apart (table.members id ++ pending) := by
  obtain ⟨away, others⟩ := List.pairwise_cons.mp apart
  refine List.pairwise_append.mpr ⟨?_, others, ?_⟩
  · refine (valid.nodup_members id).imp_of_mem fun {one other} here there different => ?_
    refine ⟨fun route => ?_, fun route => ?_⟩
    · rcases valid.reaches_scope there route with same | up
      · exact different same
      · exact valid.not_reaches_up here up
    · rcases valid.reaches_scope here route with same | up
      · exact different same.symm
      · exact valid.not_reaches_up there up
  · intro member listed waiting inside
    refine ⟨fun route => (away waiting inside).1 (.head listed route), fun route => ?_⟩
    rcases valid.reaches_scope listed route with same | up
    · exact (away waiting inside).1 (same ▸ .single listed)
    · exact (away waiting inside).2 up

theorem reached_cons_iff (target : PlacementId) :
    table.Reached (id :: pending) target ↔ target = id ∨ table.Reached (table.members id ++ pending) target := by
  constructor
  · rintro ⟨start, member, route⟩
    rcases List.mem_cons.mp member with rfl | waiting
    · rcases Relation.ReflTransGen.cases_head route with same | ⟨next, listed, onward⟩
      · exact .inl same.symm
      · exact .inr ⟨next, List.mem_append_left _ listed, onward⟩
    · exact .inr ⟨start, List.mem_append_right _ waiting, route⟩
  · rintro (rfl | ⟨start, member, route⟩)
    · exact ⟨target, List.mem_cons_self, .refl⟩
    · rcases List.mem_append.mp member with listed | waiting
      · exact ⟨id, List.mem_cons_self, .head listed route⟩
      · exact ⟨start, List.mem_cons_of_mem _ waiting, route⟩

/-- Of two things apart, the first with all below it counts one more than what is left without it. -/
theorem Consistent.countWhere_reached_cons (valid : table.Consistent) (apart : table.Apart (id :: pending))
    (registered : table.contains id = true) :
    table.countWhere (table.Reached (id :: pending)) =
      table.countWhere (table.Reached (table.members id ++ pending)) + 1 := by
  have unreached : ¬ table.Reached (table.members id ++ pending) id := by
    rintro ⟨start, member, route⟩
    rcases List.mem_append.mp member with listed | waiting
    · exact valid.not_reaches_up listed route
    · exact ((List.pairwise_cons.mp apart).1 start waiting).2 route
  rw [← countWhere_insert registered unreached]
  exact countWhere_congr fun other _ => reached_cons_iff other

theorem reached_singleton_iff (target : PlacementId) :
    table.Reached [id] target ↔ Relation.ReflTransGen table.Lists id target := by simp [Reached]

end Table

namespace Simulator.World
variable {index after : Index} {id : PlacementId}

/-- The placements within a scope are those of its members, one by one. -/
theorem referrers_ids (valid : index.table.Consistent) (registered : index.contains id = true) :
    ∃ nested, index.referrers id = .ok nested ∧ nested.map Placement.id = index.table.members id := by
  refine ⟨_, if_pos registered, ?_⟩
  rw [List.map_filterMap]
  have each (member : PlacementId) (listed : member ∈ index.members id) :
      Option.map Placement.id ((index.table.entry? member).map Entry.placement) = some member := by
    obtain ⟨entry, found⟩ := (Table.contains_iff ..).mp (valid.contains_member listed)
    rw [found]
    exact congrArg some (valid.keyed found)
  rw [List.filterMap_congr each]
  exact List.filterMap_some

/-- With fuel for all that is reached, the walk counts exactly that. -/
theorem countBelow_eq (valid : index.table.Consistent) (fuel : Nat) (pending : List PlacementId) (count : Nat)
    (apart : index.table.Apart pending) (registered : ∀ id ∈ pending, index.table.contains id = true)
    (enough : index.table.countWhere (index.table.Reached pending) ≤ fuel) :
    countBelow index fuel pending count = count + index.table.countWhere (index.table.Reached pending) := by
  induction fuel generalizing pending count with
  | zero =>
    rw [countBelow]
    omega
  | succ fuel ih =>
    cases pending with
    | nil =>
      have none : index.table.countWhere (index.table.Reached []) = 0 :=
        List.countP_eq_zero.mpr fun id _ => by simp [Table.Reached]
      rw [none]
      rfl
    | cons id pending =>
      have here := registered id List.mem_cons_self
      have split := valid.countWhere_reached_cons apart here
      have below : ∀ other ∈ index.table.members id ++ pending, index.table.contains other = true := by
        intro other member
        rcases List.mem_append.mp member with listed | waiting
        · exact valid.contains_member listed
        · exact registered other (List.mem_cons_of_mem _ waiting)
      obtain ⟨nested, found, ids⟩ := referrers_ids valid here
      have order : ((index.table.members id).reverse ++ pending).Perm (index.table.members id ++ pending) :=
        (List.reverse_perm _).append_right pending
      have same := index.table.countWhere_reached_perm order
      simp only [countBelow, found, ids]
      rw [ih _ _ ((valid.apart_expand apart).perm order.symm)
        (fun other member => below other (order.mem_iff.mp member)) (by omega)]
      omega

theorem subtreeSize_eq {world : World} (valid : world.index.table.Consistent)
    (registered : world.index.contains id = true) :
    world.subtreeSize id = world.index.table.countWhere (world.index.table.Reached [id]) := by
  have fits : world.index.table.countWhere (world.index.table.Reached [id]) ≤ world.index.table.size + 1 := by
    refine Nat.le_succ_of_le ?_
    rw [Table.size_eq_length_keys]
    exact List.countP_le_length
  have known : ∀ other ∈ [id], world.index.contains other = true :=
    fun other only => List.mem_singleton.mp only ▸ registered
  rw [subtreeSize, countBelow_eq valid _ [id] 0 (List.pairwise_singleton ..) known fits, Nat.zero_add]

theorem registered_of_clearScope (valid : index.table.Consistent) {removed : List Placement} {count : Nat}
    (success : index.clearScope id = .ok (after, removed, count)) : index.contains id = true := by
  unfold Index.clearScope at success
  split at success
  · rename_i rooted
    exact rooted ▸ valid.contains_root
  · split at success
    · assumption
    · cases success

/-- Clearing a scope takes out as many placements as were counted beforehand. -/
theorem count_clearScope {world : World} (valid : world.index.table.Consistent) {removed : List Placement}
    {count : Nat} (success : world.index.clearScope id = .ok (after, removed, count)) :
    count = if id = world.index.rootId then world.index.size else world.subtreeSize id := by
  obtain ⟨handed, counted⟩ := Index.length_clearScope valid success
  rw [counted, handed]
  split
  · rename_i rooted
    rw [rooted]
    exact valid.countWhere_cleared_root
  · rename_i inner
    rw [subtreeSize_eq valid (registered_of_clearScope valid success)]
    refine Table.countWhere_congr fun other _ => ?_
    rw [Table.Cleared, Table.reached_singleton_iff, and_iff_right_iff_imp]
    exact valid.inner_of_reached inner

end Simulator.World

end MediaSession
