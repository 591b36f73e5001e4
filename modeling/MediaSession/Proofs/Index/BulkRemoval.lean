import MediaSession.Proofs.Table.Counting

/-!
Scopes cleared at once and placement by placement. Whichever way is taken, and in whatever order members go before
their scopes, the same placements are gone and all others are left as they were.
-/
namespace MediaSession

namespace Table
variable {table rest other : Table} {id scope : PlacementId} {order : List PlacementId}

/-- The scope itself or something registered below it: the way up from there leads through the scope. -/
def Within (table : Table) (scope id : PlacementId) : Prop := ∃ chain, table.Ascent id chain ∧ scope ∈ chain

theorem Consistent.contains_within (valid : table.Consistent) (within : table.Within scope id) :
    table.contains id = true := by
  obtain ⟨_, ascent, _⟩ := within
  exact valid.contains_of_ascent ascent

theorem Consistent.within_iff (valid : table.Consistent) (registered : table.contains scope = true) :
    table.Within scope id ↔ Relation.ReflTransGen table.Lists scope id := by
  constructor
  · rintro ⟨chain, ascent, above⟩
    exact valid.reached_of_ascent ascent above
  · intro route
    induction route with
    | refl =>
      obtain ⟨chain, ascent⟩ := valid.ascent registered
      exact ⟨chain, ascent, List.mem_of_head? ascent.head⟩
    | tail _ listed ih =>
      obtain ⟨chain, ascent, above⟩ := ih
      exact ⟨_, valid.ascent_member listed ascent, List.mem_cons_of_mem _ above⟩

/-- Members lie deeper than their scope. -/
theorem Consistent.exists_height (valid : table.Consistent) :
    ∃ height : PlacementId → Nat, ∀ scope id, id ∈ table.members scope → height scope < height id := by
  have level (id : PlacementId) : ∃ height, ∀ chain, table.Ascent id chain → chain.length = height := by
    by_cases some : ∃ chain, table.Ascent id chain
    · obtain ⟨chain, ascent⟩ := some
      exact ⟨chain.length, fun other again => congrArg List.length (again.unique ascent)⟩
    · exact ⟨0, fun chain ascent => absurd ⟨chain, ascent⟩ some⟩
  choose height levels using level
  refine ⟨height, fun scope id listed => ?_⟩
  have inside := (valid.mem_members_iff.mp listed).2
  obtain ⟨upper, above⟩ := valid.ascent (valid.contains_scope inside)
  obtain ⟨lower, ascent⟩ := valid.ascent (contains_of_scope? inside)
  rw [← levels scope upper above, ← levels id lower ascent]
  exact valid.length_lt_of_below (.single listed) above ascent

/-- Some registered placements, with each scope all its members, in an order that names members first. -/
structure MembersFirst (table : Table) (order : List PlacementId) : Prop where
  distinct : order.Nodup
  inner : table.root ∉ order
  registered : ∀ id ∈ order, table.contains id = true
  closed : ∀ scope ∈ order, ∀ id ∈ table.members scope, id ∈ order
  sorted : order.Pairwise fun earlier later => later ∉ table.members earlier

namespace MembersFirst

theorem leaf (plan : table.MembersFirst (id :: order)) (valid : table.Consistent) : table.members id = [] := by
  rw [List.eq_nil_iff_forall_not_mem]
  intro member listed
  rcases List.mem_cons.mp (plan.closed id List.mem_cons_self member listed) with same | later
  · exact valid.not_below_self id (.single (same ▸ listed))
  · exact (List.pairwise_cons.mp plan.sorted).1 member later listed

theorem tail (plan : table.MembersFirst (id :: order)) (pruned : Prunes table rest (· = id)) :
    rest.MembersFirst order where
  distinct := (List.nodup_cons.mp plan.distinct).2
  inner := pruned.root_eq ▸ fun member => plan.inner (List.mem_cons_of_mem _ member)
  registered other member := by
    refine pruned.contains_iff.mpr ⟨plan.registered other (List.mem_cons_of_mem _ member), fun same => ?_⟩
    exact (List.nodup_cons.mp plan.distinct).1 (same ▸ member)
  closed scope member other listed := by
    obtain ⟨before, different⟩ := pruned.mem_members_iff.mp listed
    exact (List.mem_cons.mp (plan.closed scope (List.mem_cons_of_mem _ member) other before)).resolve_left different
  sorted := (List.pairwise_cons.mp plan.sorted).2.imp fun apart listed => apart (pruned.mem_members_iff.mp listed).1

end MembersFirst

theorem Prunes.nothing (table : Table) : Prunes table table fun _ => False where
  root_eq := rfl
  entry_gone := False.elim
  entry_kept _ := rfl
  unlisted := False.elim
  count_kept _ := rfl
  no_empty_list empty := empty

/-- What is gone decides what a removal leaves. -/
theorem Prunes.members_perm {gone : PlacementId → Prop} (one : Prunes table rest gone)
    (another : Prunes table other gone) (scope : PlacementId) : (rest.members scope).Perm (other.members scope) := by
  rw [List.perm_iff_count]
  intro id
  by_cases out : gone id
  · rw [List.count_eq_zero.mpr (one.unlisted out), List.count_eq_zero.mpr (another.unlisted out)]
  · rw [one.count_kept out, another.count_kept out]

theorem Prunes.entry?_eq {gone : PlacementId → Prop} (one : Prunes table rest gone)
    (another : Prunes table other gone) (id : PlacementId) : rest.entry? id = other.entry? id := by
  by_cases out : gone id
  · rw [one.entry_gone out, another.entry_gone out]
  · rw [one.entry_kept out, another.entry_kept out]

end Table

namespace Index
variable {index cleared : Index} {id : PlacementId} {order : List PlacementId}

/-- Removal of one placement after the other; also whether each was registered. -/
def removeEach (index : Index) : List PlacementId → Except SessionError (Index × List Bool)
  | [] => .ok (index, [])
  | id :: order => do
    let (after, removed) ← index.remove id
    let (last, found) ← after.removeEach order
    return (last, removed.isSome :: found)

/-- The same placements in the same scopes, up to the order within member lists. -/
structure Agrees (index other : Index) : Prop where
  rootId : index.rootId = other.rootId
  maxPathDepth : index.maxPathDepth = other.maxPathDepth
  find : ∀ id, index.find id = other.find id
  scopeOf : ∀ id, index.scopeOf id = other.scopeOf id
  members : ∀ scope, (index.members scope).Perm (other.members scope)

theorem remove_leaf (valid : index.table.Consistent) (inner : id ≠ index.rootId)
    (registered : index.contains id = true) (leaf : index.members id = []) :
    ∃ after placement, index.remove id = .ok (after, some placement) ∧ after.maxPathDepth = index.maxPathDepth ∧
      Table.Prunes index.table after.table (· = id) := by
  obtain ⟨entry, found⟩ := (Table.contains_iff ..).mp registered
  have inside := Table.scope?_of_found found
  have unguarded : ¬ 0 < index.memberCount id := by simp [memberCount, leaf]
  refine ⟨{ index with table := index.table.removeEntry id entry.scope }, entry.placement, ?_, rfl,
    Table.removeEntry_prunes valid inside⟩
  rw [remove, if_neg inner, found]
  exact if_neg unguarded

/-- Induction on the order; whatever is left of it still names, with each scope, all members before it. -/
theorem removeEach_prunes (valid : index.table.Consistent) (plan : index.table.MembersFirst order) :
    ∃ last, index.removeEach order = .ok (last, List.replicate order.length true) ∧
      last.maxPathDepth = index.maxPathDepth ∧ Table.Prunes index.table last.table (· ∈ order) := by
  induction order generalizing index with
  | nil => exact ⟨index, rfl, rfl, (Table.Prunes.nothing _).congr fun id => iff_false_intro List.not_mem_nil⟩
  | cons id order ih =>
    have inner : id ≠ index.rootId := fun same => plan.inner (same ▸ List.mem_cons_self)
    have leaf := plan.leaf valid
    obtain ⟨after, placement, removed, sameLimit, pruned⟩ :=
      remove_leaf valid inner (plan.registered id List.mem_cons_self) leaf
    have still := (Table.Effect.removed inner leaf pruned).consistent valid nofun
    obtain ⟨last, others, limit, further⟩ := ih still (plan.tail pruned)
    have each : index.removeEach (id :: order) = .ok (last, true :: List.replicate order.length true) :=
      bind_ok_iff.mpr ⟨_, removed, bind_ok_iff.mpr ⟨_, others, rfl⟩⟩
    exact ⟨last, each, limit.trans sameLimit, (pruned.trans further).congr fun other => List.mem_cons⟩

theorem agrees_of_prunes {last : Index} {gone : PlacementId → Prop} (one : Table.Prunes index.table last.table gone)
    (another : Table.Prunes index.table cleared.table gone) (limit : last.maxPathDepth = cleared.maxPathDepth) :
    last.Agrees cleared where
  rootId := one.root_eq.trans another.root_eq.symm
  maxPathDepth := limit
  find id := by rw [find, one.entry?_eq another, find]
  scopeOf id := by rw [scopeOf, one.entry?_eq another, scopeOf]
  members scope := one.members_perm another scope

theorem clearScope_registered (registered : index.contains id = true) :
    ∃ cleared removed count, index.clearScope id = .ok (cleared, removed, count) := by
  unfold clearScope
  split <;> exact ⟨_, _, _, rfl⟩

theorem clearScope_counts (valid : index.table.Consistent) (registered : index.contains id = true) :
    ∃ cleared removed,
      index.clearScope id = .ok (cleared, removed, index.table.countWhere (index.table.Cleared id)) := by
  obtain ⟨cleared, removed, count, success⟩ := clearScope_registered registered
  obtain ⟨handed, counted⟩ := length_clearScope valid success
  exact ⟨cleared, removed, handed ▸ counted ▸ success⟩

/-- The order names, once each and members first, what is to be taken out. -/
structure Dismantles (index : Index) (gone : PlacementId → Prop) (order : List PlacementId) : Prop where
  distinct : order.Nodup
  all : ∀ id, id ∈ order ↔ gone id
  sorted : order.Pairwise fun earlier later => later ∉ index.members earlier

/-- From the deepest upwards, whatever is registered can be listed so. -/
theorem exists_dismantling (valid : index.table.Consistent) {gone : PlacementId → Prop}
    (known : ∀ id, gone id → index.contains id = true) : ∃ order, index.Dismantles gone order := by
  classical
  obtain ⟨height, deeper⟩ := valid.exists_height
  let named := index.table.entries.keys.filter fun id => gone id
  let order := named.mergeSort fun one other => height other ≤ height one
  have same : order.Perm named := List.mergeSort_perm ..
  have sorted : order.Pairwise fun earlier later => decide (height later ≤ height earlier) = true :=
    List.pairwise_mergeSort (by grind) (by grind) named
  refine ⟨order, same.nodup_iff.mpr (Std.TreeMap.nodup_keys.filter _), fun id => ?_, ?_⟩
  · rw [same.mem_iff, List.mem_filter, Table.mem_keys_iff, decide_eq_true_eq, and_iff_right_iff_imp]
    exact known id
  · exact sorted.imp fun lower listed => Nat.not_le_of_lt (deeper _ _ listed) (of_decide_eq_true lower)

/-- Clearing a scope and removing what lies within it, the root never counted. -/
theorem clearScope_as_removals (valid : index.table.Consistent) (registered : index.contains id = true)
    (plan : index.Dismantles (fun other => other ≠ index.rootId ∧ index.table.Within id other) order) :
    ∃ last cleared removed, index.removeEach order = .ok (last, List.replicate order.length true) ∧
      index.clearScope id = .ok (cleared, removed, order.length) ∧ removed.length = order.length ∧
      last.Agrees cleared := by
  have gone (other : PlacementId) : other ∈ order ↔ index.table.Cleared id other := by
    rw [plan.all, valid.within_iff registered]
    rfl
  have within {other : PlacementId} (member : other ∈ order) : index.contains other = true :=
    valid.contains_within ((plan.all other).mp member).2
  obtain ⟨cleared, removed, count, success⟩ := clearScope_registered registered
  obtain ⟨sameLimit, effect⟩ := clearScope_effect valid success
  have first : index.table.MembersFirst order :=
    { distinct := plan.distinct
      inner := fun member => ((plan.all _).mp member).1 rfl
      registered := fun other member => within member
      closed := fun scope member other listed =>
        (gone other).mpr (Table.cleared_closed valid id scope other ((gone scope).mp member) listed)
      sorted := plan.sorted }
  obtain ⟨last, each, limit, pruned⟩ := removeEach_prunes valid first
  obtain ⟨handed, counted⟩ := length_clearScope valid success
  have named : removed.length = order.length := by
    rw [handed]
    refine (Table.length_eq_countWhere plan.distinct fun other => ?_).symm
    exact (gone other).trans (and_iff_right_of_imp fun out => within ((gone other).mpr out)).symm
  refine ⟨last, cleared, removed, each, named ▸ counted ▸ success, named, ?_⟩
  · cases effect with
    | cleared another =>
      exact agrees_of_prunes pruned (another.congr gone) (limit.trans sameLimit.symm)

end Index

/-- After every run of calls, clearing a scope comes to the same as removing it and all that is registered below it
one by one, in any order of members before their scopes, and there are such orders: every removal finds its placement,
the counts agree, and so do the indexes. Clearing the root, or everything, comes to removing all but the root. -/
theorem run_clears_as_removals (root : Placement) (maxPathDepth : Nat) (mutations : List Mutation)
    (fresh : FreshIds root.id mutations) :
    let index := (Recorded.run root maxPathDepth mutations).index
    (∀ id, index.contains id = true → id ≠ index.rootId →
      (∃ order, index.Dismantles (index.table.Within id) order) ∧
      ∀ order, index.Dismantles (index.table.Within id) order →
        ∃ last cleared removed, index.removeEach order = .ok (last, List.replicate order.length true) ∧
          index.clearScope id = .ok (cleared, removed, order.length) ∧ removed.length = order.length ∧
          last.Agrees cleared) ∧
    (∃ order, index.Dismantles (fun id => id ≠ index.rootId ∧ index.table.Within index.rootId id) order) ∧
    ∀ order, index.Dismantles (fun id => id ≠ index.rootId ∧ index.table.Within index.rootId id) order →
      ∃ last cleared removed, index.removeEach order = .ok (last, List.replicate order.length true) ∧
        index.clearScope index.rootId = .ok (cleared, removed, order.length) ∧ index.clear = (cleared, removed) ∧
        removed.length = order.length ∧ removed.length = index.size ∧ last.Agrees cleared := by
  intro index
  have valid : index.table.Consistent := (Recorded.run_sound root maxPathDepth mutations fresh).consistent
  refine ⟨fun id registered inner => ⟨?_, fun order plan => ?_⟩, ?_, fun order plan => ?_⟩
  · exact Index.exists_dismantling valid fun _ within => valid.contains_within within
  · refine Index.clearScope_as_removals valid registered ⟨plan.distinct, fun other => ?_, plan.sorted⟩
    rw [plan.all, iff_and_self]
    exact fun within => valid.inner_of_reached inner ((valid.within_iff registered).mp within)
  · exact Index.exists_dismantling valid fun _ out => valid.contains_within out.2
  · have rooted : index.contains index.rootId = true := valid.contains_root
    obtain ⟨last, cleared, removed, each, success, counted, agrees⟩ :=
      Index.clearScope_as_removals valid rooted plan
    have all : index.clear = (cleared, removed) := by
      rw [Index.clearScope, if_pos rfl] at success
      obtain ⟨same, also, _⟩ := by simpa only [Except.ok.injEq, Prod.mk.injEq] using success
      exact Prod.ext same also
    refine ⟨last, cleared, removed, each, success, all, counted, ?_, agrees⟩
    rw [(Index.length_clearScope valid success).1]
    exact valid.countWhere_cleared_root

namespace Trial

/-- Something at three levels below the root, and nothing removed. -/
def planted : List Mutation :=
  [.insert track root.id, .insert part track.id, .insert blur part.id, .insert echo track.id]

end Trial

theorem run_clears_as_removals_trial :
    let index := (Recorded.run Trial.root 5 Trial.planted).index
    let order := [Trial.blur.id, Trial.part.id, Trial.echo.id, Trial.track.id]
    FreshIds Trial.root.id Trial.planted ∧
    (index.contains Trial.track.id = true ∧ Trial.track.id ≠ index.rootId ∧
      index.Dismantles (index.table.Within Trial.track.id) order ∧
      ∃ last cleared removed, index.removeEach order = .ok (last, [true, true, true, true]) ∧
        index.clearScope Trial.track.id = .ok (cleared, removed, 4) ∧ removed.length = 4 ∧ last.Agrees cleared) ∧
    index.Dismantles (fun id => id ≠ index.rootId ∧ index.table.Within index.rootId id) order ∧
      ∃ last cleared removed, index.removeEach order = .ok (last, [true, true, true, true]) ∧
        index.clearScope index.rootId = .ok (cleared, removed, 4) ∧ index.clear = (cleared, removed) ∧
        removed.length = 4 ∧ removed.length = index.size ∧ last.Agrees cleared := by
  intro index order
  have fresh : FreshIds Trial.root.id Trial.planted := by decide
  have valid : index.table.Consistent := (Recorded.run_sound Trial.root 5 Trial.planted fresh).consistent
  have tracked : index.contains Trial.track.id = true := by decide +kernel
  have rooted : index.contains index.rootId = true := by decide +kernel
  have inner : Trial.track.id ≠ index.rootId := by decide +kernel
  have others : ∀ id ∈ index.table.entries.keys, id ≠ index.rootId → id ∈ order := by decide +kernel
  have listed {scope id : PlacementId} (within : index.table.Within scope id) (inner : id ≠ index.rootId) :
      id ∈ order := others id ((Table.mem_keys_iff ..).mpr (valid.contains_within within)) inner
  have part : Trial.part.id ∈ index.members Trial.track.id := by decide +kernel
  have echo : Trial.echo.id ∈ index.members Trial.track.id := by decide +kernel
  have blur : Trial.blur.id ∈ index.members Trial.part.id := by decide +kernel
  have below : ∀ id ∈ order, Relation.ReflTransGen index.table.Lists Trial.track.id id := by
    simp only [order, List.forall_mem_cons]
    exact ⟨.tail (.single part) blur, .single part, .single echo, .refl, nofun⟩
  have first : Trial.track.id ∈ index.members index.rootId := by decide +kernel
  have innermost : ∀ id ∈ order, id ≠ index.rootId := by decide +kernel
  have sorted : order.Pairwise fun earlier later => later ∉ index.members earlier := by decide +kernel
  have dismantles : index.Dismantles (index.table.Within Trial.track.id) order := by
    refine ⟨by decide, fun id => ⟨fun member => (valid.within_iff tracked).mpr (below id member), ?_⟩, sorted⟩
    exact fun within => listed within (valid.inner_of_reached inner ((valid.within_iff tracked).mp within))
  have whole : index.Dismantles (fun id => id ≠ index.rootId ∧ index.table.Within index.rootId id) order := by
    refine ⟨by decide, fun id => ⟨fun member => ⟨innermost id member, ?_⟩, fun out => listed out.2 out.1⟩, sorted⟩
    exact (valid.within_iff rooted).mpr (.head first (below id member))
  have clears := run_clears_as_removals Trial.root 5 Trial.planted fresh
  exact ⟨fresh, ⟨tracked, inner, dismantles, (clears.1 _ tracked inner).2 order dismantles⟩, whole,
    clears.2.2 order whole⟩

end MediaSession
