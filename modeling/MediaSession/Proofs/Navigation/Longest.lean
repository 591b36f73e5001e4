import MediaSession.Proofs.Index.Depth
import MediaSession.Proofs.Navigation.Stale

/-!
Which route navigation takes. Of all parts of the path, from its start on, that the chain to the target can be grafted
onto, the longest is kept; the root is always one of them, so that whatever lies within the depth limit is reached.
-/
namespace MediaSession

theorem dropWhile_ne_append {id : PlacementId} {before rest : List PlacementId}
    (distinct : (before ++ id :: rest).Nodup) : (before ++ id :: rest).dropWhile (· ≠ id) = id :: rest := by
  have others : ∀ other ∈ before, decide (other ≠ id) = true := fun other member =>
    decide_eq_true ((List.nodup_append.mp distinct).2.2 other member id List.mem_cons_self)
  rw [List.dropWhile_append_of_pos others, List.dropWhile_cons_of_neg (by simp)]

namespace ScopePath
variable {index : Index} {target id bound : PlacementId} {chain kept rest route up : List PlacementId}
  {path after : ScopePath}

/-- The rest of a chain that a kept route may go on with: what follows its last scope on the chain, or what begins
with the scope that is bound there. No scope is met twice, and the whole stays within the depth limit. -/
structure Continues (index : Index) (chain kept rest : List PlacementId) : Prop where
  follows : ∃ last, kept.getLast? = some last ∧
    ((∃ before, chain = before ++ last :: rest) ∨
      (last ∉ chain ∧ rest <:+ chain ∧ ∃ placement bound, index.find last = .ok placement ∧
        placement.object.content = .binding bound ∧ rest.head? = some bound))
  apart : ∀ id ∈ rest, id ∉ kept
  bounded : kept.length + rest.length ≤ index.maxPathDepth

theorem graft_eq_some_iff (distinct : chain.Nodup) : graft index chain id = some rest ↔
    (∃ before, chain = before ++ id :: rest) ∨
      (id ∉ chain ∧ rest <:+ chain ∧ ∃ placement bound, index.find id = .ok placement ∧
        placement.object.content = .binding bound ∧ rest.head? = some bound) := by
  constructor
  · intro found
    rcases graft_some found with on | ⟨off, before, bound, others, binds, whole, begins⟩
    · exact .inl on
    · obtain ⟨placement, present, content⟩ := attachedAt_eq_some_iff.mp binds
      exact .inr ⟨off, suffix_of_graft found, placement, bound, present, content, by rw [begins]; rfl⟩
  · rintro (⟨before, rfl⟩ | ⟨off, ⟨before, rfl⟩, placement, bound, present, content, begins⟩)
    · have on : (before ++ id :: rest).contains id = true := List.contains_iff_mem.mpr (by simp)
      rw [graft, if_pos on, dropWhile_ne_append distinct]
      rfl
    · obtain ⟨others, rfl⟩ := List.head?_eq_some_iff.mp begins
      have away : ¬ (before ++ bound :: others).contains id = true := fun on => off (List.contains_iff_mem.mp on)
      have on : (before ++ bound :: others).contains bound = true := List.contains_iff_mem.mpr (by simp)
      have binds : attachedAt index id = some bound := attachedAt_eq_some_iff.mpr ⟨placement, present, content⟩
      rw [graft, if_neg away, binds, Option.bind_eq_bind, Option.bind_some, if_pos on, dropWhile_ne_append distinct]

theorem joined_eq_some_iff (distinct : chain.Nodup) :
    joined index chain kept = some route ↔ ∃ rest, Continues index chain kept rest ∧ route = kept ++ rest := by
  rw [joined_some_iff]
  constructor
  · rintro ⟨last, rest, ends, grafted, bounded, apart, whole⟩
    exact ⟨rest, ⟨⟨last, ends, (graft_eq_some_iff distinct).mp grafted⟩, apart, bounded⟩, whole⟩
  · rintro ⟨rest, ⟨⟨last, ends, follows⟩, apart, bounded⟩, whole⟩
    exact ⟨last, rest, ends, (graft_eq_some_iff distinct).mpr follows, bounded, apart, whole⟩

/-- A part of a path from its start on, and all of it still registered. -/
structure Intact (index : Index) (path : ScopePath) (kept : List PlacementId) : Prop where
  nonempty : kept ≠ []
  start : kept <+: path.anchors
  registered : ∀ id ∈ kept, index.contains id = true

theorem mem_starts_iff : kept ∈ startsDown (path.anchors.takeWhile index.contains) ↔ Intact index path kept := by
  rw [mem_startsDown_iff]
  constructor
  · rintro ⟨nonempty, start⟩
    refine ⟨nonempty, start.trans (List.takeWhile_prefix _), fun id member => ?_⟩
    exact List.all_eq_true.mp List.all_takeWhile id (start.subset member)
  · rintro ⟨nonempty, ⟨rest, whole⟩, registered⟩
    refine ⟨nonempty, ?_⟩
    rw [← whole, List.takeWhile_append_of_pos registered]
    exact List.prefix_append ..

/-- The longest come first. -/
theorem startsDown_sorted (route : List PlacementId) :
    (startsDown route).Pairwise fun longer shorter => shorter.length < longer.length := by
  rw [startsDown, List.pairwise_map, List.pairwise_reverse]
  refine List.pairwise_lt_range.imp_of_mem fun {fewer more} one other less => ?_
  rw [List.length_take_of_le (List.mem_range.mp one), List.length_take_of_le (List.mem_range.mp other)]
  exact Nat.succ_lt_succ less

/-- Of the parts of a path that can be continued to the target, the longest. -/
structure Longest (index : Index) (path : ScopePath) (chain kept rest : List PlacementId) : Prop where
  intact : Intact index path kept
  continues : Continues index chain kept rest
  longest : ∀ {other more}, Intact index path other → Continues index chain other more → other.length ≤ kept.length

theorem splice_longest (distinct : chain.Nodup) (found : splice index chain path = some route) :
    ∃ kept rest, route = kept ++ rest ∧ Longest index path chain kept rest := by
  obtain ⟨longer, kept, shorter, split, joins, failed⟩ := List.findSome?_eq_some_iff.mp found
  obtain ⟨rest, continues, whole⟩ := (joined_eq_some_iff distinct).mp joins
  have sorted := startsDown_sorted (path.anchors.takeWhile index.contains)
  have intact : Intact index path kept := mem_starts_iff.mp (split ▸ List.mem_append_right _ List.mem_cons_self)
  refine ⟨kept, rest, whole, intact, continues, fun {other more} usable follows => ?_⟩
  rw [split] at sorted
  have listed := mem_starts_iff.mpr usable
  rw [split, List.mem_append, List.mem_cons] at listed
  rcases listed with before | same | behind
  · have joins := (joined_eq_some_iff distinct).mpr ⟨more, follows, rfl⟩
    rw [failed other before] at joins
    cases joins
  · rw [same]
  · exact Nat.le_of_lt ((List.pairwise_cons.mp (List.pairwise_append.mp sorted).2.1).1 other behind)

/-- The root by itself can always be kept, and the whole chain be followed from there. -/
theorem splice_rooted (valid : index.table.Consistent) (descends : Descends index target chain)
    (rooted : path.anchors.head? = some index.rootId) : ∃ route, splice index chain path = some route := by
  obtain ⟨rest, whole⟩ := List.head?_eq_some_iff.mp descends.head
  obtain ⟨others, begins⟩ := List.head?_eq_some_iff.mp rooted
  have intact : Intact index path [index.rootId] :=
    { nonempty := List.cons_ne_nil _ _
      start := begins ▸ ⟨others, rfl⟩
      registered := fun id member => List.mem_singleton.mp member ▸ valid.contains_root }
  have distinct := descends.nodup
  have bounded := descends.bounded
  have continues : Continues index chain [index.rootId] rest := by
    rw [whole] at distinct bounded
    refine ⟨⟨index.rootId, rfl, .inl ⟨[], whole⟩⟩, fun id member same => ?_, Nat.add_comm .. ▸ bounded⟩
    exact (List.nodup_cons.mp distinct).1 (List.mem_singleton.mp same ▸ member)
  by_contra none
  have failed := List.findSome?_eq_none_iff.mp (Option.eq_none_iff_forall_ne_some.mpr (not_exists.mp none))
  have joins := (joined_eq_some_iff descends.nodup).mpr ⟨rest, continues, rfl⟩
  rw [failed _ (mem_starts_iff.mpr intact)] at joins
  cases joins

theorem navigate_within (valid : index.table.Consistent) (rooted : path.anchors.head? = some index.rootId)
    (elsewhere : path.leaf ≠ .ok (.anchored target)) (ascent : index.table.Ascent target up)
    (near : up.length ≤ index.maxPathDepth) :
    ∃ kept rest, path.navigate index (.anchored target) = .ok ⟨kept ++ rest⟩ ∧
      Longest index path up.reverse kept rest := by
  have nonempty : path.anchors ≠ [] := by
    rintro empty
    rw [empty] at rooted
    cases rooted
  have discovered := (discover_ok_iff valid ascent).mpr ⟨rfl, near⟩
  have descends := descends_of_discover valid (valid.contains_of_ascent ascent) discovered
  obtain ⟨route, found⟩ := splice_rooted valid descends rooted
  obtain ⟨kept, rest, rfl, longest⟩ := splice_longest descends.nodup found
  refine ⟨kept, rest, ?_, longest⟩
  rw [navigate_eq valid ascent nonempty, if_neg (mt leaf_ok_iff.mpr elsewhere), if_pos near, found, Option.getD_some]

end ScopePath

/-- Anchored at a depth below the limit. -/
def Index.InReach (index : Index) (target : Scope) : Prop :=
  ∃ id depth, target = .anchored id ∧ index.table.AtDepth id depth ∧ depth < index.maxPathDepth

theorem Index.inReach_iff {index : Index} {id : PlacementId} {up : List PlacementId}
    (ascent : index.table.Ascent id up) : index.InReach (.anchored id) ↔ up.length ≤ index.maxPathDepth := by
  constructor
  · rintro ⟨_, depth, same, ⟨other, again, length⟩, within⟩
    cases same
    rw [ascent.unique again, length]
    exact within
  · exact fun near => ⟨id, _, rfl, ascent.atDepth, Nat.sub_one_lt_of_le ascent.length_pos near⟩

theorem ScopePath.navigate_beyond {index : Index} {path : ScopePath} {target : Scope} (valid : index.table.Consistent)
    (nonempty : path.anchors ≠ []) (elsewhere : path.leaf ≠ .ok target) (beyond : ¬ index.InReach target) :
    ∃ reason, path.navigate index target = .error (.invalidScope reason) := by
  have started : path.isEmpty = false := by simpa [isEmpty] using nonempty
  obtain ⟨_ | id⟩ := target
  · refine ⟨.noSuchTarget none, ?_⟩
    simp [navigate, started]
  · by_cases registered : index.contains id = true
    · obtain ⟨up, ascent⟩ := valid.ascent registered
      refine ⟨.disconnected id, ?_⟩
      rw [← Scope.anchored, navigate_eq valid ascent nonempty, if_neg (mt leaf_ok_iff.mpr elsewhere),
        if_neg (mt (Index.inReach_iff ascent).mpr beyond)]
    · refine ⟨.noSuchTarget (some id), ?_⟩
      simp [navigate, started, registered]

/-- Whatever has become of its scopes, a path that ends elsewhere is led to a target just in case that lies within the
depth limit; it then keeps as much of its route as can be continued to the target, and else it stays. -/
theorem run_navigates_longest (config : SessionConfig) (root : Placement) (calls : List TourCall)
    (fresh : Tour.FreshIds root.id calls) :
    let tour := Tour.run config root calls
    ∀ number path, tour.paths[number]? = some path → path.anchors ≠ [] → ∀ target, path.leaf ≠ .ok target →
      (tour.index.InReach target → ∃ id up kept rest, target = .anchored id ∧ tour.index.table.Ascent id up ∧
        ScopePath.Longest tour.index path up.reverse kept rest ∧ (kept ++ rest).getLast? = some id ∧
        path.navigate tour.index target = .ok ⟨kept ++ rest⟩ ∧
        tour.step (.navigate number target) = { tour with paths := tour.paths.set number ⟨kept ++ rest⟩ }) ∧
      (¬ tour.index.InReach target → ∃ reason, path.navigate tour.index target = .error (.invalidScope reason) ∧
        tour.step (.navigate number target) = tour) := by
  intro tour number path held nonempty target elsewhere
  obtain ⟨sound, _⟩ := Tour.run_sound config root calls fresh
  have valid : tour.index.table.Consistent := sound.live_sound.index_sound.consistent
  have step : tour.step (.navigate number target) = tour.change number (·.navigate tour.index target) := rfl
  rw [step, Tour.change, held]
  refine ⟨?_, fun beyond => ?_⟩
  · rintro ⟨id, depth, rfl, ⟨up, ascent, length⟩, within⟩
    have rooted := (sound.tracked (List.mem_of_getElem? held)).rooted nonempty
    obtain ⟨kept, rest, led, longest⟩ := ScopePath.navigate_within valid rooted elsewhere ascent (length ▸ within)
    refine ⟨id, up, kept, rest, rfl, ascent, longest, ScopePath.navigate_leaf valid led, led, ?_⟩
    simp only [led]
  · obtain ⟨reason, failed⟩ := ScopePath.navigate_beyond valid nonempty elsewhere beyond
    refine ⟨reason, failed, ?_⟩
    simp only [failed]

/-- A way through a binding is kept, and nothing is reached that was never registered. -/
theorem run_navigates_longest_trial :
    let calls := Trial.calls.take 6
    let tour := Tour.run { maxPathDepth := 8 } Trial.root calls
    let path : ScopePath := ⟨[Trial.root.id, Trial.timeline.id, Trial.bond.id]⟩
    Tour.FreshIds Trial.root.id calls ∧ tour.paths[0]? = some path ∧
    (tour.index.InReach (.anchored Trial.scene.id) ∧ ∃ up kept rest, tour.index.table.Ascent Trial.scene.id up ∧
      ScopePath.Longest tour.index path up.reverse kept rest ∧
      kept ++ rest = path.anchors ++ [Trial.sequence.id, Trial.scene.id]) ∧
    ¬ tour.index.InReach (.anchored Trial.blur.id) ∧
      tour.step (.navigate 0 (.anchored Trial.blur.id)) = tour := by
  intro calls tour path
  have fresh : Tour.FreshIds Trial.root.id calls := by decide
  have held : tour.paths[0]? = some path := by decide +kernel
  have navigates := run_navigates_longest { maxPathDepth := 8 } Trial.root calls fresh 0 path held (by decide)
  have within : tour.index.table.Ascent Trial.scene.id [Trial.scene.id, Trial.sequence.id, Trial.root.id] :=
    .scope (by decide +kernel) (by decide +kernel) (.scope (by decide +kernel) (by decide +kernel) .root)
  have reached : tour.index.InReach (.anchored Trial.scene.id) := ⟨_, 2, rfl, ⟨_, within, rfl⟩, by decide +kernel⟩
  have unknown : tour.index.contains Trial.blur.id = false := by decide +kernel
  have beyond : ¬ tour.index.InReach (.anchored Trial.blur.id) := by
    rintro ⟨id, depth, same, ⟨up, ascent, _⟩, _⟩
    cases same
    obtain ⟨sound, _⟩ := Tour.run_sound { maxPathDepth := 8 } Trial.root calls fresh
    have known := sound.live_sound.index_sound.consistent.contains_of_ascent ascent
    exact Bool.false_ne_true (unknown.symm.trans known)
  have led : path.navigate tour.index (.anchored Trial.scene.id) =
      .ok ⟨path.anchors ++ [Trial.sequence.id, Trial.scene.id]⟩ := by decide +kernel
  obtain ⟨_, up, kept, rest, same, ascent, longest, _, success, _⟩ := (navigates _ (by decide +kernel)).1 reached
  cases same
  rw [led] at success
  have whole := congrArg ScopePath.anchors (Except.ok.inj success).symm
  obtain ⟨_, _, stays⟩ := (navigates _ (by decide +kernel)).2 beyond
  exact ⟨fresh, held, ⟨reached, up, kept, rest, ascent, longest, whole⟩, beyond, stays⟩

end MediaSession
