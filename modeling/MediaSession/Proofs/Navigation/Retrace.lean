import MediaSession.Proofs.Navigation.Longest

/-!
Going back. Navigation to a scope on the intact part of a route cuts the route there: the route up to that scope is
always one that can be kept, and no longer one can, since it would have to meet the scope a second time.
-/
namespace MediaSession
namespace ScopePath
variable {used more : List PlacementId} {index after : Index} {target id : PlacementId} {chain : List PlacementId}
  {path moved : ScopePath}

/-- A tracked path on which nothing lies beyond the depth limit. -/
structure Shallow (used : List PlacementId) (index : Index) (path : ScopePath) : Prop extends
    path.Tracked used index where
  near : ∀ {id}, id ∈ path.anchors → ¬ index.table.LiesBeyond index.maxPathDepth id

/-- Whatever is around a scope that can be discovered lies within the limit as well. -/
theorem near_of_discover (valid : index.table.Consistent) (registered : index.contains target = true)
    (success : discover index target = .ok chain) (member : id ∈ chain) :
    ¬ index.table.LiesBeyond index.maxPathDepth id := by
  obtain ⟨up, ascent⟩ := valid.ascent registered
  obtain ⟨rfl, near⟩ := (discover_ok_iff valid ascent).mp success
  obtain ⟨higher, rest, shorter⟩ := ascent.suffix (List.mem_reverse.mp member)
  intro beyond
  have far := ((Table.liesBeyond_iff valid rest).mp beyond).2
  exact Nat.not_lt_of_le (Nat.le_trans shorter.length_le near) far

theorem Shallow.navigate (shallow : path.Shallow used index) (sound : index.Sound used) {scope : Scope}
    (success : path.navigate index scope = .ok moved) : moved.Shallow used index := by
  refine ⟨shallow.toTracked.navigate sound success, fun {id} member => ?_⟩
  obtain ⟨target, rfl, _, _, ⟨_, same⟩ | ⟨elsewhere, _⟩⟩ := navigate_ok success
  · exact shallow.near (same ▸ member)
  · obtain ⟨registered, chain, discovered, whole | ⟨kept, _, start, _, joins⟩⟩ :=
      navigate_elsewhere success elsewhere
    · exact near_of_discover sound.consistent registered discovered (whole ▸ member)
    · obtain ⟨_, rest, _, grafted, _, _, whole⟩ := joined_some_iff.mp joins
      rw [whole] at member
      rcases List.mem_append.mp member with old | new
      · exact shallow.near (start.subset old)
      · exact near_of_discover sound.consistent registered discovered ((suffix_of_graft grafted).subset new)

theorem shallow_law (sound : index.Sound used) : PathLaw index (Shallow used index) where
  root := by
    refine ⟨root_tracked sound, fun member beyond => beyond.2.1 ?_⟩
    exact List.mem_singleton.mp member
  cut shallow within := ⟨shallow.toTracked.cut within, fun member => shallow.near (within.subset member)⟩
  navigate shallow success := shallow.navigate sound success

theorem Shallow.mono (shallow : path.Shallow used index) : path.Shallow (used ++ more) index :=
  ⟨shallow.toTracked.mono, shallow.near⟩

theorem Shallow.apply (shallow : path.Shallow used index) (sound : index.Sound used) {mutation : Mutation}
    {event : Option Event} (fresh : (used ++ mutation.offered).Nodup)
    (success : mutation.apply index = .ok (after, event)) : path.Shallow (used ++ mutation.offered) after := by
  refine ⟨shallow.toTracked.apply sound fresh success, fun {id} member beyond => shallow.near member ?_⟩
  obtain ⟨sameDepth, effect⟩ := Mutation.apply_effect sound.consistent success
  rw [sameDepth] at beyond
  have new {placement : Placement} {scope : PlacementId}
      (same : event = some (.inserted placement scope)) : placement.id ∉ used :=
    Mutation.inserted_unused fresh (same ▸ success)
  refine effect.liesBeyond_before sound.consistent (fun same here => ?_) (fun same here => ?_) beyond
  · exact new same (sound.known here)
  · exact new same (here ▸ shallow.known member)

/-- A start of a list without repeats is settled by where it ends. -/
theorem eq_of_prefix_of_getLast {start route : List PlacementId} (within : start <+: route) (distinct : route.Nodup)
    (startEnds : start.getLast? = some id) (routeEnds : route.getLast? = some id) : start = route := by
  obtain ⟨rest, rfl⟩ := within
  rcases List.eq_nil_or_concat rest with rfl | ⟨before, last, rfl⟩
  · exact (List.append_nil _).symm
  · have apart := (List.nodup_append.mp distinct).2.2 id (List.mem_of_getLast? startEnds) last (by simp)
    rw [List.concat_eq_append, ← List.append_assoc, List.getLast?_concat] at routeEnds
    exact absurd (Option.some.inj routeEnds).symm apart

/-- Navigation to a scope on the intact part of a route leads back to it along the route, whatever is bound there. -/
theorem navigate_back (valid : index.table.Consistent) (positive : 1 ≤ index.maxPathDepth)
    (shallow : path.Shallow used index) {number : Nat} (place : path.anchors[number]? = some id)
    (intact : ∀ other ∈ path.anchors.take (number + 1), index.contains other = true)
    (elsewhere : path.leaf ≠ .ok (.anchored id)) :
    path.navigate index (.anchored id) = .ok ⟨path.anchors.take (number + 1)⟩ := by
  have ends : (path.anchors.take (number + 1)).getLast? = some id := by
    rw [List.take_add_one, place, Option.toList_some, List.getLast?_concat]
  have member : id ∈ path.anchors.take (number + 1) := List.mem_of_getLast? ends
  have start : path.anchors.take (number + 1) <+: path.anchors := List.take_prefix ..
  have nonempty : path.anchors.take (number + 1) ≠ [] := List.ne_nil_of_mem member
  have rooted := shallow.rooted (List.ne_nil_of_mem (start.subset member))
  obtain ⟨up, ascent⟩ := valid.ascent (intact id member)
  have near : up.length ≤ index.maxPathDepth := by
    by_cases same : id = index.rootId
    · subst same
      rw [ascent.unique .root]
      exact positive
    · refine Nat.le_of_not_lt fun far => ?_
      exact shallow.near (start.subset member) ((Table.liesBeyond_iff valid ascent).mpr ⟨same, far⟩)
  obtain ⟨kept, rest, led, longest⟩ := navigate_within valid rooted elsewhere ascent near
  -- the route up to the target needs nothing more, so what is kept is at least as long
  have continues : Continues index up.reverse (path.anchors.take (number + 1)) [] := by
    obtain ⟨below, same⟩ := List.head?_eq_some_iff.mp ascent.head
    refine ⟨⟨id, ends, .inl ⟨below.reverse, by rw [same, List.reverse_cons]⟩⟩, List.forall_mem_nil _, ?_⟩
    exact Nat.le_trans start.length_le (Nat.max_eq_right positive ▸ shallow.bounded)
  have longer := longest.longest ⟨nonempty, start, intact⟩ continues
  have inside : path.anchors.take (number + 1) <+: kept :=
    List.prefix_of_prefix_length_le start longest.intact.start longer
  have leaf : (kept ++ rest).getLast? = some id := navigate_leaf valid led
  have nothing : rest = [] := by
    rcases List.eq_nil_or_concat rest with none | ⟨before, last, rfl⟩
    · exact none
    · rw [List.concat_eq_append, ← List.append_assoc, List.getLast?_concat] at leaf
      have again : id ∈ before.concat last := by simp [Option.some.inj leaf]
      exact absurd (inside.subset member) (longest.continues.apart id again)
  rw [nothing, List.append_nil] at leaf led
  have distinct := shallow.nodup.sublist longest.intact.start.sublist
  rw [led, eq_of_prefix_of_getLast inside distinct ends leaf]

end ScopePath

namespace Tour

/-- A path at hand, or one that a frame of the stack or a handle looks at. -/
def Shows (tour : Tour) (path : ScopePath) : Prop :=
  path ∈ tour.paths ∨ (∃ frame ∈ tour.live.stack.frames, tour.live.desk.path frame = path) ∨
    ∃ handle frame, tour.live.desk.frameOf? handle = some frame ∧ tour.live.desk.pathOf handle = path

theorem Holds.of_shows {good : ScopePath → Prop} {tour : Tour} (holds : tour.Holds good) {path : ScopePath}
    (shown : tour.Shows path) : good path := by
  rcases shown with member | ⟨frame, member, rfl⟩ | ⟨handle, frame, attached, rfl⟩
  · exact holds.paths member
  · exact (holds.focus.framed member).1
  · rw [FocusDesk.pathOf_of_frameOf? attached]
    exact (holds.focus.attached attached).1

/-- After every run nothing on a path lies beyond the depth limit. -/
theorem run_shallow (config : SessionConfig) (root : Placement) (calls : List TourCall)
    (fresh : FreshIds root.id calls) :
    (run config root calls).Holds
      (ScopePath.Shallow (root.id :: calls.flatMap TourCall.offered) (run config root calls).index) := by
  refine (foldl_fresh_induction step TourCall.offered (fun used tour =>
    tour.index.Sound used ∧ tour.Holds (ScopePath.Shallow used tour.index)) ?_ [root.id] _ ?_ calls fresh).2
  · rintro used tour call ⟨sound, holds⟩ fresh
    have shown := holds.step sound.consistent (ScopePath.shallow_law sound) call
    rcases tour.index_step call with same | ⟨mutation, event, offers, success⟩
    · rw [← same] at sound shown
      exact ⟨sound.mono, shown.mono fun shallow => shallow.mono⟩
    · rw [← offers] at fresh ⊢
      exact ⟨sound.apply fresh success, shown.mono fun shallow => shallow.apply sound fresh success⟩
  · have sound : (start config root).index.Sound [root.id] := Index.ofRoot_sound root config.maxPathDepth
    have shallow := (ScopePath.shallow_law sound).root
    exact ⟨sound, LiveSession.start_holds config root shallow, fun member => absurd member List.not_mem_nil⟩

end Tour

/-- Going back along a route cuts it: whatever path there is, and whatever has become of the scopes further down,
navigation to a scope that the path leads through, and up to which it is registered throughout, keeps just the part of
the path up to there. -/
theorem run_cuts_route (config : SessionConfig) (positive : 1 ≤ config.maxPathDepth) (root : Placement)
    (calls : List TourCall) (fresh : Tour.FreshIds root.id calls) :
    let tour := Tour.run config root calls
    ∀ path, tour.Shows path → ∀ number id, path.anchors[number]? = some id →
      (∀ other ∈ path.anchors.take (number + 1), tour.index.contains other = true) →
      path.leaf ≠ .ok (.anchored id) →
      path.navigate tour.index (.anchored id) = .ok ⟨path.anchors.take (number + 1)⟩ ∧
      (∀ place, tour.paths[place]? = some path → tour.step (.navigate place (.anchored id)) =
        { tour with paths := tour.paths.set place ⟨path.anchors.take (number + 1)⟩ }) ∧
      ∀ handle, tour.live.desk.pathOf handle = path →
        tour.live.desk.shift tour.index handle (.anchored id) =
          .ok (tour.live.desk.setPathOf handle ⟨path.anchors.take (number + 1)⟩) := by
  intro tour path shown number id place intact elsewhere
  obtain ⟨sound, _, limit⟩ := Tour.run_sound config root calls fresh
  have shallow := (Tour.run_shallow config root calls fresh).of_shows shown
  have valid : tour.index.table.Consistent := sound.live_sound.index_sound.consistent
  have led := ScopePath.navigate_back valid (limit.symm ▸ positive) shallow place intact elsewhere
  refine ⟨led, fun held present => ?_, fun handle here => ?_⟩
  · have step : tour.step (.navigate held (.anchored id)) =
      tour.change held (·.navigate tour.index (.anchored id)) := rfl
    rw [step, Tour.change, present]
    simp only [led]
  · rw [FocusDesk.shift, here, led]
    rfl

/-- The way back to the bound sequence leads through the binding, though that sequence lies right below the root. -/
theorem run_cuts_route_trial :
    let calls := Trial.calls.take 10
    let tour := Tour.run { maxPathDepth := 8 } Trial.root calls
    let upper := [Trial.root.id, Trial.timeline.id, Trial.bond.id, Trial.sequence.id]
    1 ≤ 8 ∧ Tour.FreshIds Trial.root.id calls ∧ tour.Shows ⟨upper ++ [Trial.scene.id]⟩ ∧
    tour.index.scopeOf Trial.sequence.id = .ok Trial.root.id ∧
    (⟨upper ++ [Trial.scene.id]⟩ : ScopePath).navigate tour.index (.anchored Trial.sequence.id) = .ok ⟨upper⟩ ∧
    tour.live.desk.shift tour.index 0 (.anchored Trial.sequence.id) = .ok (tour.live.desk.setPathOf 0 ⟨upper⟩) := by
  intro calls tour upper
  have fresh : Tour.FreshIds Trial.root.id calls := by decide
  have shown : tour.Shows ⟨upper ++ [Trial.scene.id]⟩ := .inl (by decide +kernel)
  obtain ⟨led, _, shifted⟩ := run_cuts_route { maxPathDepth := 8 } (by decide) Trial.root calls fresh _ shown 3
    Trial.sequence.id (by decide) (by decide +kernel) (by decide +kernel)
  exact ⟨by decide, fresh, shown, by decide +kernel, led, shifted 0 (by decide +kernel)⟩

end MediaSession
