import MediaSession.Proofs.Index.Run
import MediaSession.Proofs.Navigation.Navigate

/-!
The invariant of scope paths. A path outlives changes of its index; what it says of scopes that are still
registered stays true as long as no identity is used twice.
-/
namespace MediaSession

/-- The shape a path keeps, whatever has become of its scopes. -/
structure ScopePath.Sound (index : Index) (path : ScopePath) : Prop where
  rooted : path.anchors ≠ [] → path.anchors.head? = some index.rootId
  nodup : path.anchors.Nodup
  bounded : path.length ≤ max 1 index.maxPathDepth
  linked : path.anchors.IsChain fun upper lower =>
    index.contains upper = true → index.contains lower = true → index.LeadsTo upper lower

/-- A sound path of scopes that were all used. -/
structure ScopePath.Tracked (used : List PlacementId) (index : Index) (path : ScopePath) : Prop extends
    path.Sound index where
  known : ∀ {id}, id ∈ path.anchors → id ∈ used

namespace ScopePath
variable {used : List PlacementId} {index after : Index} {path moved : ScopePath}

theorem Tracked.cut (tracked : path.Tracked used index) {start : List PlacementId}
    (within : start <+: path.anchors) : Tracked used index ⟨start⟩ where
  rooted nonempty := by
    obtain ⟨rest, whole⟩ := within
    have rooted := tracked.rooted (by rw [← whole]; exact List.append_ne_nil_of_left_ne_nil nonempty _)
    rw [← whole, List.head?_append_of_ne_nil _ nonempty] at rooted
    exact rooted
  nodup := tracked.nodup.sublist within.sublist
  bounded := Nat.le_trans within.length_le tracked.bounded
  linked := tracked.linked.prefix within
  known member := tracked.known (within.subset member)

theorem root_tracked (sound : index.Sound used) : (root index).Tracked used index where
  rooted _ := rfl
  nodup := List.nodup_singleton _
  bounded := Nat.le_max_left ..
  linked := List.isChain_singleton _
  known member := by
    rw [List.mem_singleton.mp member]
    exact sound.known sound.consistent.contains_root

theorem Tracked.navigate (tracked : path.Tracked used index) (sound : index.Sound used) {target : Scope}
    (success : path.navigate index target = .ok moved) : moved.Tracked used index := by
  obtain ⟨id, same, _, nonempty, ways⟩ := navigate_ok success
  subst same
  rcases ways with ⟨_, same⟩ | ⟨elsewhere, _⟩
  · rw [same]
    exact tracked
  · have reroutes := navigate_reroutes sound.consistent success elsewhere
    exact
      { rooted := fun _ => reroutes.head (tracked.rooted nonempty)
        nodup := reroutes.nodup tracked.nodup
        bounded := Nat.le_trans reroutes.bounded (Nat.le_max_right ..)
        linked := (reroutes.linked tracked.linked).imp fun _ _ leads _ _ => leads
        known := fun member => sound.known (navigate_registered success elsewhere member) }

theorem moveUp_ok {scope : Scope} (success : path.moveUp = .ok (scope, moved)) :
    path.anchors ≠ [] ∧ moved.anchors = path.anchors.dropLast := by
  unfold moveUp at success
  split at success
  · cases success
  · rename_i nonempty
    cases success
    exact ⟨by simpa [isEmpty] using nonempty, rfl⟩

theorem goRoot_ok {scope : Scope} (success : path.goRoot = .ok (scope, moved)) :
    ∃ first rest, path.anchors = first :: rest ∧ moved.anchors = [first] := by
  unfold goRoot at success
  split at success
  · cases success
  · rename_i first rest whole
    cases success
    exact ⟨first, rest, whole, rfl⟩

theorem sharedStart_isPrefix (first second : List PlacementId) : sharedStart first second <+: first := by
  fun_induction sharedStart first second with
  | case1 first id second ih => exact (List.prefix_cons_inj id).mpr ih
  | case2 | case3 => exact List.nil_prefix

end ScopePath

/-- A property that the path at the root has, and that a path keeps when it is cut or led elsewhere. -/
structure PathLaw (index : Index) (good : ScopePath → Prop) : Prop where
  root : good (.root index)
  cut : ∀ {path : ScopePath} {start}, good path → start <+: path.anchors → good ⟨start⟩
  navigate : ∀ {path moved : ScopePath} {target}, good path → path.navigate index target = .ok moved → good moved

namespace PathLaw
variable {index : Index} {good : ScopePath → Prop} {path moved : ScopePath}

theorem invalid (law : PathLaw index good) : good .invalid := law.cut law.root List.nil_prefix

theorem toLeaf (law : PathLaw index good) {leaf : Scope} (success : ScopePath.toLeaf index leaf = .ok moved) :
    good moved := by
  unfold ScopePath.toLeaf at success
  split at success
  · cases success
    exact law.invalid
  · exact law.navigate law.root success

theorem moveUp (law : PathLaw index good) {scope : Scope} (holds : good path)
    (success : path.moveUp = .ok (scope, moved)) : good moved := by
  obtain ⟨_, rest⟩ := ScopePath.moveUp_ok success
  exact law.cut holds (rest ▸ List.dropLast_prefix _)

theorem goRoot (law : PathLaw index good) {scope : Scope} (holds : good path)
    (success : path.goRoot = .ok (scope, moved)) : good moved := by
  obtain ⟨first, rest, whole, same⟩ := ScopePath.goRoot_ok success
  refine law.cut holds ?_
  rw [whole, same]
  exact ⟨rest, rfl⟩

theorem commonStart (law : PathLaw index good) (holds : good path) (other : ScopePath) :
    good (path.commonStart other) := law.cut holds (ScopePath.sharedStart_isPrefix ..)

end PathLaw

namespace ScopePath
variable {used : List PlacementId} {index after : Index} {path : ScopePath}

theorem tracked_law (sound : index.Sound used) : PathLaw index (Tracked used index) where
  root := root_tracked sound
  cut tracked within := tracked.cut within
  navigate tracked success := tracked.navigate sound success

/-- A link between scopes stays while both are registered. -/
theorem leadsTo_of_effect {event : Option Event} (effect : Table.Effect index.table event after.table)
    (fresh : ∀ {placement scope}, event = some (.inserted placement scope) → placement.id ∉ used)
    {upper lower : PlacementId} (above : upper ∈ used) (below : lower ∈ used)
    (linked : index.contains upper = true → index.contains lower = true → index.LeadsTo upper lower)
    (upperStays : after.contains upper = true) (lowerStays : after.contains lower = true) :
    after.LeadsTo upper lower := by
  have earlier {id : PlacementId} (old : id ∈ used) {entry : Entry}
      (found : after.table.entry? id = some entry) :=
    effect.entry_kept (fun same here => fresh same (here ▸ old)) found
  obtain ⟨upperEntry, upperFound⟩ := (Table.contains_iff ..).mp upperStays
  obtain ⟨lowerEntry, lowerFound⟩ := (Table.contains_iff ..).mp lowerStays
  obtain ⟨upperBefore, wasUpper, _, sameObject⟩ := earlier above upperFound
  obtain ⟨lowerBefore, wasLower, sameScope, _⟩ := earlier below lowerFound
  have leads := linked ((Table.contains_iff ..).mpr ⟨_, wasUpper⟩) ((Table.contains_iff ..).mpr ⟨_, wasLower⟩)
  rcases leads with inside | ⟨placement, found, binds⟩
  · left
    rw [Index.scopeOf_ok_iff, Table.scope?, wasLower] at inside
    rw [Index.scopeOf_ok_iff, Table.scope?, lowerFound, Option.map_some, ← sameScope]
    exact inside
  · right
    obtain ⟨entry, present, same⟩ := Index.find_ok found
    rw [wasUpper] at present
    cases present
    subst same
    refine ⟨upperEntry.placement, by simp [Index.find, upperFound], ?_⟩
    rw [← sameObject]
    exact binds

theorem Tracked.apply (tracked : path.Tracked used index) (sound : index.Sound used) {mutation : Mutation}
    {event : Option Event} (fresh : (used ++ mutation.offered).Nodup)
    (success : mutation.apply index = .ok (after, event)) : path.Tracked (used ++ mutation.offered) after := by
  obtain ⟨sameDepth, effect⟩ := Mutation.apply_effect sound.consistent success
  have rooted : after.rootId = index.rootId := effect.root_eq
  have new {placement : Placement} {scope : PlacementId}
      (same : event = some (.inserted placement scope)) : placement.id ∉ used :=
    Mutation.inserted_unused fresh (same ▸ success)
  exact
    { rooted := fun nonempty => by rw [rooted]; exact tracked.rooted nonempty
      nodup := tracked.nodup
      bounded := by rw [sameDepth]; exact tracked.bounded
      linked := tracked.linked.imp_of_mem_imp fun upper lower above below linked =>
        leadsTo_of_effect effect new (tracked.known above) (tracked.known below) linked
      known := fun member => List.mem_append_left _ (tracked.known member) }

theorem Tracked.mono {more : List PlacementId} (tracked : path.Tracked used index) :
    path.Tracked (used ++ more) index :=
  { tracked with known := fun member => List.mem_append_left _ (tracked.known member) }

end ScopePath

end MediaSession
