import MediaSession.Proofs.Index.Run
import MediaSession.Proofs.Tree.Likeness

/-!
What is drawn after runs of calls: every registered placement in one line, and as the tree asks for, but for siblings of
the same text. These come in the order of their identities, so that trees alike in all that is drawn can look different.
-/
namespace MediaSession

/-- Trees that correspond to each other, the order of members with the same text included, are drawn alike, whatever
their identities and however they came about; and none are else, as long as no name has a line feed. -/
theorem run_draws_alike (root otherRoot : Placement) (maxPathDepth otherDepth : Nat)
    (mutations otherMutations : List Mutation) (fresh : FreshIds root.id mutations)
    (otherFresh : FreshIds otherRoot.id otherMutations) :
    let first := (Recorded.run root maxPathDepth mutations).index
    let second := (Recorded.run otherRoot otherDepth otherMutations).index
    (∀ image, first.Alike second image → first.KeepsTwins image → Tree.draw first = Tree.draw second) ∧
    (first.OneLine → second.OneLine → Tree.draw first = Tree.draw second →
      ∃ image, first.Alike second image ∧ first.KeepsTwins image) := by
  intro first second
  have valid : first.table.Consistent := (Recorded.run_sound root maxPathDepth mutations fresh).consistent
  have again : second.table.Consistent := (Recorded.run_sound otherRoot otherDepth otherMutations otherFresh).consistent
  exact ⟨fun image alike twins => Tree.draw_eq_of_alike alike twins valid again,
    Tree.exists_alike_of_draw_eq valid again⟩

namespace Trial

/-- One identity in place of another, by a list of pairs. -/
def substituted (pairs : List (PlacementId × PlacementId)) (id : PlacementId) : PlacementId := (pairs.lookup id).getD id

def twin : Placement := placement 5 (.fork "twin")
def other : Placement := placement 6 (.fork "twin")

/-- Two forks of one name, and an effect in the scope of one of them. -/
def paired (holder : PlacementId) : List Mutation :=
  [.insert twin root.id, .insert other root.id, .insert blur holder]

/-- The same with other identities, made the other way round and after a detour. -/
def rebuilt : List Mutation :=
  [.insert track root.id, .insert (placement 8 (.fork "twin")) root.id, .remove track.id,
    .insert (placement 7 (.fork "twin")) root.id, .insert (placement 9 (.effect "blur")) (.ofNat 8)]

/-- Where the one is found in the other. -/
def counterpart : PlacementId → PlacementId :=
  substituted [(twin.id, .ofNat 7), (other.id, .ofNat 8), (blur.id, .ofNat 9)]

theorem paired_alike_rebuilt :
    (Recorded.run root 8 (paired other.id)).index.Alike (Recorded.run root 8 rebuilt).index counterpart :=
  .of_ids (by decide +kernel) (by decide +kernel) (by decide +kernel)

end Trial

theorem run_draws_alike_trial :
    let first := (Recorded.run Trial.root 8 (Trial.paired Trial.other.id)).index
    let second := (Recorded.run Trial.root 8 Trial.rebuilt).index
    FreshIds Trial.root.id (Trial.paired Trial.other.id) ∧ FreshIds Trial.root.id Trial.rebuilt ∧
    first.Alike second Trial.counterpart ∧ first.KeepsTwins Trial.counterpart ∧
    Tree.draw first = Tree.draw second := by
  intro first second
  have fresh : FreshIds Trial.root.id (Trial.paired Trial.other.id) := by decide
  have again : FreshIds Trial.root.id Trial.rebuilt := by decide
  have twins : first.KeepsTwins Trial.counterpart := by decide +kernel
  obtain ⟨drawn, _⟩ := run_draws_alike Trial.root Trial.root 8 8 _ _ fresh again
  exact ⟨fresh, again, Trial.paired_alike_rebuilt, twins, drawn _ Trial.paired_alike_rebuilt twins⟩

/-- The effect is in the scope of one twin or of the other; the trees correspond, but are not drawn alike. -/
theorem twins_drawn_apart :
    let first := (Recorded.run Trial.root 8 (Trial.paired Trial.twin.id)).index
    let second := (Recorded.run Trial.root 8 (Trial.paired Trial.other.id)).index
    let swap := Trial.substituted [(Trial.twin.id, Trial.other.id), (Trial.other.id, Trial.twin.id)]
    FreshIds Trial.root.id (Trial.paired Trial.twin.id) ∧ FreshIds Trial.root.id (Trial.paired Trial.other.id) ∧
    first.Alike second swap ∧ Tree.draw first ≠ Tree.draw second := by
  intro first second swap
  have fresh : FreshIds Trial.root.id (Trial.paired Trial.twin.id) := by decide
  have again : FreshIds Trial.root.id (Trial.paired Trial.other.id) := by decide
  have valid := (Recorded.run_sound Trial.root 8 _ fresh).consistent
  have sound := (Recorded.run_sound Trial.root 8 _ again).consistent
  let pair : List Tree.Sibling := [("Fork(twin)", Trial.twin.id), ("Fork(twin)", Trial.other.id)]
  let effect : List Tree.Sibling := [("Effect(blur)", Trial.blur.id)]
  let leaf : Forest := .node Trial.blur.id "Effect(blur)" .nil .nil
  let upper : Forest := .node Trial.twin.id "Fork(twin)" leaf (.node Trial.other.id "Fork(twin)" .nil .nil)
  let lower : Forest := .node Trial.twin.id "Fork(twin)" .nil (.node Trial.other.id "Fork(twin)" leaf .nil)
  have above : Tree.Pictures first (Tree.siblings first first.rootId) upper := by
    have top : Tree.siblings first first.rootId = pair := Tree.siblings_eq valid (by decide +kernel) (by decide +kernel)
    have one : Tree.siblings first Trial.twin.id = effect :=
      Tree.siblings_eq valid (by decide +kernel) (List.pairwise_singleton ..)
    have two : Tree.siblings first Trial.other.id = [] := Tree.siblings_eq valid (by decide +kernel) .nil
    have none : Tree.siblings first Trial.blur.id = [] := Tree.siblings_eq valid (by decide +kernel) .nil
    exact top ▸ .node (one ▸ .node (none ▸ .nil) .nil) (.node (two ▸ .nil) .nil)
  have below : Tree.Pictures second (Tree.siblings second second.rootId) lower := by
    have top : Tree.siblings second second.rootId = pair :=
      Tree.siblings_eq sound (by decide +kernel) (by decide +kernel)
    have one : Tree.siblings second Trial.twin.id = [] := Tree.siblings_eq sound (by decide +kernel) .nil
    have two : Tree.siblings second Trial.other.id = effect :=
      Tree.siblings_eq sound (by decide +kernel) (List.pairwise_singleton ..)
    have none : Tree.siblings second Trial.blur.id = [] := Tree.siblings_eq sound (by decide +kernel) .nil
    exact top ▸ .node (one ▸ .nil) (.node (two ▸ .node (none ▸ .nil) .nil) .nil)
  refine ⟨fresh, again, .of_ids (by decide +kernel) (by decide +kernel) (by decide +kernel), ?_⟩
  rw [above.draw_eq valid, below.draw_eq sound]
  decide +kernel

/-- The calls that draw a scope and what lies below it come to an end, however deep they go. A drawing shows every
registered placement in one line, with all that lies below it right behind, and whatever else is drawn so has a tree
that corresponds. -/
theorem run_draws_tree (root : Placement) (maxPathDepth : Nat) (mutations : List Mutation)
    (fresh : FreshIds root.id mutations) :
    let index := (Recorded.run root maxPathDepth mutations).index
    Acc (fun next scope => next ∈ (Tree.siblings index scope).map Prod.snd) index.rootId ∧
    (∀ lines, Tree.Draws index "" (Tree.siblings index index.rootId) lines ↔
      lines = Tree.drawBelow index index.table.size index.rootId "" []) ∧
    (∀ fuel, index.table.size ≤ fuel →
      Tree.drawBelow index fuel index.rootId "" [] = Tree.drawBelow index index.table.size index.rootId "" []) ∧
    (index.OneLine → ∃ rows, Tree.Renders index rows ∧ (∀ line ∈ rows.map Prod.snd, '\n' ∉ line.toList) ∧
      Tree.draw index = String.join ((rows.map Prod.snd).map fun line => line ++ "\n")) ∧
    ∀ otherRoot otherDepth otherMutations, FreshIds otherRoot.id otherMutations →
      let second := (Recorded.run otherRoot otherDepth otherMutations).index
      index.OneLine → second.OneLine → Tree.draw index = Tree.draw second →
        ∃ image, index.Alike second image := by
  intro index
  have valid := (Recorded.run_sound root maxPathDepth mutations fresh).consistent
  obtain ⟨forest, pictures, drawn⟩ := Tree.exists_rendering valid
  have whole : Tree.drawBelow index index.table.size index.rootId "" [] = (forest.rows "").map Prod.snd :=
    (List.cons.inj (drawn _ (Nat.le_refl _))).2
  refine ⟨⟨_, pictures.acc⟩, fun lines => ⟨fun other => ?_, fun same => ?_⟩, fun fuel enough => ?_,
    fun plain => ⟨_, pictures.renders valid, ?_, pictures.draw_eq valid⟩, ?_⟩
  · exact (other.unique (pictures.draws "")).trans whole.symm
  · rw [same, whole]
    exact pictures.draws ""
  · exact (List.cons.inj ((drawn fuel enough).trans (drawn _ (Nat.le_refl _)).symm)).2
  · exact (pictures.renders valid).oneLine plain
  · intro otherRoot otherDepth otherMutations otherFresh second plain single same
    have again := (Recorded.run_sound otherRoot otherDepth otherMutations otherFresh).consistent
    obtain ⟨image, alike, _⟩ := Tree.exists_alike_of_draw_eq valid again plain single same
    exact ⟨image, alike⟩

theorem run_draws_tree_trial :
    let index := (Recorded.run Trial.root 8 (Trial.paired Trial.other.id)).index
    let second := (Recorded.run Trial.root 8 Trial.rebuilt).index
    FreshIds Trial.root.id (Trial.paired Trial.other.id) ∧ FreshIds Trial.root.id Trial.rebuilt ∧
    index.OneLine ∧ second.OneLine ∧ Tree.draw index = Tree.draw second ∧
    (∃ rows, Tree.Renders index rows ∧
      Tree.draw index = String.join ((rows.map Prod.snd).map fun line => line ++ "\n")) ∧
    ∃ image, index.Alike second image := by
  intro index second
  have fresh : FreshIds Trial.root.id (Trial.paired Trial.other.id) := by decide
  have again : FreshIds Trial.root.id Trial.rebuilt := by decide
  have plain : index.OneLine := by decide +kernel
  have single : second.OneLine := by decide +kernel
  have twins : index.KeepsTwins Trial.counterpart := by decide +kernel
  have same : Tree.draw index = Tree.draw second :=
    Tree.draw_eq_of_alike Trial.paired_alike_rebuilt twins (Recorded.run_sound Trial.root 8 _ fresh).consistent
      (Recorded.run_sound Trial.root 8 _ again).consistent
  obtain ⟨_, _, _, rendered, read⟩ := run_draws_tree Trial.root 8 (Trial.paired Trial.other.id) fresh
  obtain ⟨rows, renders, _, drawn⟩ := rendered plain
  exact ⟨fresh, again, plain, single, same, ⟨rows, renders, drawn⟩, read _ _ _ again plain single same⟩

end MediaSession
