import MediaSession.Proofs.Tree.Lines
import Mathlib.Data.Set.Function

/-!
Indexes that describe like trees, and whether they are drawn alike. Siblings come in the order of their texts, and
those of the same text in the order of their identities. A correspondence that keeps this order too keeps the drawing,
and from two equal drawings such a correspondence is read.
-/
namespace MediaSession

/-- A correspondence of the registered placements of two indexes that keeps root, scopes and texts. -/
structure Index.Alike (first second : Index) (image : PlacementId → PlacementId) : Prop where
  bijective : Set.BijOn image {id | first.contains id = true} {id | second.contains id = true}
  root : image first.rootId = second.rootId
  scopes : ∀ id scope, first.scopeOf id = .ok scope → second.scopeOf (image id) = .ok (image scope)
  labels : ∀ id, first.contains id = true → second.label (image id) = first.label id

/-- Of two members of one scope with the same text, the same one comes first. -/
def Index.KeepsTwins (index : Index) (image : PlacementId → PlacementId) : Prop :=
  ∀ scope ∈ index.ids, ∀ one ∈ index.members scope, ∀ other ∈ index.members scope,
    index.label one = index.label other → compare (image one) (image other) = compare one other

instance (index : Index) (image : PlacementId → PlacementId) : Decidable (index.KeepsTwins image) :=
  inferInstanceAs (Decidable (∀ scope ∈ index.ids, ∀ one ∈ index.members scope, ∀ other ∈ index.members scope, _ → _))

namespace Index.Alike
variable {first second : Index} {image : PlacementId → PlacementId}

/-- A correspondence given by what becomes of each identity. -/
theorem of_ids (moved : (first.ids.map image).Perm second.ids) (root : image first.rootId = second.rootId)
    (each : ∀ id ∈ first.ids, second.table.scope? (image id) = (first.table.scope? id).map image ∧
      second.label (image id) = first.label id) : first.Alike second image := by
  have distinct : (first.ids.map image).Nodup := moved.nodup_iff.mpr Std.TreeMap.nodup_keys
  have onto (id : PlacementId) : second.contains id = true ↔ id ∈ first.ids.map image :=
    (Table.mem_keys_iff ..).symm.trans moved.mem_iff.symm
  refine ⟨⟨fun id registered => ?_, fun one here other there same => ?_, fun id registered => ?_⟩, root, ?_, ?_⟩
  · exact (onto _).mpr (List.mem_map_of_mem ((Table.mem_keys_iff ..).mpr registered))
  · exact List.inj_on_of_nodup_map distinct ((Table.mem_keys_iff ..).mpr here) ((Table.mem_keys_iff ..).mpr there) same
  · obtain ⟨source, member, same⟩ := List.mem_map.mp ((onto id).mp registered)
    exact ⟨source, (Table.mem_keys_iff ..).mp member, same⟩
  · intro id scope inside
    rw [scopeOf_ok_iff] at inside ⊢
    rw [(each id ((Table.mem_keys_iff ..).mpr (Table.contains_of_scope? inside))).1, inside]
    rfl
  · exact fun id registered => (each id ((Table.mem_keys_iff ..).mpr registered)).2

/-- The members of the image of a scope are the images of its members. -/
theorem members_perm (alike : first.Alike second image) (valid : first.table.Consistent)
    (again : second.table.Consistent) {scope : PlacementId} (registered : first.contains scope = true) :
    (second.table.members (image scope)).Perm ((first.table.members scope).map image) := by
  have known {id : PlacementId} (listed : id ∈ first.table.members scope) : first.contains id = true :=
    valid.contains_member listed
  have distinct : ((first.table.members scope).map image).Nodup :=
    (valid.nodup_members scope).map_on fun one here other there same =>
      alike.bijective.injOn (known here) (known there) same
  refine (List.perm_ext_iff_of_nodup (again.nodup_members _) distinct).mpr fun id => ?_
  rw [List.mem_map]
  constructor
  · intro listed
    obtain ⟨inner, inside⟩ := again.mem_members_iff.mp listed
    obtain ⟨source, here, rfl⟩ := alike.bijective.surjOn (Table.contains_of_scope? inside)
    obtain ⟨above, within⟩ := (Table.contains_iff_scope? ..).mp here
    have lifted := (scopeOf_ok_iff ..).mp (alike.scopes source above ((scopeOf_ok_iff ..).mpr within))
    have same : above = scope := alike.bijective.injOn (valid.contains_scope within) registered
      (Option.some.inj (lifted.symm.trans inside))
    refine ⟨source, valid.mem_members_iff.mpr ⟨fun top => inner ?_, same ▸ within⟩, rfl⟩
    rw [top]
    exact alike.root
  · rintro ⟨source, listed, rfl⟩
    obtain ⟨inner, inside⟩ := valid.mem_members_iff.mp listed
    have lifted := (scopeOf_ok_iff ..).mp (alike.scopes source scope ((scopeOf_ok_iff ..).mpr inside))
    refine again.mem_members_iff.mpr ⟨fun top => inner ?_, lifted⟩
    exact alike.bijective.injOn (known listed) valid.contains_root (top.trans alike.root.symm)

end Index.Alike

namespace Tree
variable {index first second : Index} {scope : PlacementId} {listed others : List Sibling} {forest : Forest}
  {image : PlacementId → PlacementId}

theorem isBefore_iff {one other : Sibling} : one.isBefore other = true ↔
    one.1 < other.1 ∨ one.1 = other.1 ∧ (compare one.2 other.2).isLE = true := by
  simp [Sibling.isBefore]

theorem isBefore_trans (one two three : Sibling) (before : one.isBefore two = true)
    (after : two.isBefore three = true) : one.isBefore three = true := by
  rw [isBefore_iff] at *
  rcases before with less | ⟨same, before⟩ <;> rcases after with more | ⟨equal, after⟩
  · exact .inl (String.lt_trans less more)
  · exact .inl (equal ▸ less)
  · exact .inl (same ▸ more)
  · exact .inr ⟨same.trans equal, Std.TransCmp.isLE_trans before after⟩

theorem isBefore_total (one other : Sibling) : (one.isBefore other || other.isBefore one) = true := by
  rw [Bool.or_eq_true, isBefore_iff, isBefore_iff]
  rcases Std.lt_trichotomy one.1 other.1 with less | same | more
  · exact .inl (.inl less)
  · cases order : compare one.2 other.2 with
    | lt | eq => exact .inl (.inr ⟨same, rfl⟩)
    | gt =>
      rw [Std.OrientedOrd.eq_swap, order]
      exact .inr (.inr ⟨same.symm, rfl⟩)
  · exact .inr (.inl more)

theorem isBefore_antisymm {one other : Sibling} (before : one.isBefore other = true)
    (after : other.isBefore one = true) : one = other := by
  rw [isBefore_iff] at *
  rcases before with less | ⟨same, before⟩ <;> rcases after with more | ⟨equal, after⟩
  · exact absurd more (String.lt_asymm less)
  · exact absurd (equal ▸ less) (String.lt_irrefl _)
  · exact absurd (same ▸ more) (String.lt_irrefl _)
  · exact Prod.ext same (Std.LawfulEqOrd.eq_of_compare (Std.OrientedCmp.isLE_antisymm before after))

theorem siblings_sorted (index : Index) (scope : PlacementId) :
    (siblings index scope).Pairwise fun one other => one.isBefore other = true := by
  unfold siblings
  split
  · exact List.pairwise_mergeSort isBefore_trans isBefore_total _
  · exact .nil

/-- There is only one way to list siblings in their order. -/
theorem siblings_eq (valid : index.table.Consistent)
    (same : listed.Perm ((index.table.members scope).map fun id => ((index.label id).getD "", id)))
    (sorted : listed.Pairwise fun one other => one.isBefore other = true) : siblings index scope = listed :=
  List.Perm.eq_of_pairwise (fun _ _ _ _ => isBefore_antisymm) (siblings_sorted index scope) sorted
    ((siblings_perm valid scope).trans same.symm)

/-- A sibling as it is found in the other index. -/
def Sibling.renamed (image : PlacementId → PlacementId) (sibling : Sibling) : Sibling := (sibling.1, image sibling.2)

/-- A correspondence that keeps the order of members with the same text keeps the order of all siblings. -/
theorem siblings_image (alike : first.Alike second image) (twins : first.KeepsTwins image)
    (valid : first.table.Consistent) (again : second.table.Consistent) (registered : first.contains scope = true) :
    siblings second (image scope) = (siblings first scope).map (Sibling.renamed image) := by
  refine siblings_eq again ?_ ?_
  · have renamed := (siblings_perm valid scope).map (Sibling.renamed image)
    have moved := (alike.members_perm valid again registered).map fun id => ((second.label id).getD "", id)
    refine renamed.trans (.trans (.of_eq ?_) moved.symm)
    rw [List.map_map, List.map_map]
    refine List.map_congr_left fun id listed => ?_
    have known : first.contains id = true := valid.contains_member listed
    simp only [Function.comp_apply, Sibling.renamed, alike.labels id known]
  · rw [List.pairwise_map]
    refine (siblings_sorted first scope).imp_of_mem fun {one other} here there before => ?_
    obtain ⟨listed, named⟩ := (mem_siblings_iff valid).mp here
    obtain ⟨beside, called⟩ := (mem_siblings_iff valid).mp there
    rw [isBefore_iff] at before ⊢
    refine before.imp id fun ⟨same, order⟩ => ⟨same, ?_⟩
    have present : scope ∈ first.ids := (Table.mem_keys_iff ..).mpr registered
    rw [Sibling.renamed, Sibling.renamed, twins scope present one.2 listed other.2 beside (by rw [named, called, same])]
    exact order

theorem Pictures.renamed (pictures : Pictures first listed forest) (alike : first.Alike second image)
    (twins : first.KeepsTwins image) (valid : first.table.Consistent) (again : second.table.Consistent)
    (known : ∀ sibling ∈ listed, first.contains sibling.2 = true) :
    Pictures second (listed.map (Sibling.renamed image)) (forest.map image) := by
  induction pictures with
  | nil => exact .nil
  | @node id text rest below others inner further ihBelow ihOthers =>
    have registered : first.contains id = true := known _ List.mem_cons_self
    refine .node ?_ (ihOthers fun sibling member => known sibling (List.mem_cons_of_mem _ member))
    rw [siblings_image alike twins valid again registered]
    exact ihBelow fun _ listed => contains_sibling valid listed

/-- Siblings have one picture only. -/
theorem Pictures.unique {other : Forest} (pictures : Pictures index listed forest)
    (again : Pictures index listed other) : forest = other := by
  induction pictures generalizing other with
  | nil =>
    cases again
    rfl
  | node inner further ihBelow ihOthers =>
    cases again with
    | node within beside => rw [ihBelow within, ihOthers beside]

/-- Any picture of what is in the root's scope tells what is drawn. -/
theorem Pictures.draw_eq (pictures : Pictures index (siblings index index.rootId) forest)
    (valid : index.table.Consistent) :
    draw index = String.join ((rootText index :: (forest.rows "").map Prod.snd).map fun line => line ++ "\n") := by
  obtain ⟨other, same, drawn⟩ := exists_rendering valid
  rw [Tree.draw_eq, drawn _ (Nat.le_refl _), pictures.unique same]
  rfl

theorem draw_eq_of_alike (alike : first.Alike second image) (twins : first.KeepsTwins image)
    (valid : first.table.Consistent) (again : second.table.Consistent) : draw first = draw second := by
  obtain ⟨forest, pictures, _⟩ := exists_rendering valid
  have registered : first.contains first.rootId = true := valid.contains_root
  have moved := pictures.renamed alike twins valid again fun _ listed => contains_sibling valid listed
  rw [← siblings_image alike twins valid again registered, alike.root] at moved
  have rooted : rootText second = rootText first := by
    rw [rootText, rootText, ← alike.root, alike.labels first.rootId registered]
  rw [pictures.draw_eq valid, moved.draw_eq again, Forest.map_snd_rows_map, rooted]

theorem Pictures.map_listed (pictures : Pictures first listed forest)
    (again : Pictures second others (forest.map image)) : others = listed.map (Sibling.renamed image) := by
  induction pictures generalizing others with
  | nil =>
    cases again
    rfl
  | node inner further ihBelow ihOthers =>
    cases again with
    | node within beside =>
      rw [List.map_cons, ihOthers beside]
      rfl

/-- Where two pictures are the same but for identities, so are the siblings in every scope. -/
theorem Pictures.siblings_follow (pictures : Pictures first listed forest)
    (again : Pictures second others (forest.map image)) :
    ∀ id ∈ forest.ids, siblings second (image id) = (siblings first id).map (Sibling.renamed image) := by
  induction pictures generalizing others with
  | nil => exact fun _ shown => absurd shown List.not_mem_nil
  | node inner further ihBelow ihOthers =>
    cases again with
    | node within beside =>
      intro id shown
      rw [Forest.ids, List.mem_cons, List.mem_append] at shown
      rcases shown with rfl | inside | outside
      · exact inner.map_listed within
      · exact ihBelow within id inside
      · exact ihOthers beside id outside

/-- Of siblings with the same text, the first one has the lesser identity. -/
theorem lt_of_isBefore {left right : Sibling} (before : left.isBefore right = true) (same : left.1 = right.1)
    (apart : left.2 ≠ right.2) : compare left.2 right.2 = .lt := by
  rcases isBefore_iff.mp before with less | ⟨_, order⟩
  · exact absurd (same ▸ less) (String.lt_irrefl _)
  · cases outcome : compare left.2 right.2 with
    | lt => rfl
    | eq => exact absurd (Std.LawfulEqOrd.eq_of_compare outcome) apart
    | gt =>
      rw [outcome] at order
      cases order

theorem alike_of_siblings (valid : first.table.Consistent) (again : second.table.Consistent)
    (moved : (first.ids.map image).Perm second.ids) (root : image first.rootId = second.rootId)
    (named : rootText second = rootText first)
    (follow : ∀ scope, first.contains scope = true →
      siblings second (image scope) = (siblings first scope).map (Sibling.renamed image)) :
    first.Alike second image := by
  refine .of_ids moved root fun id member => ?_
  have registered : first.contains id = true := (Table.mem_keys_iff ..).mp member
  by_cases top : id = first.rootId
  · rw [top, root, label_root valid, label_root again, named, Index.rootId, Index.rootId, valid.root_scope,
      again.root_scope]
    exact ⟨congrArg some root.symm, rfl⟩
  · obtain ⟨scope, inside⟩ := (Table.contains_iff_scope? ..).mp registered
    obtain ⟨text, called⟩ := Index.exists_label registered
    have listed := (mem_siblings_iff valid).mpr ⟨valid.mem_members_iff.mpr ⟨top, inside⟩, called⟩
    have beside := List.mem_map_of_mem (f := Sibling.renamed image) listed
    rw [← follow scope (valid.contains_scope inside)] at beside
    obtain ⟨member, same⟩ := (mem_siblings_iff again).mp beside
    rw [inside, called]
    exact ⟨(again.mem_members_iff.mp member).2, same⟩

theorem keepsTwins_of_siblings (alike : first.Alike second image) (valid : first.table.Consistent)
    (follow : ∀ scope, first.contains scope = true →
      siblings second (image scope) = (siblings first scope).map (Sibling.renamed image)) :
    first.KeepsTwins image := by
  intro scope present one here other there same
  let agree (left right : Sibling) : Prop :=
    left.1 = right.1 → compare (image left.2) (image right.2) = compare left.2 right.2
  have symmetric : Std.Symm agree := ⟨fun left right agrees equal => by
    rw [Std.OrientedOrd.eq_swap, agrees equal.symm, ← Std.OrientedOrd.eq_swap]⟩
  have registered : first.contains scope = true := (Table.mem_keys_iff ..).mp present
  have moved := siblings_sorted second (image scope)
  rw [follow scope registered, List.pairwise_map] at moved
  have agrees : (siblings first scope).Pairwise agree := by
    refine ((siblings_sorted first scope).and moved).imp_of_mem fun {left right} here there sorted equal => ?_
    by_cases met : left.2 = right.2
    · rw [met, Std.ReflOrd.compare_self, Std.ReflOrd.compare_self]
    · have apart := alike.bijective.injOn.ne (contains_sibling valid here) (contains_sibling valid there) met
      rw [lt_of_isBefore sorted.1 equal met]
      have after : (left.renamed image).isBefore (right.renamed image) = true := sorted.2
      exact lt_of_isBefore after equal apart
  obtain ⟨text, named⟩ := Index.exists_label (valid.contains_member here)
  have alone (sibling : Sibling) (_ : sibling ∈ siblings first scope) : agree sibling sibling := fun _ => by
    rw [Std.ReflOrd.compare_self, Std.ReflOrd.compare_self]
  exact agrees.forall_of_forall alone ((mem_siblings_iff valid).mpr ⟨here, named⟩)
    ((mem_siblings_iff valid).mpr ⟨there, same.symm.trans named⟩) rfl

/-- From equal drawings a correspondence is read, which keeps the order of siblings. -/
theorem exists_alike_of_draw_eq (valid : first.table.Consistent) (again : second.table.Consistent)
    (plain : first.OneLine) (single : second.OneLine) (same : draw first = draw second) :
    ∃ image, first.Alike second image ∧ first.KeepsTwins image := by
  obtain ⟨forest, pictures, _⟩ := exists_rendering valid
  obtain ⟨other, beside, _⟩ := exists_rendering again
  have lines := (pictures.draw_eq valid).symm.trans (same.trans (beside.draw_eq again))
  obtain ⟨named, rows⟩ := List.cons.inj (join_lines_inj ((pictures.renders valid).oneLine plain)
    ((beside.renders again).oneLine single) lines)
  have resembles := Forest.resembles_of_rows rows
  obtain ⟨distinct, all⟩ := pictures.ids_perm valid
  have sizes : (first.rootId :: forest.ids).length = (second.rootId :: other.ids).length :=
    congrArg Nat.succ resembles.length_ids
  obtain ⟨image, moved⟩ := exists_map_eq distinct sizes
  have perm : (first.ids.map image).Perm second.ids :=
    (all.symm.map image).trans ((List.Perm.of_eq moved).trans (beside.ids_perm again).2)
  obtain ⟨root, rest⟩ := List.cons.inj moved
  rw [← resembles.map_eq rest] at beside
  have follow (scope : PlacementId) (registered : first.contains scope = true) :
      siblings second (image scope) = (siblings first scope).map (Sibling.renamed image) := by
    rcases List.mem_cons.mp (all.mem_iff.mpr ((Table.mem_keys_iff ..).mpr registered)) with rfl | inner
    · rw [root]
      exact pictures.map_listed beside
    · exact pictures.siblings_follow beside scope inner
  have alike := alike_of_siblings valid again perm root named.symm follow
  exact ⟨image, alike, keepsTwins_of_siblings alike valid follow⟩

end Tree

end MediaSession
