import MediaSession.Proofs.PlacementId.Forms
import MediaSession.Proofs.Tree.Growth
import MediaSession.Proofs.Workspace.Calls

/-!
Regular trees are built completely or not at all, below the root of an index with whatever contents.
-/
namespace MediaSession

/-- A placement of a regular tree: a fork with as many members as the tree is wide, or on the last level a clip
without members. -/
inductive Index.HasRegular (index : Index) (depth width : Nat) (id : PlacementId) : Prop where
  | fork {level place : Nat} {placement : Placement} (outer : 0 < level) (inner : level < depth) (below : place < width)
      (deep : index.table.AtDepth id level) (found : index.find id = .ok placement)
      (content : placement.object.content = .fork s!"fork-{level}-{place}") (members : index.memberCount id = width)
  | clip {place : Nat} {placement : Placement} (below : place < width) (deep : index.table.AtDepth id depth)
      (found : index.find id = .ok placement)
      (content : placement.object.content = .clip s!"clip-{depth}-{place}.mov" (.ofSeconds 5))
      (members : index.members id = [])

/-- A regular tree has come in below the root, and nothing else has changed. -/
structure Index.GainsTree (before after : Index) (depth width : Nat) (ids : List PlacementId) : Prop where
  distinct : ids.Nodup
  new : ∀ id ∈ ids, before.contains id ≠ true
  contains_iff : ∀ id, after.contains id = true ↔ before.contains id = true ∨ id ∈ ids
  parents_first : ∀ {earlier later id}, ids = earlier ++ id :: later →
    ∃ scope, after.scopeOf id = .ok scope ∧ (scope = before.rootId ∨ scope ∈ earlier)
  root_gains : ∃ added, added ⊆ ids ∧ added.length = (if depth = 0 then 0 else width) ∧
    after.members before.rootId = before.members before.rootId ++ added
  regular : ∀ id ∈ ids, after.HasRegular depth width id
  find_kept : ∀ id ∉ ids, after.find id = before.find id
  scopeOf_kept : ∀ id ∉ ids, after.scopeOf id = before.scopeOf id
  members_kept : ∀ id ∉ ids, id ≠ before.rootId → after.members id = before.members id
  rootId_eq : after.rootId = before.rootId
  maxPathDepth_eq : after.maxPathDepth = before.maxPathDepth
  consistent : after.table.Consistent

namespace Tree
open Table
variable {mint : Nat → MediaObject → Placement} {supply : Nat → PlacementId} {depth width total : Nat} {index : Index}

/-- The entries of a regular tree below the root. -/
def entries (mint : Nat → MediaObject → Placement) (depth width : Nat) (root : PlacementId) : List Entry :=
  plan mint width depth 1 [root] 0

theorem build_refused (none : size depth width = none ∨ ∃ total, size depth width = some total ∧ sizeLimit < total) :
    build mint depth width index = .error (.tooLarge depth width) := by
  unfold build
  rcases none with none | ⟨total, found, large⟩
  · rw [none]
  · rw [found]
    exact if_pos large

theorem build_eq (registered : index.contains index.rootId = true) (found : size depth width = some total)
    (small : total ≤ sizeLimit) :
    build mint depth width index =
      .ok ({ index with table := index.table.addAll (entries mint depth width index.rootId) },
        (entries mint depth width index.rootId).map Entry.id) := by
  have grown : growFrom mint width depth 1 [index.rootId] { index } =
      .ok (Growth.extend { index } (entries mint depth width index.rootId)) :=
    growFrom_eq (List.forall_mem_singleton.mpr registered)
  unfold build
  rw [found]
  simp only [Nat.not_lt.mpr small, if_false]
  rw [grown]
  simp only [Growth.extend, List.append_nil, List.reverse_reverse]

theorem length_entries (mint : Nat → MediaObject → Placement) (depth width : Nat) (root : PlacementId) :
    (entries mint depth width root).length = levelSum depth width := by
  rw [entries, length_plan, List.length_singleton, Nat.one_mul]

/-- What is planted has the fields of a placement of a regular tree. -/
theorem Planted.hasRegular {entries : List Entry} {entry : Entry} {level place : Nat}
    (planted : Planted index.table entries depth width entry level place) (outer : 0 < level)
    (fresh : index.table.Fresh entries) (member : entry ∈ entries) (valid : index.table.Consistent) :
    Index.HasRegular { index with table := index.table.addAll entries } depth width entry.id := by
  have found : Index.find { index with table := index.table.addAll entries } entry.id = .ok entry.placement := by
    rw [Index.find, entry?_addAll_new fresh.distinct member]
  have members : Index.members { index with table := index.table.addAll entries } entry.id =
      gained entries entry.id := by
    rw [Index.members, members_addAll, valid.members_eq_nil (fresh.new _ (List.mem_map_of_mem member)), List.nil_append]
  have content := planted.content
  have count := planted.members
  rcases Nat.lt_or_eq_of_le planted.within with inner | last
  · rw [if_neg inner.ne] at count
    rw [decide_eq_false inner.ne] at content
    exact .fork outer inner planted.below planted.deep found content ((congrArg List.length members).trans count)
  · subst last
    rw [if_pos rfl] at count
    rw [decide_eq_true rfl] at content
    exact .clip planted.below planted.deep found content (members.trans (List.length_eq_zero_iff.mp count))

theorem gainsTree (mints : Mints mint supply) (valid : index.table.Consistent)
    (fresh : index.table.Fresh (entries mint depth width index.rootId)) :
    index.GainsTree { index with table := index.table.addAll (entries mint depth width index.rootId) } depth width
      ((entries mint depth width index.rootId).map Entry.id) where
  distinct := fresh.distinct
  new := fresh.new
  contains_iff := contains_addAll index.table _
  parents_first {earlier later id} split := by
    obtain ⟨above, below, whole, same, rest⟩ := List.map_eq_append_iff.mp split
    obtain ⟨entry, others, here, identity, _⟩ := List.map_eq_cons_iff.mp rest
    subst here same
    have rooted : Rooted [index.rootId] (entries mint depth width index.rootId) := plan_rooted mints
    have member : entry ∈ entries mint depth width index.rootId := by rw [whole]; simp
    refine ⟨entry.scope, ?_, ?_⟩
    · rw [Index.scopeOf_ok_iff, ← identity]
      exact scope?_of_found (entry?_addAll_new fresh.distinct member)
    · rw [whole] at rooted
      exact rooted.scope_mem.imp_left List.mem_singleton.mp
  root_gains := by
    refine ⟨gained (entries mint depth width index.rootId) index.rootId, gained_subset .., ?_, members_addAll ..⟩
    exact length_gained_plan mints fresh (List.forall_mem_singleton.mpr valid.contains_root)
      (List.nodup_singleton _) (List.mem_singleton_self _)
  regular id listed := by
    obtain ⟨entry, member, same⟩ := List.mem_map.mp listed
    have deep : ∀ scope ∈ [index.rootId], index.table.AtDepth scope 0 :=
      List.forall_mem_singleton.mpr ⟨_, .root, rfl⟩
    obtain ⟨level, place, outer, planted⟩ := plan_planted mints valid fresh (List.nodup_singleton _) deep member
    simp only [Nat.zero_add] at planted
    exact same ▸ planted.hasRegular outer fresh member valid
  find_kept id other := by rw [Index.find, entry?_addAll_old other, Index.find]
  scopeOf_kept id other := by rw [Index.scopeOf, entry?_addAll_old other, Index.scopeOf]
  members_kept id other inner := by
    have rooted : Rooted [index.rootId] (entries mint depth width index.rootId) := plan_rooted mints
    rw [Index.members, members_addAll, rooted.gained_eq_nil (mt List.mem_singleton.mp inner) other,
      List.append_nil]
    rfl
  rootId_eq := root_addAll ..
  maxPathDepth_eq := rfl
  consistent := valid.addAll fresh (plan_rooted mints) (List.forall_mem_singleton.mpr valid.contains_root)

end Tree

/-- As many identities as a largest tree takes are distinct and were not used before. -/
structure FreshSupply (used : List PlacementId) (supply : Nat → PlacementId) : Prop where
  distinct : ∀ {one other}, one < Tree.sizeLimit → other < Tree.sizeLimit → supply one = supply other → one = other
  new : ∀ number < Tree.sizeLimit, supply number ∉ used

theorem FreshSupply.fresh_entries {used : List PlacementId} {supply : Nat → PlacementId} {index : Index}
    {mint : Nat → MediaObject → Placement} {depth width : Nat} (supplied : FreshSupply used supply)
    (sound : index.Sound used) (mints : Tree.Mints mint supply) (small : Tree.levelSum depth width ≤ Tree.sizeLimit) :
    index.table.Fresh (Tree.entries mint depth width index.rootId) := by
  have ids : (Tree.entries mint depth width index.rootId).map Entry.id =
      (List.range (Tree.levelSum depth width)).map supply := by
    rw [List.range_eq_range', ← Tree.length_entries mint depth width index.rootId]
    exact Tree.map_id_plan mints
  have room {number : Nat} (listed : number ∈ List.range (Tree.levelSum depth width)) : number < Tree.sizeLimit :=
    Nat.lt_of_lt_of_le (List.mem_range.mp listed) small
  constructor
  · rw [ids]
    exact List.Nodup.map_on (fun one here other there => supplied.distinct (room here) (room there)) List.nodup_range
  · intro id listed registered
    rw [ids] at listed
    obtain ⟨number, below, same⟩ := List.mem_map.mp listed
    exact supplied.new number (room below) (same ▸ sound.known registered)

namespace Workspace
variable {ws : Workspace} {used : List PlacementId} {supply : Nat → PlacementId} {depth width total : Nat}

/-- The number of placements is told exactly, too large a tree is refused without a trace, and any other one comes in as
a whole. -/
structure BuildsWhole (ws : Workspace) (supply : Nat → PlacementId) (depth width : Nat) : Prop where
  size_eq : Tree.size depth width =
    if Tree.levelSum depth width < Tree.wordLimit then some (Tree.levelSum depth width) else none
  fails_iff : (∃ error after, ws.buildTree supply depth width = (.error error, after)) ↔
    Tree.size depth width = none ∨ ∃ total, Tree.size depth width = some total ∧ Tree.sizeLimit < total
  failure : ∀ {error after}, ws.buildTree supply depth width = (.error error, after) →
    error = .tooLarge depth width ∧ after = ws
  success : ∀ {ids after}, ws.buildTree supply depth width = (.ok ids, after) →
    Tree.size depth width = some ids.length ∧ ws.index.GainsTree after.index depth width ids

/-- Placements of new objects. -/
def mint (ws : Workspace) (supply : Nat → PlacementId) (number : Nat) (content : MediaObject) : Placement :=
  { id := supply number, object := ⟨ws.ledger.next + number, content⟩ }

theorem mint_mints (ws : Workspace) (supply : Nat → PlacementId) : Tree.Mints (ws.mint supply) supply where
  id _ _ := rfl
  content _ _ := rfl

theorem buildTree_refused (none : Tree.size depth width = none ∨
    ∃ total, Tree.size depth width = some total ∧ Tree.sizeLimit < total) :
    ws.buildTree supply depth width = (.error (.tooLarge depth width), ws) := by
  rw [buildTree, Tree.build_refused none]

theorem buildTree_ok {after : Index} {ids : List PlacementId}
    (built : Tree.build (ws.mint supply) depth width ws.index = .ok (after, ids)) :
    ws.buildTree supply depth width =
      (.ok ids, { ws.withIndex after with ledger := ws.ledger.advanceBy ids.length }) := by
  unfold mint at built
  rw [buildTree, built]

theorem buildTree_built (sound : ws.index.Sound used) (supplied : FreshSupply used supply)
    (found : Tree.size depth width = some total) (small : total ≤ Tree.sizeLimit) :
    ∃ ids after, ws.buildTree supply depth width = (.ok ids, after) ∧ ids.length = total ∧
      ws.index.GainsTree after.index depth width ids := by
  have mints := ws.mint_mints supply
  have length := Tree.levelSum_of_size found
  have gains := Tree.gainsTree mints sound.consistent (supplied.fresh_entries sound mints (length ▸ small))
  refine ⟨_, _, buildTree_ok (Tree.build_eq sound.consistent.contains_root found small), ?_, ?_⟩
  · rw [List.length_map, Tree.length_entries, length]
  · exact (ws.index_withIndex _).symm ▸ gains

/-- Whether a tree is built depends on the number of its placements only. -/
theorem buildTree_whole (sound : ws.index.Sound used) (supplied : FreshSupply used supply)
    (bounded : depth < Tree.wordLimit) : ws.BuildsWhole supply depth width := by
  have either : (Tree.size depth width = none ∨ ∃ total, Tree.size depth width = some total ∧ Tree.sizeLimit < total) ∨
      ∃ total, Tree.size depth width = some total ∧ total ≤ Tree.sizeLimit := by
    cases found : Tree.size depth width with
    | none => exact .inl (.inl rfl)
    | some total =>
      rcases Nat.lt_or_ge Tree.sizeLimit total with large | small
      · exact .inl (.inr ⟨total, rfl, large⟩)
      · exact .inr ⟨total, rfl, small⟩
  rcases either with refused | ⟨total, found, small⟩
  · have answer : ws.buildTree supply depth width = _ := buildTree_refused refused
    constructor
    · exact Tree.size_eq width bounded
    · exact ⟨fun _ => refused, fun _ => ⟨_, _, answer⟩⟩
    · intro error after failed
      cases answer.symm.trans failed
      exact ⟨rfl, rfl⟩
    · intro ids after built
      cases answer.symm.trans built
  · obtain ⟨ids, after, answer, length, gains⟩ := buildTree_built sound supplied found small
    constructor
    · exact Tree.size_eq width bounded
    · constructor
      · rintro ⟨error, other, failed⟩
        cases answer.symm.trans failed
      · rintro (none | ⟨other, again, large⟩)
        · cases found.symm.trans none
        · cases found.symm.trans again
          exact absurd small (Nat.not_le.mpr large)
    · intro error other failed
      cases answer.symm.trans failed
    · intro others other built
      cases answer.symm.trans built
      exact ⟨length ▸ found, gains⟩

end Workspace

/-- Whatever has been done to an index, a regular tree is built below its root as a whole, or refused for its size. -/
theorem run_builds_tree (root : Placement) (maxPathDepth : Nat) (mutations : List Mutation)
    (fresh : FreshIds root.id mutations) (ws : Workspace)
    (present : ws.index = (Recorded.run root maxPathDepth mutations).index) (supply : Nat → PlacementId)
    (supplied : FreshSupply (root.id :: mutations.flatMap Mutation.offered) supply) (depth width : Nat)
    (bounded : depth < Tree.wordLimit) : ws.BuildsWhole supply depth width :=
  Workspace.buildTree_whole (present ▸ Recorded.run_sound root maxPathDepth mutations fresh) supplied bounded

theorem run_builds_tree_trial :
    let ws : Workspace := { name := "trial", context := .bare (Recorded.run Trial.root 5 Trial.mutations).index }
    let supply (number : Nat) : PlacementId := .ofNat (number + 5)
    FreshIds Trial.root.id Trial.mutations ∧
    FreshSupply (Trial.root.id :: Trial.mutations.flatMap Mutation.offered) supply ∧
    (ws.buildTree supply 2 2).1 = .ok ((List.range 6).map supply) ∧ ws.BuildsWhole supply 2 2 ∧
    (ws.buildTree supply 2 2000).1 = .error (.tooLarge 2 2000) ∧ ws.BuildsWhole supply 2 2000 := by
  intro ws supply
  have fresh : FreshIds Trial.root.id Trial.mutations := by decide
  have room {number : Nat} (small : number < Tree.sizeLimit) : number + 5 < 256 ^ 16 :=
    Nat.lt_trans (Nat.add_lt_add_right small 5) (by decide)
  have supplied : FreshSupply (Trial.root.id :: Trial.mutations.flatMap Mutation.offered) supply := by
    constructor
    · intro one other small below same
      exact Nat.add_right_cancel (PlacementId.ofNat_injective (room small) (room below) same)
    · intro number small listed
      have used : Trial.root.id :: Trial.mutations.flatMap Mutation.offered = (List.range 5).map .ofNat := by decide
      rw [used] at listed
      obtain ⟨other, below, same⟩ := List.mem_map.mp listed
      have early := List.mem_range.mp below
      have equal := PlacementId.ofNat_injective (Nat.lt_trans early (by decide)) (room small) same
      omega
  have whole (width : Nat) : ws.BuildsWhole supply 2 width :=
    run_builds_tree Trial.root 5 Trial.mutations fresh ws rfl supply supplied 2 width (by decide)
  exact ⟨fresh, supplied, by decide +kernel, whole 2, by decide +kernel, whole 2000⟩

end MediaSession
