import MediaSession.Proofs.Results
import MediaSession.Proofs.Table.Addition
import MediaSession.Proofs.Tree.Size

/-!
What the making of a regular tree inserts. The entries can be told in advance, level by level, from the scopes to begin
with and the number of the next placement, and no insertion on the way fails.
-/
namespace MediaSession.Tree
open Table

/-- Placements are made of numbers and contents; the number alone decides the identity. -/
structure Mints (mint : Nat → MediaObject → Placement) (supply : Nat → PlacementId) : Prop where
  id : ∀ number content, (mint number content).id = supply number
  content : ∀ number content, (mint number content).object.content = content

/-- The places below some scopes, in the order they are taken. -/
def places (width : Nat) (scopes : List PlacementId) : List (Nat × PlacementId) :=
  scopes.flatMap fun scope => (List.range width).map fun place => (place, scope)

/-- The entries for some places, numbered from `first` on. -/
def settle (mint : Nat → MediaObject → Placement) (level : Nat) (last : Bool) (spots : List (Nat × PlacementId))
    (first : Nat) : List Entry :=
  (spots.zipIdx first).map fun ((place, scope), number) => ⟨mint number (objectAt level place last), scope⟩

def layer (mint : Nat → MediaObject → Placement) (level width : Nat) (last : Bool) (scopes : List PlacementId)
    (first : Nat) : List Entry :=
  settle mint level last (places width scopes) first

/-- The entries of all levels that are left below some scopes. -/
def plan (mint : Nat → MediaObject → Placement) (width : Nat) : Nat → Nat → List PlacementId → Nat → List Entry
  | 0, _, _, _ => []
  | left + 1, level, scopes, first =>
    let here := layer mint level width (left = 0) scopes first
    here ++ plan mint width left (level + 1) (here.map Entry.id) (first + here.length)

variable {mint : Nat → MediaObject → Placement} {supply : Nat → PlacementId} {width left level above first : Nat}
  {last : Bool} {scopes : List PlacementId} {spots : List (Nat × PlacementId)} {growth : Growth} {table : Table}
  {entry : Entry} {scope : PlacementId}

def Growth.extend (growth : Growth) (entries : List Entry) : Growth where
  index := { growth.index with table := growth.index.table.addAll entries }
  inserted := (entries.map Entry.id).reverse ++ growth.inserted
  count := growth.count + entries.length

@[simp] theorem Growth.extend_nil (growth : Growth) : growth.extend [] = growth := rfl

theorem Growth.extend_append (growth : Growth) (earlier later : List Entry) :
    growth.extend (earlier ++ later) = (growth.extend earlier).extend later := by
  simp only [extend, addAll_append, List.map_append, List.reverse_append, List.append_assoc, List.length_append,
    Nat.add_assoc]

theorem Growth.contains_extend (growth : Growth) (entries : List Entry) (id : PlacementId) :
    (growth.extend entries).index.contains id = true ↔ growth.index.contains id = true ∨ id ∈ entries.map Entry.id :=
  contains_addAll growth.index.table entries id

theorem place_eq (content : MediaObject) (registered : growth.index.contains scope = true) :
    growth.place mint content scope = .ok (growth.extend [⟨mint growth.count content, scope⟩]) := by
  simp only [Growth.place, Index.insert, registered, if_true]
  rfl

theorem foldlM_place_eq (registered : ∀ spot ∈ spots, growth.index.contains spot.2 = true) :
    spots.foldlM (fun growth spot => growth.place mint (objectAt level spot.1 last) spot.2) growth =
      .ok (growth.extend (settle mint level last spots growth.count)) := by
  induction spots generalizing growth with
  | nil => rfl
  | cons spot spots ih =>
    rw [List.foldlM_cons, place_eq _ (registered spot List.mem_cons_self)]
    have next : ∀ other ∈ spots,
        (growth.extend [⟨mint growth.count (objectAt level spot.1 last), spot.2⟩]).index.contains other.2 = true :=
      fun other member => (growth.contains_extend ..).mpr (.inl (registered other (List.mem_cons_of_mem _ member)))
    exact (ih next).trans (congrArg Except.ok (growth.extend_append ..).symm)

theorem foldlM_places (step : Growth → Nat × PlacementId → Except SessionError Growth) (width : Nat)
    (scopes : List PlacementId) (growth : Growth) :
    (places width scopes).foldlM step growth =
      scopes.foldlM (fun growth scope =>
        (List.range width).foldlM (fun growth place => step growth (place, scope)) growth) growth := by
  induction scopes generalizing growth with
  | nil => rfl
  | cons scope scopes ih =>
    rw [places, List.flatMap_cons, List.foldlM_append, List.foldlM_map, List.foldlM_cons]
    congr 1
    funext grown
    exact ih grown

theorem scope_mem_places (member : (place, scope) ∈ places width scopes) : place < width ∧ scope ∈ scopes := by
  obtain ⟨other, listed, member⟩ := List.mem_flatMap.mp member
  obtain ⟨number, below, same⟩ := List.mem_map.mp member
  cases same
  exact ⟨List.mem_range.mp below, listed⟩

theorem growLevel_eq (registered : ∀ scope ∈ scopes, growth.index.contains scope = true) :
    growLevel mint level width last scopes growth =
      .ok (growth.extend (layer mint level width last scopes growth.count)) := by
  have found : ∀ spot ∈ places width scopes, growth.index.contains spot.2 = true :=
    fun spot member => registered spot.2 (scope_mem_places member).2
  rw [layer, ← foldlM_place_eq found, foldlM_places]
  rfl

@[simp] theorem plan_nil (mint : Nat → MediaObject → Placement) (width left level first : Nat) :
    plan mint width left level [] first = [] := by
  induction left generalizing level first with
  | zero => rfl
  | succ left ih => exact ih (level + 1) first

/-- All levels that are left are inserted as planned. -/
theorem growFrom_eq (registered : ∀ scope ∈ scopes, growth.index.contains scope = true) :
    growFrom mint width left level scopes growth =
      .ok (growth.extend (plan mint width left level scopes growth.count)) := by
  induction left generalizing level scopes growth with
  | zero => rfl
  | succ left ih =>
    rw [growFrom]
    split
    · rename_i none
      rw [List.isEmpty_iff.mp none, plan_nil, Growth.extend_nil]
    · rw [growLevel_eq registered, plan]
      generalize layer mint level width (left = 0) scopes growth.count = here
      have placed : ((growth.extend here).inserted.take ((growth.extend here).count - growth.count)).reverse =
          here.map Entry.id := by
        have length : here.length = (here.map Entry.id).reverse.length := by simp
        simp only [Growth.extend, Nat.add_sub_cancel_left]
        rw [length, List.take_left', List.reverse_reverse]
        rfl
      have next : ∀ scope ∈ here.map Entry.id, (growth.extend here).index.contains scope = true :=
        fun scope member => (growth.contains_extend ..).mpr (.inr member)
      rw [growth.extend_append]
      refine Eq.trans ?_ (ih next)
      rw [← placed]
      rfl

theorem mem_layer (mints : Mints mint supply) (member : entry ∈ layer mint level width last scopes first) :
    entry.scope ∈ scopes ∧ ∃ place < width, entry.placement.object.content = objectAt level place last := by
  obtain ⟨⟨⟨place, scope⟩, number⟩, taken, same⟩ := List.mem_map.mp member
  obtain ⟨below, listed⟩ := scope_mem_places (List.fst_mem_of_mem_zipIdx taken)
  subst same
  exact ⟨listed, place, below, mints.content ..⟩

theorem length_places (width : Nat) (scopes : List PlacementId) :
    (places width scopes).length = scopes.length * width := by
  rw [places, List.length_flatMap]
  simp only [List.length_map, List.length_range, List.map_const', List.sum_replicate_nat]

theorem length_layer (mint : Nat → MediaObject → Placement) (level width : Nat) (last : Bool)
    (scopes : List PlacementId) (first : Nat) :
    (layer mint level width last scopes first).length = scopes.length * width := by
  rw [layer, settle, List.length_map, List.length_zipIdx, length_places]

theorem map_id_layer (mints : Mints mint supply) :
    (layer mint level width last scopes first).map Entry.id =
      (List.range' first (layer mint level width last scopes first).length).map supply := by
  rw [length_layer, ← length_places, ← List.zipIdx_map_snd, List.map_map, layer, settle, List.map_map]
  exact List.map_congr_left fun spot _ => mints.id ..

theorem map_scope_layer (mint : Nat → MediaObject → Placement) (level width : Nat) (last : Bool)
    (scopes : List PlacementId) (first : Nat) :
    (layer mint level width last scopes first).map Entry.scope = (places width scopes).map Prod.snd := by
  conv_rhs => rw [← List.zipIdx_map_fst first (places width scopes), List.map_map]
  rw [layer, settle, List.map_map]
  rfl

/-- A level gives every scope that it is below as many members as the tree is wide. -/
theorem length_gained_layer (mint : Nat → MediaObject → Placement) (level width : Nat) (last : Bool)
    (scopes : List PlacementId) (first : Nat) (scope : PlacementId) :
    (gained (layer mint level width last scopes first) scope).length = scopes.count scope * width := by
  rw [length_gained, map_scope_layer]
  induction scopes with
  | nil => simp [places]
  | cons other scopes ih =>
    have here : (((List.range width).map fun place => (place, other)).map Prod.snd).count scope =
        if other = scope then width else 0 := by
      rw [List.map_map]
      change ((List.range width).map fun _ => other).count scope = _
      rw [List.map_const', List.count_replicate, List.length_range]
      simp
    rw [places, List.flatMap_cons, List.map_append, List.count_append, here]
    change _ + ((places width scopes).map Prod.snd).count scope = _
    rw [ih, List.count_cons]
    by_cases same : other = scope
    · simp [same, Nat.add_mul, Nat.add_comm]
    · simp [same]

theorem gained_layer_eq_nil (mint : Nat → MediaObject → Placement) (level width : Nat) (last : Bool) (first : Nat)
    (unlisted : scope ∉ scopes) : gained (layer mint level width last scopes first) scope = [] := by
  rw [← List.length_eq_zero_iff, length_gained_layer, List.count_eq_zero.mpr unlisted, Nat.zero_mul]

theorem layer_rooted (mints : Mints mint supply) : Rooted scopes (layer mint level width last scopes first) :=
  .of_scopes fun _ member => (mem_layer mints member).1

theorem length_plan (mint : Nat → MediaObject → Placement) (width left level : Nat) (scopes : List PlacementId)
    (first : Nat) : (plan mint width left level scopes first).length = scopes.length * levelSum left width := by
  induction left generalizing level scopes first with
  | zero => rw [levelSum_zero, Nat.mul_zero, plan, List.length_nil]
  | succ left ih =>
    rw [plan, List.length_append, ih, List.length_map, length_layer, levelSum_succ, Nat.mul_add, Nat.mul_one,
      Nat.mul_add, Nat.mul_assoc]

theorem map_id_plan (mints : Mints mint supply) :
    (plan mint width left level scopes first).map Entry.id =
      (List.range' first (plan mint width left level scopes first).length).map supply := by
  induction left generalizing level scopes first with
  | zero => rfl
  | succ left ih =>
    rw [plan, List.map_append, ih, map_id_layer mints, List.length_append, ← List.range'_append_1, List.map_append]

theorem plan_rooted (mints : Mints mint supply) : Rooted scopes (plan mint width left level scopes first) := by
  induction left generalizing level scopes first with
  | zero => exact .nil
  | succ left ih =>
    exact (layer_rooted mints).append (ih.mono (List.subset_append_left ..))

/-- The scopes to begin with get their members from the first level only. -/
theorem length_gained_plan (mints : Mints mint supply) (fresh : table.Fresh (plan mint width left level scopes first))
    (registered : ∀ scope ∈ scopes, table.contains scope = true) (distinct : scopes.Nodup) (listed : scope ∈ scopes) :
    (gained (plan mint width left level scopes first) scope).length = if left = 0 then 0 else width := by
  cases left with
  | zero => rfl
  | succ left =>
    rw [plan] at fresh ⊢
    have outside : scope ∉ _ := fun member => fresh.new scope member (registered scope listed)
    rw [List.map_append, List.mem_append, not_or] at outside
    rw [gained_append, (plan_rooted mints).gained_eq_nil outside.1 outside.2, List.append_nil, length_gained_layer,
      List.count_eq_one_of_mem distinct listed, Nat.one_mul, if_neg (Nat.succ_ne_zero left)]

/-- A placement of a level of the tree: a clip without members on the last one, above it a fork with all its members. -/
structure Planted (table : Table) (entries : List Entry) (depth width : Nat) (entry : Entry) (level place : Nat) :
    Prop where
  within : level ≤ depth
  below : place < width
  deep : (table.addAll entries).AtDepth entry.id level
  content : entry.placement.object.content = objectAt level place (level = depth)
  members : (gained entries entry.id).length = if level = depth then 0 else width

theorem Planted.behind {entries earlier : List Entry} {depth place : Nat}
    (planted : Planted (table.addAll earlier) entries depth width entry level place)
    (nothing : gained earlier entry.id = []) : Planted table (earlier ++ entries) depth width entry level place where
  within := planted.within
  below := planted.below
  deep := addAll_append table earlier entries ▸ planted.deep
  content := planted.content
  members := by
    rw [gained_append, nothing, List.nil_append]
    exact planted.members

/-- The placements of a level come in one level below its scopes. -/
theorem layer_deep (mints : Mints mint supply) (valid : table.Consistent)
    (fresh : table.Fresh (layer mint level width last scopes first))
    (deep : ∀ scope ∈ scopes, table.AtDepth scope above) :
    ∀ id ∈ (layer mint level width last scopes first).map Entry.id,
      (table.addAll (layer mint level width last scopes first)).AtDepth id (above + 1) := by
  intro id listed
  obtain ⟨entry, member, same⟩ := List.mem_map.mp listed
  exact same ▸ .of_member fresh valid member (deep _ (mem_layer mints member).1)

theorem plan_planted (mints : Mints mint supply) (valid : table.Consistent)
    (fresh : table.Fresh (plan mint width left (above + 1) scopes first)) (distinct : scopes.Nodup)
    (deep : ∀ scope ∈ scopes, table.AtDepth scope above)
    (member : entry ∈ plan mint width left (above + 1) scopes first) :
    ∃ level place, above < level ∧
      Planted table (plan mint width left (above + 1) scopes first) (above + left) width entry level place := by
  -- the scopes of every level lie at one depth, and what is below them is still to come
  induction left generalizing table above scopes first with
  | zero => cases member
  | succ left ih =>
    have registered : ∀ scope ∈ scopes, table.contains scope = true :=
      fun scope listed => valid.contains_of_atDepth (deep scope listed)
    have unlisted : entry.id ∉ scopes :=
      fun listed => fresh.new entry.id (List.mem_map_of_mem member) (registered _ listed)
    have nothing := gained_layer_eq_nil mint (above + 1) width (left = 0) first unlisted
    have depth : above + (left + 1) = above + 1 + left := by omega
    rw [plan] at fresh member ⊢
    rw [depth]
    have lower := layer_deep mints valid fresh.left deep
    rcases List.mem_append.mp member with here | later
    · obtain ⟨_, place, below, content⟩ := mem_layer mints here
      have listed := List.mem_map_of_mem (f := Entry.id) here
      have members := length_gained_plan mints fresh.right (fun scope listed => (contains_addAll ..).mpr (.inr listed))
        fresh.left.distinct listed
      have last : left = 0 ↔ above + 1 = above + 1 + left := by omega
      refine ⟨above + 1, place, Nat.lt_succ_self above, .behind ?_ nothing⟩
      exact ⟨Nat.le_add_right .., below, (lower _ listed).addAll fresh.right,
        content.trans (congrArg _ (decide_eq_decide.mpr last)), members.trans (if_congr last rfl rfl)⟩
    · have next := valid.addAll fresh.left (layer_rooted mints) registered
      obtain ⟨level, place, deeper, planted⟩ := ih next fresh.right fresh.left.distinct lower later
      exact ⟨level, place, Nat.lt_of_succ_lt deeper, planted.behind nothing⟩

end MediaSession.Tree
