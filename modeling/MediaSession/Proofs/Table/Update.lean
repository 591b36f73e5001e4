import MediaSession.Proofs.Table.Tree

/-!
Every update of the tables keeps them one tree. The three removals are stated alike: what is taken out, and
that nothing else changes but the order within member lists.
-/
namespace MediaSession.Table

variable {table rest : Table} {id scope : PlacementId}

theorem ofRoot_consistent (root : Placement) : (ofRoot root).Consistent where
  keyed {id entry} found := by
    rw [entry?_ofRoot] at found
    split at found
    · rename_i same
      cases found
      exact same
    · cases found
  root_scope := (scope?_ofRoot_iff ..).mpr ⟨rfl, rfl⟩
  ascent {id} registered := by
    obtain rfl := (contains_ofRoot_iff ..).mp registered
    exact ⟨_, Ascent.root⟩
  count_members scope id := by
    have alone : ¬ (id ≠ root.id ∧ (ofRoot root).scope? id = some scope) := by
      rintro ⟨inner, inside⟩
      exact inner ((scope?_ofRoot_iff ..).mp inside).1.symm
    rw [root_ofRoot, if_neg alone, members_ofRoot, List.count_nil]
  no_empty_list scope := by simp

theorem Ascent.add {placement : Placement} (fresh : table.contains placement.id ≠ true)
    {chain : List PlacementId} (ascent : table.Ascent id chain) :
    (table.add placement scope).Ascent id chain := by
  induction ascent with
  | root => exact .root
  | scope inside inner rest ih =>
    refine .scope ?_ inner ih
    rw [scope?_add, if_neg, inside]
    intro same
    exact fresh (same ▸ contains_of_scope? inside)

theorem Consistent.add (valid : table.Consistent) {placement : Placement}
    (fresh : table.contains placement.id ≠ true) (registered : table.contains scope = true) :
    (table.add placement scope).Consistent where
  keyed {id entry} found := by
    rw [entry?_add] at found
    split at found
    · rename_i same
      cases found
      exact same
    · exact valid.keyed found
  root_scope := by
    rw [root_add, scope?_add, if_neg, valid.root_scope]
    intro same
    exact fresh (same ▸ valid.contains_root)
  ascent {id} present := by
    have inner : placement.id ≠ table.root := fun same => fresh (same ▸ valid.contains_root)
    obtain ⟨within, inside⟩ := (contains_iff_scope? _ id).mp present
    rw [scope?_add] at inside
    split at inside
    · rename_i same
      obtain ⟨chain, ascent⟩ := valid.ascent registered
      have step : (table.add placement scope).scope? id = some scope := by rw [scope?_add, if_pos same]
      exact ⟨id :: chain, .scope step (same ▸ inner) (ascent.add fresh)⟩
    · obtain ⟨chain, ascent⟩ := valid.ascent (contains_of_scope? inside)
      exact ⟨chain, ascent.add fresh⟩
  count_members other id := by
    have inner : placement.id ≠ table.root := fun same => fresh (same ▸ valid.contains_root)
    have unlisted (scope : PlacementId) : (table.members scope).count placement.id = 0 := by
      rw [List.count_eq_zero]
      intro listed
      exact fresh (valid.contains_member listed)
    rw [members_add, scope?_add, root_add]
    by_cases new : placement.id = id
    · subst new
      by_cases here : scope = other <;> simp [here, inner, unlisted]
    · have before := valid.count_members other id
      by_cases here : scope = other
      · subst here
        rw [if_pos rfl, if_neg new, List.count_append, List.count_cons_of_ne new, List.count_nil, before, Nat.add_zero]
      · rw [if_neg here, if_neg new, before]
  no_empty_list other := by
    rw [contents_add]
    split
    · simp
    · exact valid.no_empty_list other

theorem Ascent.editPin {edits : List PinEdit} {chain : List PlacementId} (ascent : table.Ascent id chain)
    (edited : PlacementId) : (table.editPin edited edits).Ascent id chain := by
  induction ascent with
  | root => exact (root_editPin table edited edits) ▸ .root
  | scope inside inner rest ih => exact .scope (by simpa using inside) (by simpa using inner) ih

theorem Consistent.editPin (valid : table.Consistent) (id : PlacementId) (edits : List PinEdit) :
    (table.editPin id edits).Consistent where
  keyed {other entry} found := by
    rw [entry?_editPin] at found
    split at found
    · obtain ⟨before, present, same⟩ := Option.map_eq_some_iff.mp found
      subst same
      have key := valid.keyed present
      exact key
    · exact valid.keyed found
  root_scope := by simpa using valid.root_scope
  ascent {other} present := by
    have before : table.contains other = true := by
      rw [contains_iff_scope?] at present ⊢
      simpa using present
    obtain ⟨chain, ascent⟩ := valid.ascent before
    exact ⟨chain, ascent.editPin id⟩
  count_members scope other := by simpa using valid.count_members scope other
  no_empty_list scope := by simpa using valid.no_empty_list scope

/-- The second table lacks what is gone, and its memberships, and is else the same up to the order within
member lists. -/
structure Prunes (table rest : Table) (gone : PlacementId → Prop) : Prop where
  root_eq : rest.root = table.root
  entry_gone : ∀ {id}, gone id → rest.entry? id = none
  entry_kept : ∀ {id}, ¬ gone id → rest.entry? id = table.entry? id
  unlisted : ∀ {scope id}, gone id → id ∉ rest.members scope
  count_kept : ∀ {scope id}, ¬ gone id → (rest.members scope).count id = (table.members scope).count id
  no_empty_list : ∀ {scope : PlacementId}, rest.contents[scope]? = some #[] → table.contents[scope]? = some #[]

namespace Prunes
variable {gone : PlacementId → Prop}

theorem scope_gone (pruned : Prunes table rest gone) (out : gone id) : rest.scope? id = none := by
  rw [scope?, pruned.entry_gone out]
  rfl

theorem scope_kept (pruned : Prunes table rest gone) (stays : ¬ gone id) :
    rest.scope? id = table.scope? id := by
  rw [scope?, pruned.entry_kept stays, scope?]

theorem entry?_of_some (pruned : Prunes table rest gone) {entry : Entry} (found : rest.entry? id = some entry) :
    table.entry? id = some entry := by
  by_cases out : gone id
  · rw [pruned.entry_gone out] at found
    cases found
  · rw [← pruned.entry_kept out, found]

theorem contains_iff (pruned : Prunes table rest gone) :
    rest.contains id = true ↔ table.contains id = true ∧ ¬ gone id := by
  rw [contains_iff_scope?, contains_iff_scope?]
  by_cases out : gone id
  · simp [pruned.scope_gone out, out]
  · simp [pruned.scope_kept out, out]

theorem mem_members_iff (pruned : Prunes table rest gone) :
    id ∈ rest.members scope ↔ id ∈ table.members scope ∧ ¬ gone id := by
  by_cases out : gone id
  · simp [pruned.unlisted out, out]
  · rw [← List.count_pos_iff, pruned.count_kept out, List.count_pos_iff]
    simp [out]

theorem congr (pruned : Prunes table rest gone) {other : PlacementId → Prop}
    (same : ∀ id, other id ↔ gone id) : Prunes table rest other := by
  have equal : other = gone := funext fun id => propext (same id)
  exact equal ▸ pruned

theorem trans {last : Table} {later : PlacementId → Prop} (pruned : Prunes table rest gone)
    (further : Prunes rest last later) : Prunes table last fun id => gone id ∨ later id where
  root_eq := further.root_eq.trans pruned.root_eq
  entry_gone {id} out := by
    by_cases after : later id
    · exact further.entry_gone after
    · rw [further.entry_kept after, pruned.entry_gone (out.resolve_right after)]
  entry_kept stays := by
    have ⟨before, after⟩ := not_or.mp stays
    rw [further.entry_kept after, pruned.entry_kept before]
  unlisted {scope id} out := by
    by_cases after : later id
    · exact further.unlisted after
    · rw [further.mem_members_iff]
      exact fun listed => pruned.unlisted (out.resolve_right after) listed.1
  count_kept stays := by
    have ⟨before, after⟩ := not_or.mp stays
    rw [further.count_kept after, pruned.count_kept before]
  no_empty_list empty := pruned.no_empty_list (further.no_empty_list empty)

/-- An ascent of something that is kept avoids what is gone, if that contains the members of its scopes. -/
theorem ascent (pruned : Prunes table rest gone) (valid : table.Consistent)
    (closed : ∀ scope id, gone scope → id ∈ table.members scope → gone id) {chain : List PlacementId}
    (ascent : table.Ascent id chain) (stays : ¬ gone id) : rest.Ascent id chain := by
  induction ascent with
  | root => exact pruned.root_eq ▸ .root
  | @scope id scope above inside inner _ ih =>
    refine .scope ((pruned.scope_kept stays).trans inside) (pruned.root_eq ▸ inner) (ih ?_)
    intro out
    exact stays (closed scope id out (valid.mem_members_iff.mpr ⟨inner, inside⟩))

theorem consistent (pruned : Prunes table rest gone) (valid : table.Consistent) (rooted : ¬ gone table.root)
    (closed : ∀ scope id, gone scope → id ∈ table.members scope → gone id) : rest.Consistent where
  keyed {id entry} found := by
    by_cases out : gone id
    · rw [pruned.entry_gone out] at found
      cases found
    · rw [pruned.entry_kept out] at found
      exact valid.keyed found
  root_scope := by rw [pruned.root_eq, pruned.scope_kept rooted, valid.root_scope]
  ascent {id} present := by
    obtain ⟨before, stays⟩ := pruned.contains_iff.mp present
    obtain ⟨chain, ascent⟩ := valid.ascent before
    exact ⟨chain, pruned.ascent valid closed ascent stays⟩
  count_members scope id := by
    by_cases out : gone id
    · rw [List.count_eq_zero.mpr (pruned.unlisted out), pruned.scope_gone out]
      simp
    · rw [pruned.count_kept out, pruned.scope_kept out, pruned.root_eq, valid.count_members]
  no_empty_list scope empty := valid.no_empty_list scope (pruned.no_empty_list empty)

end Prunes

/-- Removing a registered placement other than the root takes out just that one. -/
theorem removeEntry_prunes (valid : table.Consistent) (inside : table.scope? id = some scope) :
    Prunes table (table.removeEntry id scope) (· = id) where
  root_eq := by simp
  entry_gone {other} out := by rw [entry?_removeEntry, if_pos out.symm]
  entry_kept {other} stays := by rw [entry?_removeEntry, if_neg (Ne.symm stays)]
  unlisted {within other} out listed := by
    subst out
    by_cases here : scope = within
    · subst here
      have erased := (members_removeEntry_perm table other scope).mem_iff.mp listed
      exact (List.Nodup.not_mem_erase (valid.nodup_members scope)) erased
    · rw [members_removeEntry_of_ne table here] at listed
      have same := inside.symm.trans (valid.mem_members_iff.mp listed).2
      exact here (Option.some.inj same)
  count_kept {within other} stays := by
    by_cases here : scope = within
    · subst here
      rw [(members_removeEntry_perm table id scope).count_eq, List.count_erase_of_ne stays]
    · rw [members_removeEntry_of_ne table here]
  no_empty_list {within} empty := by
    by_cases here : scope = within
    · subst here
      exact absurd empty (contents_removeEntry_ne_empty table id scope)
    · rwa [contents_removeEntry_of_ne table here] at empty

/-- Clearing a scope takes out what is below it. -/
theorem removeBelow_prunes (valid : table.Consistent) (scope : PlacementId) :
    Prunes table (table.removeBelow scope).1 (table.Below scope) := by
  obtain ⟨cut, lost, entries, root, swept⟩ := table.removeBelow_swept scope
  have kept {within : PlacementId} (out : ¬ table.Below scope within) (different : scope ≠ within) :
      (table.removeBelow scope).1.contents[within]? = table.contents[within]? := by
    rw [swept.contents_kept out, lost.contents, if_neg different]
  have emptied {within : PlacementId} (out : scope = within ∨ table.Below scope within) :
      (table.removeBelow scope).1.contents[within]? = none := by
    by_cases below : table.Below scope within
    · exact swept.contents_gone below
    · rw [swept.contents_kept below, lost.contents, if_pos (out.resolve_right below)]
  refine ⟨swept.root_eq.trans root, swept.entry_gone, ?_, ?_, ?_, ?_⟩
  · intro id stays
    rw [swept.entry_kept stays, entry?, entries, entry?]
  · intro within id below listed
    obtain ⟨above, recorded, route⟩ := Consistent.mem_of_below below
    by_cases out : scope = within ∨ table.Below scope within
    · simp [members_eq, emptied out] at listed
    · obtain ⟨different, stays⟩ := not_or.mp out
      rw [members_eq, kept stays different, ← members_eq] at listed
      have same := (valid.mem_members_iff.mp recorded).2.symm.trans (valid.mem_members_iff.mp listed).2
      cases Option.some.inj same
      rcases Relation.reflTransGen_iff_eq_or_transGen.mp route with same | below
      · exact different same.symm
      · exact stays below
  · intro within id stays
    by_cases out : scope = within ∨ table.Below scope within
    · have nothing : id ∉ table.members within := by
        intro listed
        rcases out with same | below
        · exact stays (.single (same ▸ listed))
        · exact stays (.tail below listed)
      rw [List.count_eq_zero.mpr nothing]
      simp [members_eq, emptied out]
    · obtain ⟨different, below⟩ := not_or.mp out
      rw [members_eq, kept below different, ← members_eq]
  · intro within empty
    by_cases out : scope = within ∨ table.Below scope within
    · rw [emptied out] at empty
      cases empty
    · obtain ⟨different, below⟩ := not_or.mp out
      rwa [kept below different] at empty

theorem below_closed (within other : PlacementId) (below : table.Below scope within)
    (listed : other ∈ table.members within) : table.Below scope other := .tail below listed

theorem removeBelow_consistent (valid : table.Consistent) (scope : PlacementId) :
    (table.removeBelow scope).1.Consistent :=
  (removeBelow_prunes valid scope).consistent valid (fun below => (valid.scope_of_below below).1 rfl)
    below_closed

/-- A scope is not met below itself. -/
theorem removeAll_eq (valid : table.Consistent) {entry : Entry} (found : table.entry? id = some entry) :
    table.removeAll id =
      let (below, removed) := table.removeBelow id
      (below.removeEntry id entry.scope, entry.placement :: removed, (entry.placement :: removed).length) := by
  have still : entry? (table.removeBelow id).1 id = some entry := by
    rw [(removeBelow_prunes valid id).entry_kept (valid.not_below_self id), found]
  simp [removeAll, found, still]

/-- Removing a whole scope takes out the scope and what is below it. -/
theorem removeAll_prunes (valid : table.Consistent) (registered : table.contains id = true) :
    Prunes table (table.removeAll id).1 (Relation.ReflTransGen table.Lists id) := by
  obtain ⟨entry, found⟩ := (table.contains_iff id).mp registered
  have pruned := removeBelow_prunes valid id
  have still : entry? (table.removeBelow id).1 id = some entry := by
    rw [pruned.entry_kept (valid.not_below_self id), found]
  have whole := pruned.trans (removeEntry_prunes (removeBelow_consistent valid id) (scope?_of_found still))
  rw [removeAll_eq valid found]
  refine whole.congr fun other => ?_
  rw [Relation.reflTransGen_iff_eq_or_transGen]
  exact or_comm

end MediaSession.Table
