import MediaSession.Proofs.Index.Depth

/-!
Placements registered one after the other, each in a scope that was there before or came just before it. They are what
the tables have afterwards besides what they had, and every scope lists its new members behind the old ones.
-/
namespace MediaSession

abbrev Entry.id (entry : Entry) : PlacementId := entry.placement.id

namespace Table
variable {table : Table} {entries earlier later : List Entry} {entry : Entry} {id scope : PlacementId}
  {known more chain : List PlacementId}

def addAll (table : Table) (entries : List Entry) : Table :=
  entries.foldl (fun table entry => table.add entry.placement entry.scope) table

@[simp] theorem addAll_nil (table : Table) : table.addAll [] = table := rfl

@[simp] theorem addAll_cons (table : Table) (entry : Entry) (entries : List Entry) :
    table.addAll (entry :: entries) = (table.add entry.placement entry.scope).addAll entries := rfl

theorem addAll_append (table : Table) (earlier later : List Entry) :
    table.addAll (earlier ++ later) = (table.addAll earlier).addAll later := List.foldl_append

/-- What a scope gets as members. -/
def gained (entries : List Entry) (scope : PlacementId) : List PlacementId :=
  (entries.filter fun entry => entry.scope = scope).map Entry.id

theorem gained_append (earlier later : List Entry) (scope : PlacementId) :
    gained (earlier ++ later) scope = gained earlier scope ++ gained later scope := by
  simp only [gained, List.filter_append, List.map_append]

theorem length_gained (entries : List Entry) (scope : PlacementId) :
    (gained entries scope).length = (entries.map Entry.scope).count scope := by
  rw [gained, List.length_map, ← List.countP_eq_length_filter, List.count_eq_countP,
    List.countP_map]
  apply List.countP_congr
  intro entry _
  simp

theorem gained_subset (entries : List Entry) (scope : PlacementId) : gained entries scope ⊆ entries.map Entry.id := by
  intro id listed
  obtain ⟨entry, member, same⟩ := List.mem_map.mp listed
  exact List.mem_map.mpr ⟨entry, List.mem_of_mem_filter member, same⟩

@[simp] theorem root_addAll (table : Table) (entries : List Entry) : (table.addAll entries).root = table.root := by
  induction entries generalizing table with
  | nil => rfl
  | cons entry entries ih => rw [addAll_cons, ih, root_add]

theorem entry?_addAll_old (other : id ∉ entries.map Entry.id) : entry? (table.addAll entries) id = table.entry? id := by
  induction entries generalizing table with
  | nil => rfl
  | cons entry entries ih =>
    obtain ⟨different, rest⟩ := List.ne_and_not_mem_of_not_mem_cons other
    rw [addAll_cons, ih rest, entry?_add, if_neg (Ne.symm different)]

theorem entry?_addAll_new (distinct : (entries.map Entry.id).Nodup) (member : entry ∈ entries) :
    entry? (table.addAll entries) entry.id = some entry := by
  induction entries generalizing table with
  | nil => cases member
  | cons first rest ih =>
    obtain ⟨apart, distinct⟩ := List.nodup_cons.mp distinct
    rw [addAll_cons]
    rcases List.mem_cons.mp member with same | later
    · subst same
      rw [entry?_addAll_old apart, entry?_add, Entry.id, if_pos rfl]
    · exact ih distinct later

theorem contains_addAll (table : Table) (entries : List Entry) (id : PlacementId) :
    (table.addAll entries).contains id = true ↔ table.contains id = true ∨ id ∈ entries.map Entry.id := by
  induction entries generalizing table with
  | nil => simp
  | cons entry entries ih =>
    have one : (table.add entry.placement entry.scope).contains id = true ↔
        id = entry.id ∨ table.contains id = true := by
      rw [contains_iff, entry?_add, contains_iff, Entry.id]
      by_cases same : entry.placement.id = id
      · simp [same]
      · simp [same, Ne.symm same]
    rw [addAll_cons, ih, one, List.map_cons, List.mem_cons, or_assoc, or_left_comm]

theorem members_addAll (table : Table) (entries : List Entry) (scope : PlacementId) :
    (table.addAll entries).members scope = table.members scope ++ gained entries scope := by
  induction entries generalizing table with
  | nil => exact (List.append_nil _).symm
  | cons entry entries ih =>
    have first : (table.add entry.placement entry.scope).members scope =
        table.members scope ++ gained [entry] scope := by
      rw [members_add]
      by_cases here : entry.scope = scope
      · simp [gained, here, Entry.id]
      · simp [gained, here]
    rw [addAll_cons, ih, first, List.append_assoc, ← gained_append, List.singleton_append]

/-- Every scope is known in advance or belongs to an entry that comes earlier. -/
inductive Rooted : List PlacementId → List Entry → Prop where
  | nil {known : List PlacementId} : Rooted known []
  | cons {known : List PlacementId} {entry : Entry} {entries : List Entry} (inside : entry.scope ∈ known)
      (rest : Rooted (entry.id :: known) entries) : Rooted known (entry :: entries)

theorem Rooted.mono (rooted : Rooted known entries) (within : known ⊆ more) : Rooted more entries := by
  induction rooted generalizing more with
  | nil => exact .nil
  | cons inside _ ih => exact .cons (within inside) (ih (List.cons_subset_cons _ within))

theorem Rooted.of_scopes (within : ∀ entry ∈ entries, entry.scope ∈ known) : Rooted known entries := by
  induction entries generalizing known with
  | nil => exact .nil
  | cons entry entries ih =>
    refine .cons (within entry List.mem_cons_self) (ih fun other member => ?_)
    exact List.mem_cons_of_mem _ (within other (List.mem_cons_of_mem _ member))

theorem Rooted.append (first : Rooted known earlier) (second : Rooted (earlier.map Entry.id ++ known) later) :
    Rooted known (earlier ++ later) := by
  induction first with
  | nil => exact second
  | cons inside _ ih => exact .cons inside (ih (second.mono (by simp)))

theorem Rooted.scope_mem (rooted : Rooted known (earlier ++ entry :: later)) :
    entry.scope ∈ known ∨ entry.scope ∈ earlier.map Entry.id := by
  induction earlier generalizing known with
  | nil =>
    cases rooted with
    | cons inside _ => exact .inl inside
  | cons first earlier ih =>
    cases rooted with
    | cons _ rest =>
      rw [List.map_cons, List.mem_cons]
      rcases ih rest with before | between
      · rcases List.mem_cons.mp before with same | before
        · exact .inr (.inl same)
        · exact .inl before
      · exact .inr (.inr between)

/-- What is neither known in advance nor added gets no member. -/
theorem Rooted.gained_eq_nil (rooted : Rooted known entries) (unknown : scope ∉ known)
    (other : scope ∉ entries.map Entry.id) : gained entries scope = [] := by
  rw [← List.length_eq_zero_iff, length_gained, List.count_eq_zero]
  intro listed
  obtain ⟨entry, member, same⟩ := List.mem_map.mp listed
  obtain ⟨earlier, later, split⟩ := List.append_of_mem member
  subst split same
  rcases rooted.scope_mem with before | between
  · exact unknown before
  · exact other (List.map_append ▸ List.mem_append_left _ between)

/-- New entries for the tables: no identity is registered or occurs twice. -/
structure Fresh (table : Table) (entries : List Entry) : Prop where
  distinct : (entries.map Entry.id).Nodup
  new : ∀ id ∈ entries.map Entry.id, table.contains id ≠ true

theorem Fresh.left (fresh : table.Fresh (earlier ++ later)) : table.Fresh earlier where
  distinct := (List.nodup_append.mp (List.map_append ▸ fresh.distinct)).1
  new id member := fresh.new id (List.map_append ▸ List.mem_append_left _ member)

theorem Fresh.right (fresh : table.Fresh (earlier ++ later)) : (table.addAll earlier).Fresh later where
  distinct := (List.nodup_append.mp (List.map_append ▸ fresh.distinct)).2.1
  new id member registered := by
    have distinct := fresh.distinct
    rw [List.map_append] at distinct
    rcases (contains_addAll ..).mp registered with before | between
    · exact fresh.new id (List.map_append ▸ List.mem_append_right _ member) before
    · exact (List.nodup_append.mp distinct).2.2 id between id member rfl

theorem Fresh.tail (fresh : table.Fresh (entry :: entries)) :
    (table.add entry.placement entry.scope).Fresh entries := by
  have split : table.Fresh ([entry] ++ entries) := fresh
  exact split.right

theorem Ascent.addAll (ascent : table.Ascent id chain) (fresh : table.Fresh entries) :
    (table.addAll entries).Ascent id chain := by
  induction entries generalizing table with
  | nil => exact ascent
  | cons entry entries ih =>
    exact ih (ascent.add (fresh.new entry.id List.mem_cons_self)) fresh.tail

theorem Consistent.contains_of_atDepth {depth : Nat} (valid : table.Consistent) (deep : table.AtDepth id depth) :
    table.contains id = true := by
  obtain ⟨chain, ascent, _⟩ := deep
  exact valid.contains_of_ascent ascent

theorem AtDepth.addAll {depth : Nat} (deep : table.AtDepth id depth) (fresh : table.Fresh entries) :
    (table.addAll entries).AtDepth id depth := by
  obtain ⟨chain, ascent, length⟩ := deep
  exact ⟨chain, ascent.addAll fresh, length⟩

theorem Consistent.addAll (valid : table.Consistent) (fresh : table.Fresh entries) (rooted : Rooted known entries)
    (registered : ∀ scope ∈ known, table.contains scope = true) : (table.addAll entries).Consistent := by
  induction rooted generalizing table with
  | nil => exact valid
  | @cons known entry entries inside _ ih =>
    have next := valid.add (fresh.new entry.id List.mem_cons_self) (registered _ inside)
    refine ih next fresh.tail ?_
    intro scope member
    have either : table.contains scope = true ∨ scope ∈ [entry].map Entry.id := by
      rcases List.mem_cons.mp member with same | before
      · exact .inr (List.mem_singleton.mpr same)
      · exact .inl (registered scope before)
    exact (contains_addAll table [entry] scope).mpr either

/-- A new entry lies one level below its scope. -/
theorem AtDepth.of_member {depth : Nat} (fresh : table.Fresh entries) (valid : table.Consistent)
    (member : entry ∈ entries) (above : table.AtDepth entry.scope depth) :
    (table.addAll entries).AtDepth entry.id (depth + 1) := by
  obtain ⟨chain, ascent, length⟩ := above.addAll fresh
  have inner : entry.id ≠ (table.addAll entries).root := by
    intro same
    rw [root_addAll] at same
    exact fresh.new entry.id (List.mem_map_of_mem member) (same ▸ valid.contains_root)
  have inside : (table.addAll entries).scope? entry.id = some entry.scope :=
    scope?_of_found (entry?_addAll_new fresh.distinct member)
  exact ⟨entry.id :: chain, .scope inside inner ascent, congrArg (· + 1) length⟩

end Table

end MediaSession
