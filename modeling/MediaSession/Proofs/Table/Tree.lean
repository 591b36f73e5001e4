import MediaSession.Proofs.Table.Sweep

/-!
The invariant of the two tables: together they describe one tree around the root. Every update keeps it,
and a removal keeps it whenever what is taken out contains, with a scope, all its members.
-/
namespace MediaSession.Table

/-- Scopes from an identity upwards, the root last. -/
inductive Ascent (table : Table) : PlacementId → List PlacementId → Prop where
  | root : Ascent table table.root [table.root]
  | scope {id scope : PlacementId} {above : List PlacementId} (inside : table.scope? id = some scope)
      (inner : id ≠ table.root) (rest : Ascent table scope above) : Ascent table id (id :: above)

/-- Every registered placement ascends to the root, and the member lists record the scopes of all but the
root, each membership once and no list without a member. -/
structure Consistent (table : Table) : Prop where
  keyed : ∀ {id entry}, table.entry? id = some entry → entry.placement.id = id
  root_scope : table.scope? table.root = some table.root
  ascent : ∀ {id}, table.contains id = true → ∃ chain, table.Ascent id chain
  count_members : ∀ scope id : PlacementId, (table.members scope).count id =
    if id ≠ table.root ∧ table.scope? id = some scope then 1 else 0
  no_empty_list : ∀ scope : PlacementId, table.contents[scope]? ≠ some #[]

variable {table rest : Table} {id scope : PlacementId}

theorem Ascent.unique {first second : List PlacementId} (one : table.Ascent id first)
    (other : table.Ascent id second) : first = second := by
  induction one generalizing second with
  | root =>
    cases other with
    | root => rfl
    | scope _ inner _ => exact absurd rfl inner
  | scope inside inner _ ih =>
    cases other with
    | root => exact absurd rfl inner
    | scope same _ rest =>
      rw [inside] at same
      cases same
      rw [ih rest]

/-- Every identity on an ascent has the rest of it as its own. -/
theorem Ascent.suffix {chain : List PlacementId} (ascent : table.Ascent id chain) {other : PlacementId}
    (member : other ∈ chain) : ∃ tail, table.Ascent other tail ∧ tail.IsSuffix chain := by
  induction ascent with
  | root =>
    rw [List.mem_singleton.mp member]
    exact ⟨_, .root, List.suffix_rfl⟩
  | @scope id scope above inside inner rest ih =>
    rcases List.mem_cons.mp member with same | higher
    · subst same
      exact ⟨_, .scope inside inner rest, List.suffix_rfl⟩
    · obtain ⟨tail, shorter, kept⟩ := ih higher
      exact ⟨tail, shorter, kept.trans (List.suffix_cons _ _)⟩

theorem Ascent.nodup {chain : List PlacementId} (ascent : table.Ascent id chain) : chain.Nodup := by
  induction ascent with
  | root => simp
  | @scope id scope above inside inner rest ih =>
    refine List.nodup_cons.mpr ⟨?_, ih⟩
    -- a second visit would start an equal ascent that is shorter
    intro again
    obtain ⟨tail, whole, shorter⟩ := rest.suffix again
    have same := whole.unique (.scope inside inner rest)
    have bound := shorter.length_le
    rw [same, List.length_cons] at bound
    omega

theorem Ascent.head {chain : List PlacementId} (ascent : table.Ascent id chain) : chain.head? = some id := by
  cases ascent <;> rfl

theorem Ascent.length_pos {chain : List PlacementId} (ascent : table.Ascent id chain) : 0 < chain.length := by
  cases ascent <;> exact Nat.succ_pos _

theorem Ascent.getLast {chain : List PlacementId} (ascent : table.Ascent id chain) :
    chain.getLast? = some table.root := by
  induction ascent with
  | root => rfl
  | @scope id scope above _ _ rest ih =>
    cases above with
    | nil => simp at ih
    | cons next higher => simpa [List.getLast?_cons] using ih

namespace Consistent

theorem mem_members_iff (valid : table.Consistent) :
    id ∈ table.members scope ↔ id ≠ table.root ∧ table.scope? id = some scope := by
  rw [← List.count_pos_iff, valid.count_members]
  split <;> simp_all

theorem ascent_member (valid : table.Consistent) (listed : id ∈ table.members scope) {chain : List PlacementId}
    (ascent : table.Ascent scope chain) : table.Ascent id (id :: chain) := by
  obtain ⟨inner, inside⟩ := valid.mem_members_iff.mp listed
  exact .scope inside inner ascent

theorem nodup_members (valid : table.Consistent) (scope : PlacementId) : (table.members scope).Nodup := by
  rw [List.nodup_iff_count]
  intro id
  rw [valid.count_members]
  split <;> simp

theorem contains_member (valid : table.Consistent) (listed : id ∈ table.members scope) : table.contains id = true :=
  contains_of_scope? (valid.mem_members_iff.mp listed).2

theorem contains_root (valid : table.Consistent) : table.contains table.root = true :=
  contains_of_scope? valid.root_scope

theorem contains_of_ascent (valid : table.Consistent) {chain : List PlacementId}
    (ascent : table.Ascent id chain) : table.contains id = true := by
  cases ascent with
  | root => exact valid.contains_root
  | scope inside _ _ => exact contains_of_scope? inside

/-- The scope of a registered placement is registered. -/
theorem contains_scope (valid : table.Consistent) (inside : table.scope? id = some scope) :
    table.contains scope = true := by
  obtain ⟨chain, ascent⟩ := valid.ascent (contains_of_scope? inside)
  cases ascent with
  | root =>
    rw [valid.root_scope] at inside
    cases inside
    exact valid.contains_root
  | scope same _ rest =>
    rw [inside] at same
    cases same
    exact valid.contains_of_ascent rest

theorem members_eq_nil (valid : table.Consistent) (missing : table.contains scope ≠ true) :
    table.members scope = [] := by
  rw [List.eq_nil_iff_forall_not_mem]
  intro id listed
  exact missing (valid.contains_scope (valid.mem_members_iff.mp listed).2)

theorem mem_of_below (below : table.Below scope id) :
    ∃ above, id ∈ table.members above ∧ Relation.ReflTransGen table.Lists scope above := by
  obtain ⟨above, route, listed⟩ := Relation.TransGen.tail'_iff.mp below
  exact ⟨above, listed, route⟩

theorem scope_of_below (valid : table.Consistent) (below : table.Below scope id) :
    id ≠ table.root ∧ table.contains id = true := by
  obtain ⟨_, listed, _⟩ := mem_of_below below
  obtain ⟨inner, inside⟩ := valid.mem_members_iff.mp listed
  exact ⟨inner, contains_of_scope? inside⟩

/-- What lies below a scope ascends through it. -/
theorem length_lt_of_below (valid : table.Consistent) (below : table.Below scope id)
    {higher lower : List PlacementId} (upper : table.Ascent scope higher) (ascent : table.Ascent id lower) :
    higher.length < lower.length := by
  have step {scope id : PlacementId} {higher lower : List PlacementId} (listed : table.Lists scope id)
      (upper : table.Ascent scope higher) (ascent : table.Ascent id lower) :
      higher.length < lower.length := by
    rw [ascent.unique (valid.ascent_member listed upper), List.length_cons]
    omega
  induction below generalizing lower with
  | single listed => exact step listed upper ascent
  | tail below listed ih =>
    obtain ⟨middle, between⟩ := valid.ascent (valid.scope_of_below below).2
    exact Nat.lt_trans (ih between) (step listed between ascent)

theorem not_below_self (valid : table.Consistent) (id : PlacementId) : ¬ table.Below id id := by
  intro below
  obtain ⟨chain, ascent⟩ := valid.ascent (valid.scope_of_below below).2
  exact Nat.lt_irrefl _ (valid.length_lt_of_below below ascent ascent)

end Consistent

end MediaSession.Table
